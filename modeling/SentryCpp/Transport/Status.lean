import SentryCpp.Transport.Pause

/-!
How `checkResponse` reads the status of an answer. The client hands over the
code together with the reason phrase, and the table of `status_code` has one
phrase for each code. With any other phrase a 200 counts as a rejection, so
that its event is sent a second time, and a 429 does not lead to `DROP_EVENTS`.
In a run in which the phrases that matter are those of the table, no event
answered with a 200 or a 429 is sent again.
-/

namespace Sentry.Transport

open StdString SimpleWeb RetryQueue

/-- The line is the code, alone or with a reason phrase behind a space. -/
def hasCode (code line : Bytes) : Bool :=
  line.take 3 = code && (line.drop 3).head?.all fun c => c = 32

/-- The answer has the code, whatever its reason phrase is. -/
def carries (code : Bytes) (outcome : Outcome) : Bool :=
  outcome.head.any fun r => hasCode code r.statusCode

/-- An answer with a 200 has the phrase of the table, or it answers a retry, or
no status of it is read because `request` ends the process: its `Content-Length`
is no number, or one of its chunks has no handler. One with a 429 has the phrase
of the table, and nothing in it throws. -/
def readsAs (isRetrying : Bool) (outcome : Outcome) : Bool :=
  outcome.head.all fun r =>
    (!hasCode (lit "200") r.statusCode || r.statusCode = lit "200 OK" || isRetrying ||
      outcome.unreadable) &&
    (!hasCode (lit "429") r.statusCode ||
      (r.statusCode = lit "429 Too Many Requests" && !outcome.unreadable &&
        retryAfterOk r.header))

/-- The step is no answer, or one whose status is read as its code. -/
def readsStatus (w : World) (a : Action) : Bool :=
  match a, w.worker with
  | .answer outcome _, .awaiting _ post => readsAs post.isRetrying outcome
  | _, _ => true

/-- What a 200 and a 429 mean for the event and for the transport. -/
structure StatusRespected (schedule : List Action) (w : World) : Prop where
  notAgain : ∀ (i j : Nat) (post later : Post) (outcome : Outcome), i < j →
    w.transport.history.posts[i]? = some post → w.transport.history.posts[j]? = some later →
    w.transport.history.outcomes[i]? = some outcome →
    carries (lit "200") outcome = true ∨ carries (lit "429") outcome = true →
    later.event ≠ post.event
  dropping : ∀ (before : List Action) (outcome : Outcome) (now : Time),
    schedule = before ++ [.answer outcome now] → carries (lit "429") outcome = true →
    w.transport.state = .dropEvents

/-- The table has one line for each code. -/
theorem line_of_statusCode {code : StatusCode} (hcode : code ≠ .unknown) {line : Bytes}
    (h : SimpleWeb.statusCode line = code) : (code, line) ∈ statusCodeStrings := by
  unfold SimpleWeb.statusCode at h
  cases hfind : statusCodeStrings.find? fun entry => entry.2 = line with
  | none =>
      rw [hfind] at h
      exact absurd h.symm hcode
  | some entry =>
      rw [hfind] at h
      obtain rfl : entry.2 = line := by simpa using List.find?_some hfind
      rw [← h]
      exact List.mem_of_find?_eq_some hfind

theorem statusCode_eq_successOk_iff (line : Bytes) :
    SimpleWeb.statusCode line = .successOk ↔ line = lit "200 OK" := by
  constructor
  · intro h
    have hlines : ∀ entry ∈ statusCodeStrings, entry.1 = .successOk → entry.2 = lit "200 OK" := by
      decide
    exact hlines _ (line_of_statusCode (by decide) h) rfl
  · rintro rfl
    decide

theorem statusCode_eq_tooManyRequests_iff (line : Bytes) :
    SimpleWeb.statusCode line = .clientErrorTooManyRequests ↔
      line = lit "429 Too Many Requests" := by
  constructor
  · intro h
    have hlines : ∀ entry ∈ statusCodeStrings,
        entry.1 = .clientErrorTooManyRequests → entry.2 = lit "429 Too Many Requests" := by
      decide
    exact hlines _ (line_of_statusCode (by decide) h) rfl
  · rintro rfl
    decide

/-- An answer is rejected if it can be read, and its line is neither of the two. -/
theorem rejected_iff {outcome : Outcome} {response : Response}
    (hhead : outcome.head = some response) :
    rejected outcome = true ↔ outcome.unreadable = false ∧
      response.statusCode ≠ lit "200 OK" ∧
      response.statusCode ≠ lit "429 Too Many Requests" := by
  rw [ne_eq, ne_eq, ← statusCode_eq_successOk_iff, ← statusCode_eq_tooManyRequests_iff]
  rcases request_cases outcome with ⟨rfl, -⟩ | ⟨r, hr, hreadable, hok⟩ |
    ⟨r, e, hr, hunreadable, -, hthrow⟩
  · cases hhead
  · cases hr.symm.trans hhead
    simp [rejected, failed, accepted, limited, hok, hreadable, Except.isOk, Except.toBool]
  · simp [rejected, failed, hthrow, hunreadable, Except.isOk, Except.toBool]

theorem limited_iff {outcome : Outcome} {response : Response}
    (hhead : outcome.head = some response) :
    limited outcome = true ∧ escapes outcome = false ↔
      response.statusCode = lit "429 Too Many Requests" ∧ outcome.unreadable = false ∧
        retryAfterOk response.header = true := by
  rw [← statusCode_eq_tooManyRequests_iff]
  rcases request_cases outcome with ⟨rfl, -⟩ | ⟨r, hr, hreadable, hok⟩ |
    ⟨r, e, hr, hunreadable, -, hthrow⟩
  · cases hhead
  · cases hr.symm.trans hhead
    simp only [limited, hok, escapes, hhead, hreadable, decide_eq_true_eq, Bool.false_or,
      Option.any_some, true_and]
    apply and_congr_right
    intro hstatus
    simp [hstatus]
  · simp [limited, hthrow, hunreadable]

/-- The status is read as its code exactly if a 200 to a first attempt is no
rejection, and a 429 counts as one. -/
theorem readsAs_iff (isRetrying : Bool) (outcome : Outcome) :
    readsAs isRetrying outcome = true ↔
      (carries (lit "200") outcome = true → isRetrying = false → rejected outcome = false) ∧
      (carries (lit "429") outcome = true → limited outcome = true ∧ escapes outcome = false) := by
  cases hhead : outcome.head with
  | none => simp [readsAs, carries, hhead]
  | some response =>
      have hother : hasCode (lit "200") response.statusCode = true →
          response.statusCode ≠ lit "429 Too Many Requests" := by
        rintro hcode hline
        rw [hline] at hcode
        revert hcode
        decide
      rw [carries, carries, readsAs, hhead, Option.any_some, Option.any_some, Option.all_some,
        limited_iff hhead, ← Bool.not_eq_true (rejected _), rejected_iff hhead]
      simp only [Bool.and_eq_true, Bool.or_eq_true, decide_eq_true_eq, Bool.not_eq_true',
        ← Bool.not_eq_true]
      tauto

/-- The answers that a world has seen, each with its POST. -/
def World.answered (w : World) : List (Post × Outcome) :=
  w.transport.history.posts.zip w.transport.history.outcomes

/-- A world with a client, in which the status of each answer was read as its
code. -/
structure Read (w : World) : Prop where
  connected : Connected w
  answered : ∀ pair ∈ w.answered, readsAs pair.1.isRetrying pair.2 = true

theorem answered_of_post {w : World} (h : Connected w) {phase : Phase} {task : Task}
    (hworker : w.worker = .execute phase task) (post : Post) :
    (w.transport.history.posts ++ [post]).zip w.transport.history.outcomes = w.answered := by
  have hlength := h.inv.aligned.of_taken (hand_view hworker)
  exact zip_snoc_left hlength post

theorem answered_of_answer {w : World} (h : Connected w) {phase : Phase} {post : Post}
    (hworker : w.worker = .awaiting phase post) (outcome : Outcome) :
    w.transport.history.posts.zip (w.transport.history.outcomes ++ [outcome]) =
      w.answered ++ [(post, outcome)] := by
  obtain ⟨earlier, hposts, hlength⟩ := h.inv.aligned.of_inFlight (hand_view hworker)
  change w.transport.history.posts = earlier ++ [post] at hposts
  rw [World.answered, hposts]
  exact zip_snoc_right hlength outcome

/-- The step lemma: only an answer adds to what was answered. -/
theorem answered_step {w v : World} (h : Connected w) {a : Action}
    (hstep : Transport.step w a = some v) :
    v.answered = w.answered ∨ ∃ outcome now phase post, a = .answer outcome now ∧
      w.worker = .awaiting phase post ∧ v.answered = w.answered ++ [(post, outcome)] := by
  cases move_of_step hstep with
  | wait now phase hworker hstate =>
      refine Or.inl ?_
      simp only [World.answered, performNoConnection]
      split <;> rfl
  | post now phase task post hworker hpost => exact Or.inl (answered_of_post h hworker post)
  | settle outcome now phase post hworker | limit outcome now phase post retryAfter hworker
  | reject outcome now phase post hworker | disconnect outcome now phase post hworker
  | terminate outcome now phase post retryAfter hworker =>
      exact Or.inr ⟨outcome, now, phase, post, rfl, hworker, answered_of_answer h hworker outcome⟩
  | _ => exact Or.inl rfl

theorem Read.step {w v : World} {a : Action} (h : Read w) (hreads : readsStatus w a = true)
    (hstep : Transport.step w a = some v) : Read v := by
  refine ⟨h.connected.step hstep, ?_⟩
  rcases answered_step h.connected hstep with hsame |
    ⟨outcome, now, phase, post, rfl, hworker, hmore⟩
  · rw [hsame]
    exact h.answered
  · rw [hmore]
    intro pair hpair
    rcases List.mem_append.mp hpair with hold | hnew
    · exact h.answered pair hold
    · rw [List.mem_singleton.mp hnew]
      simpa [readsStatus, hworker] using hreads

/-- An event that is sent again was not answered with a 200 or a 429. -/
theorem Read.notAgain {w : World} (h : Read w) {i j : Nat} {post later : Post} {outcome : Outcome}
    (hij : i < j) (hpost : w.transport.history.posts[i]? = some post)
    (hlater : w.transport.history.posts[j]? = some later)
    (houtcome : w.transport.history.outcomes[i]? = some outcome)
    (hcode : carries (lit "200") outcome = true ∨ carries (lit "429") outcome = true) :
    later.event ≠ post.event := by
  intro hevent
  obtain ⟨hfirst, answer, hanswer, hverdict⟩ :=
    h.connected.inv.rejected_of_again hij hpost hlater hevent
  obtain rfl : outcome = answer := Option.some.inj (houtcome.symm.trans hanswer)
  have hpair : (post, outcome) ∈ w.answered :=
    List.mem_of_getElem? (List.getElem?_zip_eq_some.mpr ⟨hpost, houtcome⟩)
  obtain ⟨h200, h429⟩ := (readsAs_iff _ _).mp (h.answered _ hpair)
  rw [verdict_eq_rejected_iff] at hverdict
  rcases hcode with hcode | hcode
  · rw [h200 hcode hfirst] at hverdict
    cases hverdict
  · simp [rejected, (h429 hcode).1] at hverdict

/-- Answers whose status is read as its code stand for what the code says: the
run lemma. -/
theorem status_respected {uninitialised : UInt64} {dsn : SentryDSN} {client : Option Client}
    {schedule : List Action} {w : World}
    (hreads : Transition.AllSteps step (fun w a => readsStatus w a = true)
      (World.start uninitialised dsn client) schedule)
    (hrun : Transition.run step (World.start uninitialised dsn client) schedule = some w) :
    StatusRespected schedule w := by
  constructor
  · cases client with
    | none =>
        have hnone : Unconnected w := Transition.run_invariant
          (fun _ _ _ h hstep => h.step hstep) (unconnected_start uninitialised dsn) hrun
        intro i j post later outcome _ hpost
        rw [hnone.posts] at hpost
        cases hpost
    | some client =>
        have hstart : Read (World.start uninitialised dsn (some client)) :=
          ⟨connected_start uninitialised dsn client, by simp [World.answered, World.start, new]⟩
        have hread : Read w := Transition.run_invariant_of_allSteps
          (fun _ _ _ h hreads hstep => h.step hreads hstep) hstart hreads hrun
        intro i j post later outcome hij hpost hlater houtcome hcode
        exact hread.notAgain hij hpost hlater houtcome hcode
  · rintro before outcome now rfl hcode
    obtain ⟨u, hbefore, hstep⟩ := Transition.run_snoc_iff.mp hrun
    have hlast := hreads.of_snoc hbefore
    cases move_of_step hstep with
    | limit => rfl
    | settle _ _ phase post hworker haccepted hlimited | reject _ _ phase post hworker _ hlimited
    | disconnect _ _ phase post hworker _ hlimited =>
        simp only [readsStatus, hworker] at hlast
        rw [(((readsAs_iff _ _).mp hlast).2 hcode).1] at hlimited
        cases hlimited
    | terminate _ _ phase post _ hworker _ _ hescapes =>
        simp only [readsStatus, hworker] at hlast
        rw [(((readsAs_iff _ _).mp hlast).2 hcode).2] at hescapes
        cases hescapes

/-- Two events with the phrases of the table: a 200 for the first and a 429 for
the second. -/
def acceptedThenLimited : List Action :=
  [.call (lit "a"), .call (lit "b"), .push 0, .push 0,
    .work 0, .work 10000000000, .work 0, .work 0, .work 0, .work 0,
    .answer (answerWith "200 OK") 0, .work 0, .work 0, .work 0, .work 0,
    .answer (answerWith "429 Too Many Requests") 0]

theorem status_respected_acceptedThenLimited :
    ∃ w, Transition.run step localWorld acceptedThenLimited = some w ∧
      StatusRespected acceptedThenLimited w := by
  have hrun : (Transition.run step localWorld acceptedThenLimited).isSome = true := by decide
  obtain ⟨w, hrun⟩ := Option.isSome_iff_exists.mp hrun
  exact ⟨w, hrun, status_respected (by decide) hrun⟩

/-- One event, answered with a 200 and another phrase. -/
def otherPhrase : List Action :=
  [.call (lit "a"), .push 0, .work 0, .work 10000000000, .work 0, .work 0, .work 0, .work 0,
    .answer (answerWith "200 Ok") 0, .work 0, .work 0, .work 0, .work 0, .work 0, .work 0]

/-- After `otherPhrase` the event is sent a second time. -/
theorem otherPhrase_sent_again :
    ¬ ∀ (schedule : List Action) (w : World),
      Transition.run step localWorld schedule = some w → StatusRespected schedule w := by
  intro hall
  have hposts : (Transition.run step localWorld otherPhrase).map (fun w =>
      (w.transport.history.posts.map fun post => post.event, w.transport.history.outcomes)) =
      some ([0, 0], [answerWith "200 Ok"]) := by decide
  obtain ⟨w, hrun, hw⟩ := Option.map_eq_some_iff.mp hposts
  obtain ⟨hevents, houtcomes⟩ := Prod.mk.inj hw
  obtain ⟨post, rest, hcons, hpost, hrest⟩ := List.map_eq_cons_iff.mp hevents
  obtain ⟨later, tail, rfl, hlater, -⟩ := List.map_eq_cons_iff.mp hrest
  apply (hall otherPhrase w hrun).notAgain 0 1 post later (answerWith "200 Ok")
  · exact Nat.zero_lt_one
  · rw [hcons]
    rfl
  · rw [hcons]
    rfl
  · rw [houtcomes]
    rfl
  · exact Or.inl (by decide)
  · rw [hlater, hpost]

end Sentry.Transport
