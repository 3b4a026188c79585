import SentryCpp.Foundation.Transition
import SentryCpp.Transport.Answer

/-!
The transport with its threads. Any number of callers of `sendEvent`, one call
of `stop` at any time, and the worker that executes `run`. A schedule picks the
thread that moves next, the reading of its clock and, for a POST in flight,
the outcome.

The worker's steps are cut wherever another thread can come in between: the
test of `m_shouldStop`, the test `m_tasks.empty()` in front of the lock, the
locked pop, the POST, its outcome, and the two halves of `addActionToQueue`. A
caller's step is the test of `m_shouldStop` or the locked push.

`move_of_step` lists what a step can do. Every invariant is proved from this
list and never from the body of `step`. `run_of_perform` says that the steps
of the worker, taken without interruption, compute `perform`.
-/

namespace Sentry.Transport

open StdString SimpleWeb

/-- The loop of `run` that the worker is in. -/
inductive Phase where
  | serving
  | draining
  deriving DecidableEq, Repr

/-- Where the worker stands. It is `terminated` once something other than a
`system_error` has left the client. -/
inductive Pc where
  | loopTest (phase : Phase)
  | dispatch (phase : Phase)
  | lockQueue (phase : Phase)
  | execute (phase : Phase) (task : Task)
  | awaiting (phase : Phase) (post : Post)
  | retryTest (phase : Phase) (post : Post)
  | retryPush (phase : Phase) (post : Post)
  | returned
  | aborted
  | terminated
  deriving DecidableEq, Repr

/-- `callers` are the calls of `sendEvent` that have seen `m_shouldStop` clear
and have not pushed yet. -/
structure World where
  transport : Transport
  worker : Pc
  callers : List Bytes
  deriving DecidableEq, Repr

inductive Action where
  | call (contents : Bytes)
  | push (caller : Nat)
  | stop
  | work (now : Time)
  | answer (outcome : Outcome) (now : Time)
  deriving DecidableEq, Repr

/-- The world after `start`, with whatever client and DSN the transport has. -/
def World.start (uninitialised : UInt64) (dsn : SentryDSN) (client : Option Client) : World where
  transport := { Transport.new uninitialised with
    dsnStruct := dsn, httpClient := client, running := true }
  worker := .loopTest .serving
  callers := []

/-- The POST that a closure makes. -/
def postOf (t : Transport) (task : Task) (now : Time) : Option Post :=
  match task with
  | .first event contents =>
      t.httpClient.map fun _ => ⟨event, false, contents, t.createHeader now⟩
  | .retry event contents header => some ⟨event, true, contents, header⟩

def workStep (w : World) (now : Time) : Option World :=
  match w.worker with
  | .loopTest .serving =>
      some { w with
        worker := if !w.transport.shouldStop then .dispatch .serving else .loopTest .draining }
  | .loopTest .draining =>
      if !w.transport.tasks.isEmpty then some { w with worker := .dispatch .draining }
      else some { w with
        transport := { w.transport with running := false }, worker := .returned }
  | .dispatch phase =>
      match w.transport.state with
      | .noConnection =>
          some { w with
            transport := w.transport.performNoConnection now, worker := .loopTest phase }
      | .sendEvents =>
          some { w with
            worker := if w.transport.tasks.isEmpty then .loopTest phase else .lockQueue phase }
      | .dropEvents => some { w with worker := .loopTest phase }
  | .lockQueue phase =>
      match w.transport.tasks with
      | [] => some { w with worker := .aborted }
      | front :: rest =>
          some { w with
            transport := { w.transport with tasks := rest }, worker := .execute phase front }
  | .execute phase task =>
      match postOf w.transport task now with
      | none => some { w with worker := .loopTest phase }
      | some post =>
          some { w with
            transport := w.transport.recordPost post, worker := .awaiting phase post }
  | .retryTest phase post =>
      some { w with
        worker := if !w.transport.shouldStop then .retryPush phase post else .loopTest phase }
  | .retryPush phase post =>
      some { w with transport := w.transport.push post.retryJob, worker := .loopTest phase }
  | .awaiting .. | .returned | .aborted | .terminated => none

/-- The POST in flight has its outcome: the rest of `sendPost`, up to the two
halves of `sendEventRetry`. -/
def answerStep (w : World) (phase : Phase) (post : Post) (outcome : Outcome) (now : Time) :
    World :=
  match (w.transport.recordOutcome outcome).exchange outcome with
  | (.ok ok, t) =>
      { w with
        transport := t
        worker :=
          if !ok && !post.isRetrying then .retryTest phase post else .loopTest phase }
  | (.error thrown, t) =>
      if thrown = .systemError then
        { w with transport := t.connectionLost now, worker := .loopTest phase }
      else { w with transport := t, worker := .terminated }

def step (w : World) : Action → Option World
  | .call contents =>
      if w.transport.shouldStop then some w
      else some { w with callers := w.callers ++ [contents] }
  | .push caller =>
      (w.callers[caller]?).map fun contents =>
        { w with
          transport := w.transport.push (.first w.transport.history.pushed.length contents)
          callers := w.callers.eraseIdx caller }
  | .stop => some { w with transport := { w.transport with shouldStop := true } }
  | .work now => workStep w now
  | .answer outcome now =>
      match w.worker with
      | .awaiting phase post => some (answerStep w phase post outcome now)
      | _ => none

/-- What a step can do. The last five constructors are the cases of
`exchange_cases`. -/
inductive Move (w : World) : Action → World → Prop where
  | refused (contents : Bytes) (hstop : w.transport.shouldStop = true) :
      Move w (.call contents) w
  | call (contents : Bytes) (hstop : w.transport.shouldStop = false) :
      Move w (.call contents) { w with callers := w.callers ++ [contents] }
  | push (caller : Nat) (contents : Bytes) (hcaller : w.callers[caller]? = some contents) :
      Move w (.push caller) { w with
        transport := w.transport.push (.first w.transport.history.pushed.length contents)
        callers := w.callers.eraseIdx caller }
  | stop : Move w .stop { w with transport := { w.transport with shouldStop := true } }
  | test (now : Time) (phase : Phase) (pc : Pc) (hworker : w.worker = .loopTest phase)
      (hpc : ∃ phase', pc = .loopTest phase' ∨ pc = .dispatch phase') :
      Move w (.work now) { w with worker := pc }
  | finish (now : Time) (hworker : w.worker = .loopTest .draining) :
      Move w (.work now) { w with
        transport := { w.transport with running := false }, worker := .returned }
  | wait (now : Time) (phase : Phase) (hworker : w.worker = .dispatch phase)
      (hstate : w.transport.state = .noConnection) :
      Move w (.work now) { w with
        transport := w.transport.performNoConnection now, worker := .loopTest phase }
  | idle (now : Time) (phase : Phase) (hworker : w.worker = .dispatch phase) :
      Move w (.work now) { w with worker := .loopTest phase }
  | enter (now : Time) (phase : Phase) (hworker : w.worker = .dispatch phase)
      (hstate : w.transport.state = .sendEvents) (htasks : w.transport.tasks ≠ []) :
      Move w (.work now) { w with worker := .lockQueue phase }
  | abort (now : Time) (phase : Phase) (hworker : w.worker = .lockQueue phase)
      (htasks : w.transport.tasks = []) : Move w (.work now) { w with worker := .aborted }
  | take (now : Time) (phase : Phase) (front : Task) (rest : List Task)
      (hworker : w.worker = .lockQueue phase) (htasks : w.transport.tasks = front :: rest) :
      Move w (.work now) { w with
        transport := { w.transport with tasks := rest }, worker := .execute phase front }
  | discard (now : Time) (phase : Phase) (task : Task) (hworker : w.worker = .execute phase task)
      (hpost : postOf w.transport task now = none) :
      Move w (.work now) { w with worker := .loopTest phase }
  | post (now : Time) (phase : Phase) (task : Task) (post : Post)
      (hworker : w.worker = .execute phase task)
      (hpost : postOf w.transport task now = some post) :
      Move w (.work now) { w with
        transport := w.transport.recordPost post, worker := .awaiting phase post }
  | retry (now : Time) (phase : Phase) (post : Post) (hworker : w.worker = .retryTest phase post)
      (hstop : w.transport.shouldStop = false) :
      Move w (.work now) { w with worker := .retryPush phase post }
  | giveUp (now : Time) (phase : Phase) (post : Post)
      (hworker : w.worker = .retryTest phase post) (hstop : w.transport.shouldStop = true) :
      Move w (.work now) { w with worker := .loopTest phase }
  | requeue (now : Time) (phase : Phase) (post : Post)
      (hworker : w.worker = .retryPush phase post) :
      Move w (.work now) { w with
        transport := w.transport.push post.retryJob, worker := .loopTest phase }
  | settle (outcome : Outcome) (now : Time) (phase : Phase) (post : Post)
      (hworker : w.worker = .awaiting phase post) (haccepted : accepted outcome = true)
      (hlimited : limited outcome = false) (hfailed : failed outcome = false)
      (hescapes : escapes outcome = false) :
      Move w (.answer outcome now) { w with
        transport := w.transport.recordOutcome outcome, worker := .loopTest phase }
  | limit (outcome : Outcome) (now : Time) (phase : Phase) (post : Post) (retryAfter : UInt64)
      (hworker : w.worker = .awaiting phase post) (haccepted : accepted outcome = false)
      (hlimited : limited outcome = true) (hfailed : failed outcome = false)
      (hescapes : escapes outcome = false) :
      Move w (.answer outcome now) { w with
        transport := { w.transport.recordOutcome outcome with
          retryAfterMilliseconds := retryAfter, state := .dropEvents }
        worker := .loopTest phase }
  | reject (outcome : Outcome) (now : Time) (phase : Phase) (post : Post)
      (hworker : w.worker = .awaiting phase post) (haccepted : accepted outcome = false)
      (hlimited : limited outcome = false) (hfailed : failed outcome = false)
      (hescapes : escapes outcome = false) :
      Move w (.answer outcome now) { w with
        transport := w.transport.recordOutcome outcome
        worker := if post.isRetrying then .loopTest phase else .retryTest phase post }
  | disconnect (outcome : Outcome) (now : Time) (phase : Phase) (post : Post)
      (hworker : w.worker = .awaiting phase post) (haccepted : accepted outcome = false)
      (hlimited : limited outcome = false) (hfailed : failed outcome = true)
      (hescapes : escapes outcome = false) :
      Move w (.answer outcome now) { w with
        transport := (w.transport.recordOutcome outcome).connectionLost now
        worker := .loopTest phase }
  | terminate (outcome : Outcome) (now : Time) (phase : Phase) (post : Post)
      (retryAfter : UInt64) (hworker : w.worker = .awaiting phase post)
      (haccepted : accepted outcome = false) (hrejected : rejected outcome = false)
      (hescapes : escapes outcome = true) :
      Move w (.answer outcome now) { w with
        transport := { w.transport.recordOutcome outcome with
          retryAfterMilliseconds := retryAfter }
        worker := .terminated }

private theorem move_of_workStep {w v : World} {now : Time} (h : workStep w now = some v) :
    Move w (.work now) v := by
  unfold workStep at h
  cases hworker : w.worker with
  | loopTest phase =>
      cases phase with
      | serving =>
          simp only [hworker, Option.some.injEq] at h
          subst v
          exact .test now _ _ hworker (by split <;> simp)
      | draining =>
          by_cases htasks : w.transport.tasks.isEmpty = true
          · simp only [hworker, htasks, Bool.not_true, Bool.false_eq_true, if_false,
              Option.some.injEq] at h
            subst v
            exact .finish now hworker
          · simp only [hworker, htasks, Bool.not_false, if_true, Option.some.injEq] at h
            subst v
            exact .test now _ _ hworker ⟨.draining, by simp⟩
  | dispatch phase =>
      cases hstate : w.transport.state with
      | noConnection =>
          simp only [hworker, hstate, Option.some.injEq] at h
          subst v
          exact .wait now phase hworker hstate
      | sendEvents =>
          by_cases htasks : w.transport.tasks = []
          · simp only [hworker, hstate, htasks, List.isEmpty_nil, if_true,
              Option.some.injEq] at h
            subst v
            exact .idle now phase hworker
          · simp only [hworker, hstate, List.isEmpty_iff, htasks, if_false,
              Option.some.injEq] at h
            subst v
            exact .enter now phase hworker hstate htasks
      | dropEvents =>
          simp only [hworker, hstate, Option.some.injEq] at h
          subst v
          exact .idle now phase hworker
  | lockQueue phase =>
      cases htasks : w.transport.tasks with
      | nil =>
          simp only [hworker, htasks, Option.some.injEq] at h
          subst v
          exact .abort now phase hworker htasks
      | cons front rest =>
          simp only [hworker, htasks, Option.some.injEq] at h
          subst v
          exact .take now phase front rest hworker htasks
  | execute phase task =>
      cases hpost : postOf w.transport task now with
      | none =>
          simp only [hworker, hpost, Option.some.injEq] at h
          subst v
          exact .discard now phase task hworker hpost
      | some post =>
          simp only [hworker, hpost, Option.some.injEq] at h
          subst v
          exact .post now phase task post hworker hpost
  | retryTest phase post =>
      simp only [hworker, Option.some.injEq] at h
      subst v
      cases hstop : w.transport.shouldStop with
      | true => exact .giveUp now phase post hworker hstop
      | false => exact .retry now phase post hworker hstop
  | retryPush phase post =>
      simp only [hworker, Option.some.injEq] at h
      subst v
      exact .requeue now phase post hworker
  | awaiting | returned | aborted | terminated => simp [hworker] at h

private theorem move_of_answerStep {w : World} {phase : Phase} {post : Post}
    (hworker : w.worker = .awaiting phase post) (outcome : Outcome) (now : Time) :
    Move w (.answer outcome now) (answerStep w phase post outcome now) := by
  unfold answerStep
  rcases exchange_cases (w.transport.recordOutcome outcome) outcome with
    ⟨hacc, hlim, hfail, hesc, h⟩ | ⟨hacc, hlim, hfail, hesc, wait, h⟩ |
    ⟨hacc, hlim, hfail, hesc, h⟩ | ⟨hacc, hlim, hfail, hesc, h⟩ |
    ⟨hacc, hrej, hesc, thrown, wait, hne, h⟩
  · simp only [h]
    exact .settle outcome now phase post hworker hacc hlim hfail hesc
  · simp only [h]
    exact .limit outcome now phase post wait hworker hacc hlim hfail hesc
  · simp only [h]
    have hif : (if (!false && !post.isRetrying) = true then Pc.retryTest phase post
        else .loopTest phase) =
        if post.isRetrying = true then .loopTest phase else .retryTest phase post := by
      cases post.isRetrying <;> rfl
    rw [hif]
    exact .reject outcome now phase post hworker hacc hlim hfail hesc
  · simp only [h, if_true]
    exact .disconnect outcome now phase post hworker hacc hlim hfail hesc
  · simp only [h, if_neg hne]
    exact .terminate outcome now phase post wait hworker hacc hrej hesc

theorem move_of_step {w v : World} {a : Action} (h : step w a = some v) : Move w a v := by
  cases a with
  | call contents =>
      cases hstop : w.transport.shouldStop with
      | true =>
          simp only [step, hstop, if_true, Option.some.injEq] at h
          subst v
          exact .refused contents hstop
      | false =>
          simp only [step, hstop, Bool.false_eq_true, if_false, Option.some.injEq] at h
          subst v
          exact .call contents hstop
  | push caller =>
      obtain ⟨contents, hcaller, rfl⟩ := Option.map_eq_some_iff.mp h
      exact .push caller contents hcaller
  | stop =>
      cases h
      exact .stop
  | work now => exact move_of_workStep h
  | answer outcome now =>
      cases hworker : w.worker with
      | awaiting phase post =>
          simp only [step, hworker, Option.some.injEq] at h
          subst v
          exact move_of_answerStep hworker outcome now
      | _ => simp [step, hworker] at h

theorem step_answer {w : World} {phase : Phase} {post : Post}
    (hworker : w.worker = .awaiting phase post) (outcome : Outcome) (now : Time) :
    step w (.answer outcome now) = some (answerStep w phase post outcome now) := by
  simp [step, hworker]

/-- The rest of a call of `perform` from the outcome of its POST on, when no
other thread comes in between. -/
theorem run_of_sendPost {w : World} {phase : Phase} {post : Post}
    (hworker : w.worker = .awaiting phase post) (outcome : Outcome) (now : Time)
    {s : Transport} (hs : w.transport = s.recordPost post) :
    (∀ t, s.sendPost post outcome now = .ok t → ∃ schedule,
      Transition.run step w schedule =
        some { w with transport := t, worker := .loopTest phase }) ∧
    (∀ e, s.sendPost post outcome now = .error e → ∃ schedule v,
      Transition.run step w schedule = some v ∧ v.worker = .terminated) := by
  have hstep := step_answer hworker outcome now
  simp only [sendPost, ← hs]
  unfold answerStep at hstep
  rcases exchange_cases (w.transport.recordOutcome outcome) outcome with
    ⟨_, _, _, _, h⟩ | ⟨_, _, _, _, wait, h⟩ | ⟨_, _, _, _, h⟩ | ⟨_, _, _, _, h⟩ |
    ⟨_, _, _, thrown, wait, hne, h⟩
  · simp only [h, Bool.not_true, Bool.false_and, Bool.false_eq_true, if_false] at hstep ⊢
    refine ⟨fun t ht => ⟨[.answer outcome now], ?_⟩, by simp⟩
    cases ht
    exact Transition.run_cons_iff.mpr ⟨_, hstep, rfl⟩
  · simp only [h, Bool.not_true, Bool.false_and, Bool.false_eq_true, if_false] at hstep ⊢
    refine ⟨fun t ht => ⟨[.answer outcome now], ?_⟩, by simp⟩
    cases ht
    exact Transition.run_cons_iff.mpr ⟨_, hstep, rfl⟩
  · cases hretrying : post.isRetrying with
    | true =>
        simp only [h, hretrying, Bool.not_true, Bool.and_false, Bool.false_eq_true,
          if_false] at hstep ⊢
        refine ⟨?_, by simp⟩
        intro t ht
        cases ht
        refine ⟨[.answer outcome now], ?_⟩
        exact Transition.run_cons_iff.mpr ⟨_, hstep, rfl⟩
    | false =>
        simp only [h, hretrying, Bool.not_false, Bool.and_true, if_true] at hstep ⊢
        refine ⟨?_, by simp⟩
        intro t ht
        cases ht
        cases hstop : (w.transport.recordOutcome outcome).shouldStop with
        | true =>
            have htest : step { w with
                transport := w.transport.recordOutcome outcome
                worker := .retryTest phase post } (.work now) = some { w with
                transport := w.transport.recordOutcome outcome
                worker := .loopTest phase } := by
              simp [step, workStep, hstop]
            refine ⟨[.answer outcome now, .work now], ?_⟩
            simp only [sendEventRetry, addActionToQueue, hstop]
            exact Transition.run_cons_iff.mpr
              ⟨_, hstep, Transition.run_cons_iff.mpr ⟨_, htest, rfl⟩⟩
        | false =>
            have htest : step { w with
                transport := w.transport.recordOutcome outcome
                worker := .retryTest phase post } (.work now) = some { w with
                transport := w.transport.recordOutcome outcome
                worker := .retryPush phase post } := by
              simp [step, workStep, hstop]
            refine ⟨[.answer outcome now, .work now, .work now], ?_⟩
            simp only [sendEventRetry, addActionToQueue, hstop]
            exact Transition.run_cons_iff.mpr
              ⟨_, hstep, Transition.run_cons_iff.mpr ⟨_, htest, rfl⟩⟩
  · simp only [h, if_true] at hstep ⊢
    refine ⟨fun t ht => ⟨[.answer outcome now], ?_⟩, by simp⟩
    cases ht
    exact Transition.run_cons_iff.mpr ⟨_, hstep, rfl⟩
  · simp only [h, if_neg hne] at hstep ⊢
    exact ⟨by simp, fun _ _ => ⟨[.answer outcome now], _,
      Transition.run_cons_iff.mpr ⟨_, hstep, rfl⟩, rfl⟩⟩

theorem runTask_eq (t : Transport) (task : Task) (clock : Readings) (outcome : Outcome) :
    t.runTask task clock outcome =
      match postOf t task clock.now with
      | none => .ok t
      | some post => t.sendPost post outcome clock.failed := by
  cases task with
  | first event contents =>
      cases hclient : t.httpClient <;> simp [runTask, sendPostContent, postOf, hclient]
  | retry event contents header => rfl

/-- A call of `perform` is what the worker's steps do when no other thread
comes in between. -/
theorem run_of_perform {w : World} {phase : Phase} (hworker : w.worker = .dispatch phase)
    (clock : Readings) (outcome : Outcome) :
    (∀ t, w.transport.perform clock outcome = .ok t → ∃ schedule,
      Transition.run step w schedule =
        some { w with transport := t, worker := .loopTest phase }) ∧
    (∀ e, w.transport.perform clock outcome = .error e → ∃ schedule v,
      Transition.run step w schedule = some v ∧ v.worker = .terminated) := by
  unfold perform
  cases hstate : w.transport.state with
  | noConnection =>
      refine ⟨fun t ht => ⟨[.work clock.now], ?_⟩, by simp⟩
      cases ht
      simp [Transition.run, step, workStep, hworker, hstate]
  | dropEvents =>
      refine ⟨fun t ht => ⟨[.work clock.now], ?_⟩, by simp⟩
      cases ht
      simp [Transition.run, step, workStep, hworker, hstate]
  | sendEvents =>
      cases htasks : w.transport.tasks with
      | nil =>
          simp only [performSendEvents, htasks]
          refine ⟨fun t ht => ⟨[.work clock.now], ?_⟩, by simp⟩
          cases ht
          simp [Transition.run, step, workStep, hworker, hstate, htasks]
      | cons front rest =>
          have htake : Transition.run step w [.work clock.now, .work clock.now] = some { w with
              transport := { w.transport with tasks := rest }
              worker := .execute phase front } := by
            simp [Transition.run, step, workStep, hworker, hstate, htasks]
          simp only [performSendEvents, htasks, runTask_eq]
          cases hpost : postOf { w.transport with tasks := rest } front clock.now with
          | none =>
              refine ⟨fun t ht => ⟨[.work clock.now, .work clock.now] ++ [.work clock.now], ?_⟩,
                by simp⟩
              cases ht
              refine Transition.run_snoc_iff.mpr ⟨_, htake, ?_⟩
              simp [step, workStep, hpost]
          | some post =>
              have hexecute : Transition.run step w
                  ([.work clock.now, .work clock.now] ++ [.work clock.now]) = some { w with
                    transport := { w.transport with tasks := rest }.recordPost post
                    worker := .awaiting phase post } := by
                refine Transition.run_snoc_iff.mpr ⟨_, htake, ?_⟩
                simp [step, workStep, hpost]
              obtain ⟨hok, herror⟩ := run_of_sendPost (w := { w with
                transport := { w.transport with tasks := rest }.recordPost post
                worker := .awaiting phase post }) rfl outcome clock.failed rfl
              constructor
              · intro t ht
                obtain ⟨schedule, hrun⟩ := hok t ht
                exact ⟨_ ++ schedule, Transition.run_append_iff.mpr ⟨_, hexecute, hrun⟩⟩
              · intro e he
                obtain ⟨schedule, v, hrun, hv⟩ := herror e he
                exact ⟨_ ++ schedule, v, Transition.run_append_iff.mpr ⟨_, hexecute, hrun⟩, hv⟩

end Sentry.Transport
