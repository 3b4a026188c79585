import SentryCpp.Transport.Delivery

/-!
Where the events are. Before `stop` an event that was pushed is held by the
transport, or its last POST had an outcome. Four outcomes close an event: a
200, a 429, a second rejection, and a request that throws. The last one is the
loss that `accounted_iff` singles out: the handler of `sendPost` changes the
state and keeps nothing of the event.
-/

namespace Sentry.Transport

open StdString SimpleWeb RetryQueue

/-- The POSTs of the event whose outcomes satisfy `test`. -/
def History.countPosts (h : History) (event : Nat) (test : Post → Outcome → Bool) : Nat :=
  (h.posts.zip h.outcomes).countP fun p => p.1.event = event && test p.1 p.2

/-- How often the event is found in the places that account for it: the queue
and the worker's hand, the POSTs answered by a 200, those answered by a 429,
and the retries that were rejected. -/
def World.accounted (w : World) (event : Nat) : Nat :=
  w.view.held.count event +
    w.transport.history.countPosts event (fun _ outcome => accepted outcome) +
    w.transport.history.countPosts event (fun _ outcome => limited outcome) +
    w.transport.history.countPosts event (fun post outcome => post.isRetrying && rejected outcome)

def Action.outcome? : Action → Option Outcome
  | .answer outcome _ => some outcome
  | _ => none

/-- An outcome is of exactly one of the four kinds. -/
theorem outcome_kinds (outcome : Outcome) :
    (accepted outcome = true ∧ limited outcome = false ∧ failed outcome = false) ∨
    (accepted outcome = false ∧ limited outcome = true ∧ failed outcome = false) ∨
    (accepted outcome = false ∧ limited outcome = false ∧ failed outcome = true) ∨
    (accepted outcome = false ∧ limited outcome = false ∧ failed outcome = false) := by
  unfold accepted limited failed
  cases request outcome with
  | error e => simp [Except.isOk, Except.toBool]
  | ok r =>
      by_cases h200 : SimpleWeb.statusCode r.statusCode = .successOk
      · simp [h200, Except.isOk, Except.toBool]
      · simp [h200, Except.isOk, Except.toBool]
        tauto

/-- What closes an event is one of the three outcomes that account for it, or
a failure. -/
private theorem countP_closed (event : Nat) (pairs : List (Post × Outcome)) :
    ((pairs.filter fun p => p.1.isRetrying || verdict p.2 ≠ .rejected).countP
        fun p => p.1.event = event) =
      (pairs.countP fun p => p.1.event = event && accepted p.2) +
      (pairs.countP fun p => p.1.event = event && limited p.2) +
      (pairs.countP fun p => p.1.event = event && (p.1.isRetrying && rejected p.2)) +
      (pairs.countP fun p => p.1.event = event && failed p.2) := by
  induction pairs with
  | nil => rfl
  | cons p pairs ih =>
      obtain ⟨post, outcome⟩ := p
      simp only [List.countP_filter] at ih ⊢
      simp only [List.countP_cons, ih]
      have hverdict := verdict_eq_rejected_iff outcome
      rcases outcome_kinds outcome with
        ⟨hacc, hlim, hfail⟩ | ⟨hacc, hlim, hfail⟩ | ⟨hacc, hlim, hfail⟩ | ⟨hacc, hlim, hfail⟩ <;>
      simp only [rejected, hacc, hlim, hfail] at hverdict ⊢ <;>
      by_cases hevent : post.event = event <;> cases post.isRetrying <;>
      simp [hevent, hverdict] <;> omega

theorem accounted_add_failed {w : World} (h : Conserved verdict w.view) (event : Nat) :
    w.accounted event + w.transport.history.countPosts event (fun _ outcome => failed outcome) =
      if event < w.transport.history.pushed.length then 1 else 0 := by
  have htotal := h.held_or_closed event
  have hclosed := countP_closed event
    (w.transport.history.posts.zip w.transport.history.outcomes)
  have hsum : w.accounted event +
      w.transport.history.countPosts event (fun _ outcome => failed outcome) =
      w.view.held.count event + (closed verdict w.view.attempts w.view.answers).countP
        fun p => p.1.event = event := by
    simp only [closed, World.accounted, History.countPosts, World.view, hclosed]
    omega
  rw [hsum, htotal]
  rfl

/-- The invariant of the runs before `stop`. -/
structure Unstopped (w : World) : Prop where
  connected : Connected w
  running : w.transport.shouldStop = false
  conserved : Conserved verdict w.view

theorem shouldStop_step {w v : World} {a : Action} (ha : a ≠ .stop) (hstep : step w a = some v) :
    v.transport.shouldStop = w.transport.shouldStop := by
  cases move_of_step hstep with
  | stop => exact (ha rfl).elim
  | wait =>
      simp only [performNoConnection]
      split <;> rfl
  | _ => rfl

theorem Unstopped.step {w v : World} {a : Action} (h : Unstopped w) (ha : a ≠ .stop)
    (hstep : Transport.step w a = some v) : Unstopped v := by
  refine ⟨h.connected.step hstep, (shouldStop_step ha hstep).trans h.running, ?_⟩
  rcases view_step h.connected.hasClient hstep with heq | hqueue
  · exact heq ▸ h.conserved
  · exact h.conserved.step h.connected.inv (hqueue.mono (by simp [h.running]))

theorem unstopped_start (uninitialised : UInt64) (dsn : SentryDSN) (client : Client) :
    Unstopped (World.start uninitialised dsn (some client)) :=
  ⟨connected_start uninitialised dsn client, rfl,
    view_start uninitialised dsn (some client) ▸ conserved_initial verdict⟩

/-- The recorded outcomes are the answers of the schedule. -/
theorem outcomes_of_run {w v : World} {schedule : List Action}
    (hrun : Transition.run step w schedule = some v) :
    v.transport.history.outcomes =
      w.transport.history.outcomes ++ schedule.filterMap Action.outcome? := by
  induction schedule generalizing w with
  | nil =>
      cases hrun
      simp
  | cons a schedule ih =>
      obtain ⟨u, hstep, hrun⟩ := Transition.run_cons_iff.mp hrun
      have hone : u.transport.history.outcomes =
          w.transport.history.outcomes ++ a.outcome?.toList := by
        cases move_of_step hstep with
        | wait =>
            simp only [performNoConnection]
            split <;> simp [changeState, Action.outcome?]
        | requeue => simp [Transport.push, RetryQueue.Attempt.retryJob, Action.outcome?]
        | _ => simp [Transport.push, recordPost, recordOutcome, connectionLost, changeState,
            Action.outcome?]
      rw [ih hrun, hone, List.append_assoc]
      cases houtcome : a.outcome? <;> simp [houtcome]

private theorem exists_failed_post {w : World} (h : Connected w) {outcome : Outcome}
    (hmem : outcome ∈ w.transport.history.outcomes) (hfailed : failed outcome = true) :
    ∃ event, 0 < w.transport.history.countPosts event fun _ outcome => failed outcome := by
  obtain ⟨i, hi⟩ := List.mem_iff_getElem?.mp hmem
  have hlt : i < w.transport.history.posts.length := by
    have hlen : w.transport.history.outcomes.length ≤ w.transport.history.posts.length :=
      h.inv.answers_length_le
    have := (List.getElem?_eq_some_iff.mp hi).1
    omega
  obtain ⟨post, hpost⟩ : ∃ post, w.transport.history.posts[i]? = some post :=
    ⟨_, List.getElem?_eq_getElem hlt⟩
  refine ⟨post.event, List.countP_pos_iff.mpr ⟨(post, outcome), ?_, by simp [hfailed]⟩⟩
  exact List.mem_iff_getElem?.mpr ⟨i, List.getElem?_zip_eq_some.mpr ⟨hpost, hi⟩⟩

/-- Before `stop` every pushed event is in exactly one of the places, if and
only if no request has thrown. -/
theorem accounted_iff {uninitialised : UInt64} {dsn : SentryDSN} {client : Client}
    {schedule : List Action} {w : World} (hstop : .stop ∉ schedule)
    (hrun : Transition.run step (World.start uninitialised dsn (some client)) schedule = some w) :
    (∀ event < w.transport.history.pushed.length, w.accounted event = 1) ↔
      ∀ outcome ∈ schedule.filterMap Action.outcome?, failed outcome = false := by
  have hw : Unstopped w := Transition.run_invariant_of_allSteps
    (fun _ _ _ h ha hstep => h.step ha hstep) (unstopped_start uninitialised dsn client)
    (Transition.allSteps_of_mem (fun a ha => by rintro rfl; exact hstop ha) _) hrun
  have houtcomes : w.transport.history.outcomes = schedule.filterMap Action.outcome? :=
    outcomes_of_run hrun
  have hsum := accounted_add_failed hw.conserved
  rw [← houtcomes]
  constructor
  · intro hall outcome hmem
    by_contra hne
    obtain ⟨event, hpos⟩ := exists_failed_post hw.connected hmem (by simpa using hne)
    have hevent := hsum event
    by_cases hlt : event < w.transport.history.pushed.length
    · rw [if_pos hlt, hall event hlt] at hevent
      omega
    · rw [if_neg hlt] at hevent
      omega
  · intro hnone event hlt
    have hzero : w.transport.history.countPosts event (fun _ outcome => failed outcome) = 0 := by
      refine List.countP_eq_zero.mpr ?_
      rintro ⟨post, outcome⟩ hmem
      simp [hnone outcome (List.of_mem_zip hmem).2]
    have hevent := hsum event
    rw [if_pos hlt, hzero] at hevent
    exact hevent

/-- In `rejectedOnce` every request returns a response. -/
theorem accounted_rejectedOnce :
    ∃ w, Transition.run step localWorld rejectedOnce = some w ∧
      ∀ event < w.transport.history.pushed.length, w.accounted event = 1 := by
  have hrun : (Transition.run step localWorld rejectedOnce).isSome = true := by decide
  obtain ⟨w, hrun⟩ := Option.isSome_iff_exists.mp hrun
  exact ⟨w, hrun, (accounted_iff (by decide) hrun).mpr (by decide)⟩

/-- One event, and a server that cannot be reached. -/
def lostConnection : List Action :=
  [.call (lit "a"), .push 0, .work 0, .work 10000000000, .work 0, .work 0, .work 0, .work 0,
    .answer .errorCode 10000000000]

/-- After `lostConnection` the event is nowhere. -/
theorem lostConnection_loses :
    ¬ ∀ (schedule : List Action) (w : World), .stop ∉ schedule →
      Transition.run step localWorld schedule = some w →
      ∀ event < w.transport.history.pushed.length, w.accounted event = 1 := by
  intro h
  have hlost : (Transition.run step localWorld lostConnection).map
      (fun w => (w.transport.history.pushed.length, w.accounted 0)) = some (1, 0) := by decide
  obtain ⟨w, hrun, hw⟩ := Option.map_eq_some_iff.mp hlost
  obtain ⟨hlen, hzero⟩ := Prod.mk.inj hw
  have hone := h lostConnection w (by decide) hrun 0 (by omega)
  omega

end Sentry.Transport
