import SentryCpp.Transport.Delivery

/-!
The pause that a 429 asks for. `handleTooManyRequests` stores the wait and
enters `DROP_EVENTS`. The way out would be `performDropEvents`, but `perform`
does not call it, so the state is final: the worker goes on calling `perform`
and never sends again. The pause ends in exactly the runs that do not have
one, which is `pauseEnds_iff`.
-/

namespace Sentry.Transport

open StdString SimpleWeb

/-- The time of an answer that `handleTooManyRequests` works off. -/
def Action.limitedAt : Action → Option Time
  | .answer outcome now => if limited outcome && !escapes outcome then some now else none
  | _ => none

/-- When `DROP_EVENTS` was entered last. -/
def lastLimit (schedule : List Action) : Option Time :=
  (schedule.filterMap Action.limitedAt).getLast?

/-- The end of the wait that counts from `entered`. -/
def pauseEnd (w : World) (entered : Time) : Time :=
  entered + (w.transport.retryAfterMilliseconds.toNat : Int) * 1000000

structure PauseEnds (w : World) (entered : Time) : Prop where
  early : ∀ clock outcome, clock.now < pauseEnd w entered →
    ∃ u, w.transport.perform clock outcome = .ok u ∧ u.state = .dropEvents
  late : ∀ clock outcome, pauseEnd w entered ≤ clock.now →
    ∃ u, w.transport.perform clock outcome = .ok u ∧ u.state = .sendEvents
  leaves : ∃ schedule v, Transition.run step w schedule = some v ∧
    v.transport.state ≠ .dropEvents

/-- The worker holds no task and is not about to take one. -/
def Pc.idle : Pc → Bool
  | .loopTest _ | .dispatch _ | .returned => true
  | _ => false

structure Paused (w : World) : Prop where
  state : w.transport.state = .dropEvents
  idle : w.worker.idle = true

/-- No step leaves the pause. -/
theorem Paused.step {w v : World} {a : Action} (h : Paused w)
    (hstep : Transport.step w a = some v) : Paused v := by
  obtain ⟨hstate, hidle⟩ := h
  cases move_of_step hstep with
  | refused | call | push | stop => exact ⟨hstate, hidle⟩
  | test now phase pc hworker hpc =>
      obtain ⟨phase', rfl | rfl⟩ := hpc <;> exact ⟨hstate, rfl⟩
  | finish | idle => exact ⟨hstate, rfl⟩
  | wait now phase hworker hwait => simp [hstate] at hwait
  | enter now phase hworker hsend => simp [hstate] at hsend
  | _ => simp_all [Pc.idle]

/-- A step enters the pause if it answers with a 429, and by nothing else. -/
theorem pause_step {w v : World} {a : Action} (hstate : w.transport.state ≠ .dropEvents)
    (hstep : step w a = some v) :
    (a.limitedAt = none ∧ v.transport.state ≠ .dropEvents) ∨
    (a.limitedAt.isSome = true ∧ Paused v) := by
  cases move_of_step hstep with
  | wait now phase hworker hwait =>
      refine Or.inl ⟨rfl, ?_⟩
      simp only [performNoConnection, changeState]
      split <;> simp [hwait]
  | requeue now phase post => exact Or.inl ⟨rfl, hstate⟩
  | limit outcome now phase post retryAfter hworker hacc hlim hfail hesc =>
      exact Or.inr ⟨by simp [Action.limitedAt, hlim, hesc], rfl, rfl⟩
  | settle outcome now phase post hworker hacc hlim
  | reject outcome now phase post hworker hacc hlim =>
      exact Or.inl ⟨by simp [Action.limitedAt, hlim], hstate⟩
  | disconnect outcome now phase post hworker hacc hlim =>
      exact Or.inl ⟨by simp [Action.limitedAt, hlim], by simp [connectionLost, changeState]⟩
  | terminate outcome now phase post retryAfter hworker hacc hrej hesc =>
      exact Or.inl ⟨by simp [Action.limitedAt, hesc], hstate⟩
  | _ => exact Or.inl ⟨rfl, hstate⟩

theorem paused_of_run {w v : World} {schedule : List Action} (h : Paused w)
    (hrun : Transition.run step w schedule = some v) : Paused v :=
  Transition.run_invariant (fun _ _ _ h hstep => h.step hstep) h hrun

/-- After a 429 the run is paused for good, and before it is not. -/
theorem paused_iff_of_run {w v : World} {schedule : List Action}
    (hstate : w.transport.state ≠ .dropEvents)
    (hrun : Transition.run step w schedule = some v) :
    (lastLimit schedule = none ∧ v.transport.state ≠ .dropEvents) ∨
    ((lastLimit schedule).isSome = true ∧ Paused v) := by
  induction schedule generalizing w with
  | nil =>
      cases hrun
      exact Or.inl ⟨rfl, hstate⟩
  | cons a schedule ih =>
      obtain ⟨u, hstep, hrun⟩ := Transition.run_cons_iff.mp hrun
      rcases pause_step hstate hstep with ⟨hnone, hu⟩ | ⟨hsome, hu⟩
      · have hlast : lastLimit (a :: schedule) = lastLimit schedule := by
          simp [lastLimit, hnone]
        rw [hlast]
        exact ih hu hrun
      · obtain ⟨entered, hentered⟩ := Option.isSome_iff_exists.mp hsome
        exact Or.inr ⟨by simp [lastLimit, hentered], paused_of_run hu hrun⟩

theorem perform_of_paused {t : Transport} (h : t.state = .dropEvents) (clock : Readings)
    (outcome : Outcome) : t.perform clock outcome = .ok t := by
  simp [perform, h]

theorem not_pauseEnds_of_paused {w : World} (h : Paused w) (entered : Time) :
    ¬ PauseEnds w entered := by
  intro hends
  obtain ⟨u, hperform, hsend⟩ := hends.late ⟨pauseEnd w entered, 0⟩ .errorCode le_rfl
  rw [perform_of_paused h.state] at hperform
  cases hperform
  simp [h.state] at hsend

/-- In every reachable world the pause ends if and only if there was no
429. -/
theorem pauseEnds_iff {uninitialised : UInt64} {dsn : SentryDSN} {client : Option Client}
    {schedule : List Action} {w : World}
    (hrun : Transition.run step (World.start uninitialised dsn client) schedule = some w) :
    (∀ entered, w.transport.state = .dropEvents → lastLimit schedule = some entered →
      PauseEnds w entered) ↔ lastLimit schedule = none := by
  rcases paused_iff_of_run (by simp [World.start, new]) hrun with ⟨hnone, hstate⟩ | ⟨hsome, hpaused⟩
  · simp [hnone]
  · obtain ⟨entered, hentered⟩ := Option.isSome_iff_exists.mp hsome
    apply iff_of_false _ (by simp [hentered])
    intro h
    exact not_pauseEnds_of_paused hpaused entered (h entered hpaused.state hentered)

/-- `rejectedOnce` has no 429. -/
theorem pauseEnds_rejectedOnce :
    ∃ w, Transition.run step localWorld rejectedOnce = some w ∧
      ∀ entered, w.transport.state = .dropEvents → lastLimit rejectedOnce = some entered →
        PauseEnds w entered := by
  have hrun : (Transition.run step localWorld rejectedOnce).isSome = true := by decide
  obtain ⟨w, hrun⟩ := Option.isSome_iff_exists.mp hrun
  exact ⟨w, hrun, (pauseEnds_iff hrun).mpr (by decide)⟩

/-- One event, answered by a 429 without a `Retry-After`. -/
def limitedOnce : List Action :=
  [.call (lit "a"), .push 0, .work 0, .work 10000000000, .work 0, .work 0, .work 0, .work 0,
    .answer (answerWith "429 Too Many Requests") 10000000000]

/-- After `limitedOnce` no time ends the pause. -/
theorem limitedOnce_never_ends :
    ¬ ∀ (schedule : List Action) (w : World),
      Transition.run step localWorld schedule = some w →
      ∀ entered, w.transport.state = .dropEvents → lastLimit schedule = some entered →
        PauseEnds w entered := by
  intro h
  have hpaused : (Transition.run step localWorld limitedOnce).map
      (fun w => (w.transport.state, w.worker)) = some (.dropEvents, .loopTest .serving) := by
    decide
  obtain ⟨w, hrun, hw⟩ := Option.map_eq_some_iff.mp hpaused
  obtain ⟨hstate, hworker⟩ := Prod.mk.inj hw
  exact not_pauseEnds_of_paused ⟨hstate, by simp [hworker, Pc.idle]⟩ 10000000000
    (h limitedOnce w hrun 10000000000 hstate (by decide))

end Sentry.Transport
