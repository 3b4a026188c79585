import SentryCpp.Transport.Delivery

/-!
The exit of `run`. The worker leaves the second loop when it sees the queue
empty, and it is in that loop only after `stop`. A caller of
`addActionToQueue` tests `m_shouldStop` in front of the lock, so one that has
seen the flag clear may still push when the worker has gone. From the exit on
the queue and the callers that are still to push hold the same number of
events for good: the queue stays empty if and only if no caller stood between
its test and its push at the exit.
-/

namespace Sentry.Transport

open StdString SimpleWeb

/-- The worker is past its last test of `m_shouldStop`. -/
def Pc.leaving : Pc → Bool
  | .loopTest phase | .dispatch phase | .lockQueue phase | .execute phase _
  | .awaiting phase _ | .retryTest phase _ | .retryPush phase _ => phase == .draining
  | .returned => true
  | .aborted | .terminated => false

/-- The worker leaves the first loop for `m_shouldStop` alone. -/
def LeavesOnStop (w : World) : Prop :=
  w.worker.leaving = true → w.transport.shouldStop = true

/-- No caller stands between its test of `m_shouldStop` and its push when the
worker makes the emptiness test that ends `run`. -/
def ExitsAlone (w : World) : Action → Prop
  | .work _ => w.worker = .loopTest .draining → w.transport.tasks = [] → w.callers = []
  | .call _ | .push _ | .stop | .answer .. => True

instance : (w : World) → (a : Action) → Decidable (ExitsAlone w a)
  | w, .work _ => inferInstanceAs
      (Decidable (w.worker = .loopTest .draining → w.transport.tasks = [] → w.callers = []))
  | _, .call _ | _, .push _ | _, .stop | _, .answer .. => .isTrue trivial

/-- The events in the queue and those that are still to be pushed. -/
def World.unsent (w : World) : Nat := w.transport.tasks.length + w.callers.length

/-- The two tests that a loop of `run` can make. -/
theorem workStep_loopTest {w v : World} {phase : Phase} {now : Time}
    (hworker : w.worker = .loopTest phase) (hstep : workStep w now = some v) :
    (v = { w with worker := .dispatch phase } ∧
      (phase = .serving → w.transport.shouldStop = false) ∧
      (phase = .draining → w.transport.tasks ≠ [])) ∨
    (phase = .serving ∧ w.transport.shouldStop = true ∧
      v = { w with worker := .loopTest .draining }) ∨
    (phase = .draining ∧ w.transport.tasks = [] ∧
      v = { w with transport := { w.transport with running := false }, worker := .returned }) := by
  unfold workStep at hstep
  cases phase with
  | serving =>
      simp only [hworker, Option.some.injEq] at hstep
      subst v
      cases hstop : w.transport.shouldStop with
      | true => exact Or.inr (Or.inl ⟨rfl, rfl, rfl⟩)
      | false => exact Or.inl ⟨rfl, fun _ => rfl, by simp⟩
  | draining =>
      simp only [hworker] at hstep
      split at hstep
      · rename_i hmore
        simp only [Bool.not_eq_true', List.isEmpty_eq_false_iff] at hmore
        exact Or.inl ⟨(Option.some.inj hstep).symm, by simp, fun _ => hmore⟩
      · rename_i hempty
        simp only [Bool.not_eq_true', List.isEmpty_eq_false_iff, ne_eq, not_not] at hempty
        exact Or.inr (Or.inr ⟨rfl, hempty, (Option.some.inj hstep).symm⟩)

theorem LeavesOnStop.step {w v : World} {a : Action} (h : LeavesOnStop w)
    (hstep : Transport.step w a = some v) : LeavesOnStop v := by
  intro hleaving
  cases move_of_step hstep with
  | refused | call | push => exact h hleaving
  | stop => rfl
  | test now phase pc hworker hpc =>
      rcases workStep_loopTest hworker hstep with ⟨hv, -⟩ | ⟨-, hstop, -⟩ | ⟨-, -, hv⟩
      · rw [hv] at hleaving
        exact h (by rw [hworker]; exact hleaving)
      · exact hstop
      · obtain ⟨phase', rfl | rfl⟩ := hpc <;> cases congrArg World.worker hv
  | finish now hworker => exact h (by rw [hworker]; rfl)
  | wait now phase hworker =>
      simp only [performNoConnection, changeState]
      split <;> exact h (by rw [hworker]; exact hleaving)
  | reject outcome now phase post hworker =>
      apply h
      rw [hworker]
      cases hretrying : post.isRetrying <;> (rw [hretrying] at hleaving; exact hleaving)
  | abort | terminate => cases hleaving
  | idle now phase hworker | enter now phase hworker | take now phase front rest hworker
  | discard now phase task hworker | post now phase task post hworker
  | retry now phase post hworker | giveUp now phase post hworker
  | requeue now phase post hworker | settle outcome now phase post hworker
  | limit outcome now phase post retryAfter hworker
  | disconnect outcome now phase post hworker =>
      exact h (by rw [hworker]; exact hleaving)

/-- `run` is left by the emptiness test alone. -/
theorem returned_step {w v : World} {a : Action} (hstep : step w a = some v)
    (hw : w.worker ≠ .returned) (hv : v.worker = .returned) :
    w.worker = .loopTest .draining ∧ w.transport.tasks = [] ∧ (∃ now, a = .work now) ∧
      v = { w with transport := { w.transport with running := false }, worker := .returned } := by
  cases move_of_step hstep with
  | finish now hworker =>
      rcases workStep_loopTest hworker hstep with ⟨hv, -⟩ | ⟨hserving, -, -⟩ | ⟨-, htasks, -⟩
      · simp at hv
      · cases hserving
      · exact ⟨hworker, htasks, ⟨now, rfl⟩, rfl⟩
  | test now phase pc hworker hpc =>
      obtain ⟨phase', rfl | rfl⟩ := hpc <;> cases hv
  | reject outcome now phase post =>
      cases hretrying : post.isRetrying <;> simp [hretrying] at hv
  | _ => simp_all

/-- What holds of a world that the worker has left. -/
structure Exited (w : World) : Prop where
  worker : w.worker = .returned
  shouldStop : w.transport.shouldStop = true

/-- Behind the exit an event can move from its caller to the queue, and
nowhere else. -/
theorem Exited.step {w v : World} {a : Action} (h : Exited w)
    (hstep : Transport.step w a = some v) : Exited v ∧ v.unsent = w.unsent := by
  obtain ⟨hworker, hstop⟩ := h
  cases move_of_step hstep with
  | refused => exact ⟨⟨hworker, hstop⟩, rfl⟩
  | push caller contents hcaller =>
      obtain ⟨hlt, -⟩ := List.getElem?_eq_some_iff.mp hcaller
      refine ⟨⟨hworker, hstop⟩, ?_⟩
      simp only [World.unsent, push, List.length_append, List.length_singleton,
        List.length_eraseIdx_of_lt hlt]
      omega
  | stop => exact ⟨⟨hworker, rfl⟩, rfl⟩
  | _ => simp_all

theorem exited_of_run {w v : World} {schedule : List Action} (h : Exited w)
    (hrun : Transition.run step w schedule = some v) : Exited v ∧ v.unsent = w.unsent := by
  have hkeep : ∀ (u : World) (a : Action) (u' : World), (Exited u ∧ u.unsent = w.unsent) →
      Transport.step u a = some u' → Exited u' ∧ u'.unsent = w.unsent := by
    intro u a u' hu hstep
    obtain ⟨hexited, hunsent⟩ := hu.1.step hstep
    exact ⟨hexited, hunsent.trans hu.2⟩
  exact Transition.run_invariant hkeep ⟨h, rfl⟩ hrun

theorem Exited.exitsAlone {w : World} (h : Exited w) (a : Action) : ExitsAlone w a := by
  cases a with
  | work now => simp [ExitsAlone, h.worker]
  | _ => trivial

theorem allSteps_of_exited {w : World} (h : Exited w) (schedule : List Action) :
    Transition.AllSteps step ExitsAlone w schedule := by
  induction schedule generalizing w with
  | nil => trivial
  | cons a schedule ih =>
      refine ⟨h.exitsAlone a, ?_⟩
      intro v hstep
      exact ih (h.step hstep).1

/-- A caller that is left makes its push, and nobody takes it out. -/
theorem Exited.stays_empty_iff {w : World} (h : Exited w) :
    (∀ later u, Transition.run Transport.step w later = some u → u.transport.tasks = []) ↔
      w.unsent = 0 := by
  constructor
  · intro hempty
    have htasks := hempty [] w rfl
    cases hcallers : w.callers with
    | nil => simp [World.unsent, htasks, hcallers]
    | cons contents callers =>
        have hpush := hempty [.push 0] _
          (by simp only [Transition.run, Transport.step, hcallers]; rfl)
        simp [push] at hpush
  · intro hunsent later u hrun
    have hu := (exited_of_run h hrun).2
    rw [hunsent] at hu
    apply List.eq_nil_of_length_eq_zero
    exact (Nat.add_eq_zero_iff.mp hu).1

/-- Along a run, the events that are left behind the exit are those whose
callers stood in front of their push when the worker left. -/
theorem unsent_iff_of_run {w v : World} {schedule : List Action} (hleaves : LeavesOnStop w)
    (hw : w.worker ≠ .returned) (hrun : Transition.run step w schedule = some v) :
    (v.worker = .returned → v.unsent = 0) ↔
      Transition.AllSteps step ExitsAlone w schedule := by
  induction schedule generalizing w with
  | nil =>
      cases hrun
      exact iff_of_true (fun hv => absurd hv hw) trivial
  | cons a schedule ih =>
      obtain ⟨u, hstep, hrest⟩ := Transition.run_cons_iff.mp hrun
      simp only [Transition.AllSteps, hstep, Option.some.injEq, forall_eq']
      by_cases hu : u.worker = .returned
      · obtain ⟨hworker, htasks, ⟨now, rfl⟩, hueq⟩ := returned_step hstep hw hu
        have hexited : Exited u := ⟨hu, hleaves.step hstep (by simp [hu, Pc.leaving])⟩
        obtain ⟨hv, hunsent⟩ := exited_of_run hexited hrest
        have hcallers : u.unsent = w.callers.length := by simp [hueq, World.unsent, htasks]
        simp [ExitsAlone, allSteps_of_exited hexited, hv.worker, hunsent, hcallers, hworker, htasks]
      · have halone : ExitsAlone w a := by
          cases a with
          | work now =>
              intro hworker htasks
              rw [Transport.step] at hstep
              rcases workStep_loopTest hworker hstep with
                ⟨-, -, hmore⟩ | ⟨hserving, -⟩ | ⟨-, -, rfl⟩
              · exact absurd htasks (hmore rfl)
              · cases hserving
              · exact absurd rfl hu
          | _ => trivial
        rw [ih (hleaves.step hstep) hu hrest]
        exact (and_iff_right halone).symm

/-- In every run: what the queue holds when the worker has gone is nothing,
and stays nothing, if and only if the worker has left with no caller in
front of its push. -/
theorem queue_stays_empty_iff {uninitialised : UInt64} {dsn : SentryDSN} {client : Option Client}
    {schedule : List Action} {w : World}
    (hrun : Transition.run step (World.start uninitialised dsn client) schedule = some w) :
    (w.worker = .returned →
      ∀ later u, Transition.run step w later = some u → u.transport.tasks = []) ↔
    Transition.AllSteps step ExitsAlone (World.start uninitialised dsn client) schedule := by
  have hstart : LeavesOnStop (World.start uninitialised dsn client) := by
    simp [LeavesOnStop, World.start, Pc.leaving]
  have hleaves : LeavesOnStop w :=
    Transition.run_invariant (fun _ _ _ h hstep => h.step hstep) hstart hrun
  rw [← unsent_iff_of_run hstart (by simp [World.start]) hrun]
  apply imp_congr_right
  intro hreturned
  exact Exited.stays_empty_iff ⟨hreturned, hleaves (by rw [hreturned]; rfl)⟩

/-- An event that is pushed and sent in front of the exit. -/
def sentBeforeExit : List Action :=
  [.call (lit "a"), .push 0, .work 0, .work 10000000000, .stop, .work 0, .work 0, .work 0,
    .work 0, .work 0, .answer (answerWith "200 OK") 0, .work 0]

theorem queue_stays_empty_sentBeforeExit :
    ∃ w, Transition.run step localWorld sentBeforeExit = some w ∧ w.worker = .returned ∧
      ∀ later u, Transition.run step w later = some u → u.transport.tasks = [] := by
  have hreturned : (Transition.run step localWorld sentBeforeExit).map World.worker =
      some .returned := by decide
  obtain ⟨w, hrun, hw⟩ := Option.map_eq_some_iff.mp hreturned
  exact ⟨w, hrun, hw, (queue_stays_empty_iff hrun).mpr (by decide) hw⟩

/-- A caller has seen the flag clear, `stop` sets it, the worker finds the
queue empty and leaves, and the caller pushes. -/
def pushBehindExit : List Action :=
  [.call (lit "a"), .stop, .work 0, .work 0, .push 0]

/-- The event of `pushBehindExit` stays in the queue. -/
theorem pushBehindExit_stranded :
    ¬ ∀ (schedule : List Action) (w : World),
      Transition.run step localWorld schedule = some w →
      w.worker = .returned → w.transport.tasks = [] := by
  intro h
  have hstranded : (Transition.run step localWorld pushBehindExit).map
      (fun w => (w.worker, w.transport.tasks.length)) = some (.returned, 1) := by decide
  obtain ⟨w, hrun, hw⟩ := Option.map_eq_some_iff.mp hstranded
  obtain ⟨hworker, hlength⟩ := Prod.mk.inj hw
  simp [h pushBehindExit w hrun hworker] at hlength

end Sentry.Transport
