import Mathlib.Tactic

/-!
Schedules of a labelled transition system given by an executable partial step
function. A schedule is the list of the actions that were performed, in order;
`run` performs it and is `none` as soon as one action is not enabled.

The rules below are the ones a safety argument needs. An invariant is shown
for one step and then holds along every schedule. When only some steps keep
it, `AllSteps` restricts the schedule to steps that meet a condition on the
state they start from.
-/

namespace Transition

variable {σ α : Type*}

def run (step : σ → α → Option σ) : σ → List α → Option σ
  | s, [] => some s
  | s, a :: as => (step s a).bind fun t => run step t as

/-- Every step of the schedule starts from a state and an action that meet
`P`. Steps after a disabled action are not looked at. -/
def AllSteps (step : σ → α → Option σ) (P : σ → α → Prop) : σ → List α → Prop
  | _, [] => True
  | s, a :: as => P s a ∧ ∀ t, step s a = some t → AllSteps step P t as

variable {step : σ → α → Option σ}

@[simp]
theorem run_nil (s : σ) : run step s [] = some s := rfl

theorem run_cons_iff {s u : σ} {a : α} {as : List α} :
    run step s (a :: as) = some u ↔
      ∃ t, step s a = some t ∧ run step t as = some u := by
  simp [run, Option.bind_eq_some_iff]

theorem run_append_iff {s u : σ} {as bs : List α} :
    run step s (as ++ bs) = some u ↔
      ∃ t, run step s as = some t ∧ run step t bs = some u := by
  induction as generalizing s with
  | nil => simp
  | cons a as ih =>
      simp only [List.cons_append, run_cons_iff, ih]
      constructor
      · rintro ⟨v, hv, t, ht, hu⟩
        exact ⟨t, ⟨v, hv, ht⟩, hu⟩
      · rintro ⟨t, ⟨v, hv, ht⟩, hu⟩
        exact ⟨v, hv, t, ht, hu⟩

theorem run_snoc_iff {s u : σ} {as : List α} {a : α} :
    run step s (as ++ [a]) = some u ↔
      ∃ t, run step s as = some t ∧ step t a = some u := by
  simp [run_append_iff, run_cons_iff]

theorem allSteps_of_mem {P : α → Prop} {as : List α} (h : ∀ a ∈ as, P a) (s : σ) :
    AllSteps step (fun _ a => P a) s as := by
  induction as generalizing s with
  | nil => trivial
  | cons a as ih =>
      refine ⟨h a (by simp), ?_⟩
      intro t _
      apply ih
      intro b hb
      exact h b (by simp [hb])

/-- The last step meets the condition too. -/
theorem AllSteps.of_snoc {P : σ → α → Prop} {s t : σ} {as : List α} {a : α}
    (h : AllSteps step P s (as ++ [a])) (hrun : run step s as = some t) : P t a := by
  induction as generalizing s with
  | nil =>
      rw [run_nil] at hrun
      exact Option.some.inj hrun ▸ h.1
  | cons b as ih =>
      obtain ⟨u, hu, hrest⟩ := run_cons_iff.mp hrun
      exact ih (h.2 u hu) hrest

instance AllSteps.decidable {P : σ → α → Prop} [∀ s a, Decidable (P s a)] :
    (s : σ) → (as : List α) → Decidable (AllSteps step P s as)
  | _, [] => .isTrue trivial
  | s, a :: as =>
      match hstep : step s a with
      | none => decidable_of_iff (P s a) (by simp [AllSteps, hstep])
      | some t =>
          have : Decidable (AllSteps step P t as) := AllSteps.decidable t as
          decidable_of_iff (P s a ∧ AllSteps step P t as) (by simp [AllSteps, hstep])

/-- A condition on a part of the state can be checked on a system that has
only this part. -/
theorem allSteps_of_project {τ : Type*} (step' : τ → α → Option τ) (f : σ → τ)
    (P : τ → α → Prop) (hproject : ∀ s a t, step s a = some t → step' (f s) a = some (f t))
    {s : σ} {as : List α} (h : AllSteps step' P (f s) as) :
    AllSteps step (fun s a => P (f s) a) s as := by
  induction as generalizing s with
  | nil => trivial
  | cons a as ih =>
      refine ⟨h.1, ?_⟩
      intro t ht
      exact ih (h.2 (f t) (hproject s a t ht))

/-- The invariant rule for schedules whose steps all meet a condition. -/
theorem run_invariant_of_allSteps {Inv : σ → Prop} {P : σ → α → Prop}
    (hstep : ∀ s a t, Inv s → P s a → step s a = some t → Inv t)
    {s u : σ} {as : List α} (hs : Inv s) (hall : AllSteps step P s as)
    (hrun : run step s as = some u) : Inv u := by
  induction as generalizing s with
  | nil =>
      rw [run_nil] at hrun
      exact Option.some.inj hrun ▸ hs
  | cons a as ih =>
      obtain ⟨t, ht, hu⟩ := run_cons_iff.mp hrun
      exact ih (hstep s a t hs hall.1 ht) (hall.2 t ht) hu

/-- The invariant rule: what every single step keeps, every schedule keeps. -/
theorem run_invariant {Inv : σ → Prop}
    (hstep : ∀ s a t, Inv s → step s a = some t → Inv t)
    {s u : σ} {as : List α} (hs : Inv s) (hrun : run step s as = some u) :
    Inv u := by
  have hall : AllSteps step (fun _ _ => True) s as := allSteps_of_mem (fun _ _ => trivial) s
  exact run_invariant_of_allSteps (fun s a t h _ => hstep s a t h) hs hall hrun

/-- Bounded waiting. Where each of the marked actions shortens a wait or ends
it, and no other action prolongs it, a wait of `n` is over behind more than `n`
marked actions. -/
theorem bounded_wait {Waits : Nat → σ → Prop} {Done : σ → Prop} {P : σ → α → Prop}
    {marked : α → Bool}
    (hwaits : ∀ n s a t, Waits n s → P s a → step s a = some t →
      Done t ∨ ∃ m, Waits m t ∧ m + (if marked a then 1 else 0) ≤ n)
    (hdone : ∀ s a t, Done s → step s a = some t → Done t)
    {n : Nat} {s u : σ} {as : List α} (hs : Waits n s) (hall : AllSteps step P s as)
    (hrun : run step s as = some u) (hlong : n < as.countP marked) : Done u := by
  induction as generalizing n s with
  | nil => simp at hlong
  | cons a as ih =>
      obtain ⟨t, ht, hu⟩ := run_cons_iff.mp hrun
      rcases hwaits n s a t hs hall.1 ht with hover | ⟨m, hm, hle⟩
      · exact run_invariant hdone hover hu
      · apply ih hm (hall.2 t ht) hu
        rw [List.countP_cons] at hlong
        omega

/-- Where a step keeps the invariant exactly if it meets the condition, the
invariant holds in every state of a run if and only if all steps of the run
meet it. -/
theorem invariant_iff_allSteps {Inv : σ → Prop} {P : σ → α → Prop}
    (hkeeps : ∀ s a t, Inv s → step s a = some t → (Inv t ↔ P s a))
    (hdisabled : ∀ s a, step s a = none → P s a) {s : σ} (hs : Inv s) (as : List α) :
    (∀ bs t, bs <+: as → run step s bs = some t → Inv t) ↔ AllSteps step P s as := by
  induction as generalizing s with
  | nil =>
      apply iff_of_true _ trivial
      intro bs t hinitial hrun
      rw [List.prefix_nil.mp hinitial, run_nil] at hrun
      exact Option.some.inj hrun ▸ hs
  | cons a as ih =>
      constructor
      · intro hall
        have hnext (t : σ) (ht : step s a = some t) : Inv t :=
          hall [a] t (by simp) (run_cons_iff.mpr ⟨t, ht, run_nil t⟩)
        refine ⟨?_, ?_⟩
        · cases ht : step s a with
          | none => exact hdisabled s a ht
          | some t => exact (hkeeps s a t hs ht).mp (hnext t ht)
        · intro t ht
          apply (ih (hnext t ht)).mp
          intro bs u hinitial hrun
          exact hall (a :: bs) u (List.cons_prefix_cons.mpr ⟨rfl, hinitial⟩)
            (run_cons_iff.mpr ⟨t, ht, hrun⟩)
      · rintro ⟨hP, hrest⟩ bs u hinitial hrun
        cases bs with
        | nil =>
            rw [run_nil] at hrun
            exact Option.some.inj hrun ▸ hs
        | cons b bs =>
            obtain ⟨rfl, hbs⟩ := List.cons_prefix_cons.mp hinitial
            obtain ⟨t, ht, hu⟩ := run_cons_iff.mp hrun
            exact (ih ((hkeeps s b t hs ht).mpr hP)).mpr (hrest t ht) bs u hbs hu

end Transition
