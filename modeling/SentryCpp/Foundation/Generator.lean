import Mathlib.Data.List.Basic

/-!
A pseudo-random generator: a seed gives a state, and a state gives an output
and the next state. A program that seeds the generator before every draw only
sees first outputs. Whatever the generator is, these are successive outputs of
one sequence if there is one draw, and for two draws or more they are not.
-/

structure Generator (ι β : Type) where
  State : Type
  srand : ι → State
  rand : State → β × State

namespace Generator

variable {ι β γ : Type}

/-- The next `n` outputs. -/
def outputs (g : Generator ι β) : g.State → Nat → List β
  | _, 0 => []
  | s, n + 1 => (g.rand s).1 :: g.outputs (g.rand s).2 n

/-- The first output for a seed. -/
def first (g : Generator ι β) (seed : ι) : β := (g.rand (g.srand seed)).1

/-- The values are successive outputs of one sequence, as `f` shows them. -/
def Successive (g : Generator ι β) (f : β → γ) (values : List γ) : Prop :=
  ∃ s, values = (g.outputs s values.length).map f

/-- Two outputs in turns. -/
def alternating (ι : Type) (a b : β) : Generator ι β where
  State := Bool
  srand := fun _ => false
  rand := fun s => if s then (b, false) else (a, true)

/-- Two equal values are no successive outputs of a generator that
alternates. -/
theorem not_successive_alternating {f : β → γ} {a b : β} (hab : f a ≠ f b) (value : γ)
    (values : List γ) :
    ¬ (alternating ι a b).Successive f (value :: value :: values) := by
  rintro ⟨s, hs⟩
  simp only [List.length_cons, outputs, List.map_cons, List.cons.injEq] at hs
  have hsame : f ((alternating ι a b).rand s).1 =
      f ((alternating ι a b).rand ((alternating ι a b).rand s).2).1 :=
    hs.1.symm.trans hs.2.1
  cases s with
  | false => exact hab hsame
  | true => exact hab hsame.symm

/-- First outputs are successive outputs of one sequence, for every generator,
exactly if there is at most one of them. -/
theorem successive_first_iff {f : β → γ} {a b : β} (hab : f a ≠ f b) (seeds : List ι) :
    (∀ (g : Generator ι β) (_ : g.State), g.Successive f (seeds.map fun seed => f (g.first seed))) ↔
      seeds.length ≤ 1 := by
  cases seeds with
  | nil => exact iff_of_true (fun _ s => ⟨s, rfl⟩) (Nat.zero_le _)
  | cons seed seeds =>
      cases seeds with
      | nil => exact iff_of_true (fun g _ => ⟨g.srand seed, rfl⟩) (Nat.le_refl _)
      | cons other seeds =>
          apply iff_of_false
          · intro hall
            exact not_successive_alternating hab (f a) _ (hall (alternating ι a b) false)
          · simp

end Generator
