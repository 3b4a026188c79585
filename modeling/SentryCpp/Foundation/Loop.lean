import Mathlib.Tactic

/-!
`while (cond) body` over a state, with a body that may throw and that may read
inputs indexed by the number of the iteration (a clock, the answers of a
peer). `loop` runs it with fuel: `none` means that the fuel was used up before
the test failed.

`Finishes` is the statement that the loop ends normally. It does not change
along the iterations of the loop, and it is refuted by a set of states that no
iteration leaves.
-/

namespace Loop

variable {σ ε : Type*}

def loop (cond : σ → Bool) (body : Nat → σ → Except ε σ) :
    Nat → Nat → σ → Option (Except ε σ)
  | 0, _, s => if cond s then none else some (.ok s)
  | fuel + 1, i, s =>
      if cond s then
        match body i s with
        | .ok t => loop cond body fuel (i + 1) t
        | .error e => some (.error e)
      else some (.ok s)

/-- Started at iteration `i` the loop ends normally, in a state where its
test fails. -/
def Finishes (cond : σ → Bool) (body : Nat → σ → Except ε σ) (i : Nat) (s : σ) : Prop :=
  ∃ fuel t, loop cond body fuel i s = some (.ok t)

/-- `n` iterations from iteration `i` on, all of them entered and none of
them throwing. -/
inductive Iterates (cond : σ → Bool) (body : Nat → σ → Except ε σ) :
    Nat → σ → Nat → σ → Prop where
  | refl (i : Nat) (s : σ) : Iterates cond body i s 0 s
  | step {i n : Nat} {s t u : σ} (hcond : cond s = true) (hbody : body i s = .ok t)
      (rest : Iterates cond body (i + 1) t n u) : Iterates cond body i s (n + 1) u

variable {cond : σ → Bool} {body : Nat → σ → Except ε σ}

theorem loop_zero (i : Nat) (s : σ) :
    loop cond body 0 i s = if cond s then none else some (.ok s) := rfl

theorem loop_succ (fuel i : Nat) (s : σ) :
    loop cond body (fuel + 1) i s =
      if cond s then
        match body i s with
        | .ok t => loop cond body fuel (i + 1) t
        | .error e => some (.error e)
      else some (.ok s) := rfl

theorem loop_of_not_cond {fuel i : Nat} {s : σ} (h : cond s = false) :
    loop cond body fuel i s = some (.ok s) := by
  cases fuel with
  | zero => simp [loop_zero, h]
  | succ fuel => simp [loop_succ, h]

theorem loop_of_body_ok {fuel i : Nat} {s t : σ} (hcond : cond s = true)
    (hbody : body i s = .ok t) :
    loop cond body (fuel + 1) i s = loop cond body fuel (i + 1) t := by
  rw [loop_succ, if_pos hcond, hbody]

theorem loop_of_body_error {fuel i : Nat} {s : σ} {e : ε} (hcond : cond s = true)
    (hbody : body i s = .error e) : loop cond body (fuel + 1) i s = some (.error e) := by
  rw [loop_succ, if_pos hcond, hbody]

theorem finishes_of_not_cond {i : Nat} {s : σ} (h : cond s = false) :
    Finishes cond body i s :=
  ⟨0, s, loop_of_not_cond h⟩

theorem finishes_iff_of_body_ok {i : Nat} {s t : σ} (hcond : cond s = true)
    (hbody : body i s = .ok t) :
    Finishes cond body i s ↔ Finishes cond body (i + 1) t := by
  constructor
  · rintro ⟨fuel, u, hu⟩
    cases fuel with
    | zero => simp [loop_zero, hcond] at hu
    | succ fuel => exact ⟨fuel, u, loop_of_body_ok hcond hbody ▸ hu⟩
  · rintro ⟨fuel, u, hu⟩
    exact ⟨fuel + 1, u, (loop_of_body_ok hcond hbody).trans hu⟩

theorem finishes_iff_of_iterates {i n : Nat} {s t : σ} (h : Iterates cond body i s n t) :
    Finishes cond body i s ↔ Finishes cond body (i + n) t := by
  induction h with
  | refl => simp
  | @step i n s t u hcond hbody _ ih =>
      rw [finishes_iff_of_body_ok hcond hbody, ih, Nat.add_assoc, Nat.add_comm 1 n]

theorem not_finishes_of_body_error {i : Nat} {s : σ} {e : ε} (hcond : cond s = true)
    (hbody : body i s = .error e) : ¬ Finishes cond body i s := by
  rintro ⟨fuel, u, hu⟩
  cases fuel with
  | zero => simp [loop_zero, hcond] at hu
  | succ fuel => simp [loop_of_body_error hcond hbody] at hu

/-- A set of states that the test admits and the body does not leave is never
left: the loop does not end. -/
theorem not_finishes_of_invariant (Stuck : σ → Prop)
    (hcond : ∀ s, Stuck s → cond s = true)
    (hbody : ∀ i s, Stuck s → ∃ t, body i s = .ok t ∧ Stuck t)
    {i : Nat} {s : σ} (hs : Stuck s) : ¬ Finishes cond body i s := by
  rintro ⟨fuel, u, hu⟩
  induction fuel generalizing i s with
  | zero => simp [loop_zero, hcond s hs] at hu
  | succ fuel ih =>
      obtain ⟨t, ht, hstuck⟩ := hbody i s hs
      rw [loop_of_body_ok (hcond s hs) ht] at hu
      exact ih hstuck hu

/-- More fuel does not change a result. -/
theorem loop_of_le {fuel fuel' i : Nat} {s : σ} {r : Except ε σ} (hle : fuel ≤ fuel')
    (h : loop cond body fuel i s = some r) : loop cond body fuel' i s = some r := by
  induction fuel generalizing fuel' i s with
  | zero =>
      have hcond : cond s = false := by
        by_contra htrue
        simp [loop_zero, htrue] at h
      rw [loop_of_not_cond hcond] at h ⊢
      exact h
  | succ fuel ih =>
      cases fuel' with
      | zero => omega
      | succ fuel' =>
          rw [loop_succ] at h ⊢
          split at h
          · rename_i hcond
            rw [if_pos hcond]
            cases hbody : body i s with
            | error e => simpa [hbody] using h
            | ok t =>
                simp only [hbody] at h
                exact ih (Nat.le_of_succ_le_succ hle) h
          · rename_i hcond
            rwa [if_neg hcond]

/-- There is one result, whatever the fuel. -/
theorem loop_unique {fuel fuel' i : Nat} {s : σ} {r r' : Except ε σ}
    (h : loop cond body fuel i s = some r) (h' : loop cond body fuel' i s = some r') : r = r' := by
  rcases Nat.le_total fuel fuel' with hle | hle
  · rw [loop_of_le hle h] at h'
    exact Option.some.inj h'
  · rw [loop_of_le hle h'] at h
    exact (Option.some.inj h).symm

end Loop
