import Mathlib.Tactic

/-!
Code that can be interrupted, on its own thread, by a handler that takes locks
as well. Of both only the trace counts: the mutexes locked and unlocked, and
the points where the thread waits for another one. No mutex is recursive, so
the handler must not lock one that the interrupted code holds, and it must not
wait while a mutex is held that the other thread may ask for. `Safe` says this
of the rest of a trace, for the mutexes that are held in front of it.
-/

namespace Locks

inductive Instr (M : Type*) where
  | lock (m : M)
  | unlock (m : M)
  | work
  | wait
  deriving DecidableEq, Repr

abbrev Trace (M : Type*) := List (Instr M)

variable {M : Type*}

/-- A block with a lock guard. -/
def withLock (m : M) (body : Trace M) : Trace M := .lock m :: (body ++ [.unlock m])

@[simp]
theorem lock_mem_withLock_work (m m' : M) :
    Instr.lock m ∈ withLock m' [.work] ↔ m = m' := by
  simp [withLock]

variable [DecidableEq M]

/-- The mutexes held behind the trace, when those in `held` are in front. -/
def heldAfter (held : List M) : Trace M → List M
  | [] => held
  | .lock m :: t => heldAfter (m :: held) t
  | .unlock m :: t => heldAfter (held.erase m) t
  | .work :: t | .wait :: t => heldAfter held t

def Safe (canWait : List M → Prop) (held : List M) : Trace M → Prop
  | [] => True
  | .lock m :: t => m ∉ held ∧ Safe canWait (m :: held) t
  | .unlock m :: t => Safe canWait (held.erase m) t
  | .work :: t => Safe canWait held t
  | .wait :: t => canWait held ∧ Safe canWait held t

/-- The trace gives back what it locks. -/
def Balanced (t : Trace M) : Prop := ∀ held, heldAfter held t = held

theorem heldAfter_append (held : List M) (s t : Trace M) :
    heldAfter held (s ++ t) = heldAfter (heldAfter held s) t := by
  induction s generalizing held with
  | nil => rfl
  | cons i s ih => cases i <;> exact ih _

theorem safe_append_iff (canWait : List M → Prop) (held : List M) (s t : Trace M) :
    Safe canWait held (s ++ t) ↔
      Safe canWait held s ∧ Safe canWait (heldAfter held s) t := by
  induction s generalizing held with
  | nil => simp [Safe, heldAfter]
  | cons i s ih =>
      cases i with
      | lock m | wait => simp only [List.cons_append, Safe, heldAfter, ih, and_assoc]
      | unlock m | work => simp only [List.cons_append, Safe, heldAfter, ih]

/-- A mutex that is held was held before or is locked by the trace. -/
theorem lock_mem_of_mem_heldAfter {held : List M} {m : M} {t : Trace M}
    (hm : m ∈ heldAfter held t) : m ∈ held ∨ Instr.lock m ∈ t := by
  induction t generalizing held with
  | nil => exact Or.inl hm
  | cons i t ih =>
      cases i with
      | lock m' =>
          rcases ih hm with hheld | hlock
          · rcases List.mem_cons.mp hheld with rfl | hheld
            · exact Or.inr List.mem_cons_self
            · exact Or.inl hheld
          · exact Or.inr (List.mem_cons_of_mem _ hlock)
      | unlock m' =>
          rcases ih hm with hheld | hlock
          · exact Or.inl (List.mem_of_mem_erase hheld)
          · exact Or.inr (List.mem_cons_of_mem _ hlock)
      | work | wait => exact (ih hm).imp id (List.mem_cons_of_mem _)

theorem balanced_nil : Balanced ([] : Trace M) := fun _ => rfl

theorem balanced_work : Balanced ([.work] : Trace M) := fun _ => rfl

theorem Balanced.append {s t : Trace M} (hs : Balanced s) (ht : Balanced t) :
    Balanced (s ++ t) := by
  intro held
  rw [heldAfter_append, hs, ht]

theorem Balanced.withLock {t : Trace M} (ht : Balanced t) (m : M) :
    Balanced (withLock m t) := by
  intro held
  rw [Locks.withLock, heldAfter, heldAfter_append, ht]
  simp [heldAfter]

/-- Behind a trace that gives back its locks the rest is judged as if it came
first. -/
theorem Balanced.safe_append_iff {s : Trace M} (hs : Balanced s) (canWait : List M → Prop)
    (held : List M) (t : Trace M) :
    Safe canWait held (s ++ t) ↔ Safe canWait held s ∧ Safe canWait held t := by
  rw [Locks.safe_append_iff, hs]

theorem safe_withLock_work (canWait : List M → Prop) (held : List M) (m : M) :
    Safe canWait held (withLock m [.work]) ↔ m ∉ held := by
  simp [withLock, Safe]

end Locks
