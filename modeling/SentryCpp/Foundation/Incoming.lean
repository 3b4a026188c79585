import Mathlib.Data.List.Infix
import Mathlib.Tactic

/-!
Reading from a stream that arrives in pieces. A reader waits until its buffer
holds a delimiter, or until it holds so many elements more, and takes from the
front of what it holds.

Where the stream was cut decides how much of it lies in the buffer when a wait
is over, and nothing else. The rules say so: a wait keeps the stream as a whole,
it succeeds or fails as the whole stream decides, and a wait that fails has read
all of it.
-/

/-- The elements that are received and not yet taken, and the pieces that the
reads to come will give. -/
structure Incoming (α : Type*) where
  buffer : List α
  pieces : List (List α)

namespace Incoming

variable {α : Type*}

/-- What is still to be taken. -/
def total (s : Incoming α) : List α := s.buffer ++ s.pieces.flatten

/-- Reads until the buffer has the delimiter in it. -/
def readUntil [DecidableEq α] (delimiter : List α) :
    List α → List (List α) → Incoming α × Bool
  | buffer, [] => (⟨buffer, []⟩, decide (delimiter <:+: buffer))
  | buffer, piece :: pieces =>
      if delimiter <:+: buffer then (⟨buffer, piece :: pieces⟩, true)
      else readUntil delimiter (buffer ++ piece) pieces

/-- Reads `n` elements more, and of the last piece no more than these. -/
def readExactly : Nat → List α → List (List α) → Incoming α × Bool
  | 0, buffer, pieces => (⟨buffer, pieces⟩, true)
  | _ + 1, buffer, [] => (⟨buffer, []⟩, false)
  | n + 1, buffer, piece :: pieces =>
      if n + 1 < piece.length then
        (⟨buffer ++ piece.take (n + 1), piece.drop (n + 1) :: pieces⟩, true)
      else readExactly (n + 1 - piece.length) (buffer ++ piece) pieces

/-- The position behind the first delimiter. -/
def endOf [DecidableEq α] (delimiter : List α) : List α → Option Nat
  | [] => if delimiter = [] then some 0 else none
  | a :: s =>
      if delimiter <+: a :: s then some delimiter.length else (endOf delimiter s).map (· + 1)

section Until

variable [DecidableEq α]

@[simp]
theorem readUntil_nil (delimiter buffer : List α) :
    readUntil delimiter buffer [] = (⟨buffer, []⟩, decide (delimiter <:+: buffer)) := rfl

theorem readUntil_cons (delimiter buffer piece : List α) (pieces : List (List α)) :
    readUntil delimiter buffer (piece :: pieces) =
      if delimiter <:+: buffer then (⟨buffer, piece :: pieces⟩, true)
      else readUntil delimiter (buffer ++ piece) pieces := rfl

@[simp]
theorem endOf_nil (delimiter : List α) :
    endOf delimiter [] = if delimiter = [] then some 0 else none := rfl

theorem endOf_cons (delimiter : List α) (a : α) (s : List α) :
    endOf delimiter (a :: s) =
      if delimiter <+: a :: s then some delimiter.length
      else (endOf delimiter s).map (· + 1) := rfl

theorem total_readUntil (delimiter buffer : List α) (pieces : List (List α)) :
    (readUntil delimiter buffer pieces).1.total = buffer ++ pieces.flatten := by
  induction pieces generalizing buffer with
  | nil => rfl
  | cons piece pieces ih =>
      rw [readUntil_cons]
      split
      · rfl
      · rw [ih, List.flatten_cons, List.append_assoc]

/-- The wait is over if the delimiter is in the stream. -/
theorem readUntil_iff (delimiter buffer : List α) (pieces : List (List α)) :
    (readUntil delimiter buffer pieces).2 = true ↔ delimiter <:+: buffer ++ pieces.flatten := by
  induction pieces generalizing buffer with
  | nil => simp
  | cons piece pieces ih =>
      rw [readUntil_cons]
      split
      · rename_i h
        exact iff_of_true rfl (h.trans (List.infix_append' [] buffer _))
      · rw [ih, List.flatten_cons, List.append_assoc]

theorem infix_of_readUntil {delimiter buffer : List α} {pieces : List (List α)}
    (h : (readUntil delimiter buffer pieces).2 = true) :
    delimiter <:+: (readUntil delimiter buffer pieces).1.buffer := by
  induction pieces generalizing buffer with
  | nil => simpa using h
  | cons piece pieces ih =>
      rw [readUntil_cons] at h ⊢
      split at h
      · rename_i hends
        rwa [if_pos hends]
      · rename_i hends
        rw [if_neg hends]
        exact ih h

/-- A wait that fails has read everything. -/
theorem readUntil_of_absent {delimiter buffer : List α} {pieces : List (List α)}
    (h : ¬ delimiter <:+: buffer ++ pieces.flatten) :
    readUntil delimiter buffer pieces = (⟨buffer ++ pieces.flatten, []⟩, false) := by
  induction pieces generalizing buffer with
  | nil =>
      rw [List.flatten_nil, List.append_nil] at h ⊢
      rw [readUntil_nil, decide_eq_false h]
  | cons piece pieces ih =>
      rw [List.flatten_cons, ← List.append_assoc] at h ⊢
      rw [readUntil_cons, if_neg, ih h]
      intro hends
      exact h (hends.trans (by rw [List.append_assoc]; exact List.infix_append' [] buffer _))

/-- The two ways a wait for a delimiter ends. -/
theorem readUntil_cases (delimiter buffer : List α) (pieces : List (List α)) :
    (delimiter <:+: buffer ++ pieces.flatten ∧ ∃ t,
      readUntil delimiter buffer pieces = (t, true) ∧ t.total = buffer ++ pieces.flatten ∧
        delimiter <:+: t.buffer) ∨
    (¬ delimiter <:+: buffer ++ pieces.flatten ∧
      readUntil delimiter buffer pieces = (⟨buffer ++ pieces.flatten, []⟩, false)) := by
  by_cases h : delimiter <:+: buffer ++ pieces.flatten
  · have hfound := (readUntil_iff delimiter buffer pieces).mpr h
    exact Or.inl ⟨h, _, Prod.ext rfl hfound, total_readUntil delimiter buffer pieces,
      infix_of_readUntil hfound⟩
  · exact Or.inr ⟨h, readUntil_of_absent h⟩

theorem endOf_eq_none_iff {delimiter s : List α} :
    endOf delimiter s = none ↔ ¬ delimiter <:+: s := by
  induction s with
  | nil => simp
  | cons a s ih =>
      rw [endOf_cons, List.infix_cons_iff, not_or, ← ih]
      split
      · rename_i h
        simp [h]
      · rename_i h
        simp [h]

theorem endOf_eq_some {delimiter s : List α} {n : Nat} (h : endOf delimiter s = some n) :
    ∃ a b, s = a ++ (delimiter ++ b) ∧ n = a.length + delimiter.length := by
  induction s generalizing n with
  | nil =>
      rw [endOf_nil] at h
      split at h
      · rename_i hnil
        exact ⟨[], [], by simp [hnil], by simpa [hnil] using h.symm⟩
      · cases h
  | cons x s ih =>
      rw [endOf_cons] at h
      split at h
      · rename_i hinitial
        obtain ⟨b, hb⟩ := hinitial
        exact ⟨[], b, hb.symm, by simpa using h.symm⟩
      · obtain ⟨m, hm, rfl⟩ := Option.map_eq_some_iff.mp h
        obtain ⟨a, b, rfl, rfl⟩ := ih hm
        exact ⟨x :: a, b, rfl, by simp; omega⟩

/-- The first delimiter stays the first one when more arrives. -/
theorem endOf_append {delimiter s : List α} {n : Nat} (h : endOf delimiter s = some n)
    (t : List α) : endOf delimiter (s ++ t) = some n := by
  induction s generalizing n with
  | nil =>
      rw [endOf_nil] at h
      split at h
      · rename_i hnil
        cases t with
        | nil => simpa [hnil] using h
        | cons x t => simpa [endOf_cons, hnil] using h
      · cases h
  | cons x s ih =>
      rw [endOf_cons] at h
      rw [List.cons_append, endOf_cons]
      split at h
      · rename_i hinitial
        have hlonger : delimiter <+: x :: (s ++ t) := hinitial.trans ⟨t, rfl⟩
        rw [if_pos hlonger, h]
      · rename_i hinitial
        obtain ⟨m, hm, rfl⟩ := Option.map_eq_some_iff.mp h
        obtain ⟨a, b, rfl, rfl⟩ := endOf_eq_some hm
        rw [if_neg, ih hm]
        · rfl
        · rintro hinitial'
          apply hinitial
          apply List.prefix_of_prefix_length_le hinitial' ⟨t, rfl⟩
          simp only [List.length_cons, List.length_append]
          omega

/-- The first delimiter is the written one, if its first element is not in front
of it. -/
theorem endOf_of_notMem {x : α} {front : List α} (h : x ∉ front) (delimiter rest : List α) :
    endOf (x :: delimiter) (front ++ (x :: delimiter ++ rest)) =
      some (front.length + (delimiter.length + 1)) := by
  induction front with
  | nil => simp [endOf_cons]
  | cons a front ih =>
      simp only [List.mem_cons, not_or] at h
      rw [List.cons_append, endOf_cons, if_neg, ih h.2, Option.map_some, List.length_cons]
      · congr 1
        omega
      · rintro ⟨t, ht⟩
        exact h.1 (List.cons.inj ht).1

theorem endOf_buffer {delimiter : List α} {t : Incoming α} (h : delimiter <:+: t.buffer) :
    endOf delimiter t.buffer = endOf delimiter t.total := by
  obtain ⟨n, hn⟩ := Option.ne_none_iff_exists'.mp (mt endOf_eq_none_iff.mp (not_not.mpr h))
  rw [total, hn, endOf_append hn]

end Until

@[simp]
theorem readExactly_nil (n : Nat) (buffer : List α) :
    readExactly n buffer [] = (⟨buffer, []⟩, decide (n = 0)) := by
  cases n <;> rfl

@[simp]
theorem readExactly_zero (buffer : List α) (pieces : List (List α)) :
    readExactly 0 buffer pieces = (⟨buffer, pieces⟩, true) := by
  cases pieces <;> rfl

theorem readExactly_cons (n : Nat) (buffer piece : List α) (pieces : List (List α)) :
    readExactly (n + 1) buffer (piece :: pieces) =
      if n + 1 < piece.length then
        (⟨buffer ++ piece.take (n + 1), piece.drop (n + 1) :: pieces⟩, true)
      else readExactly (n + 1 - piece.length) (buffer ++ piece) pieces := rfl

theorem total_readExactly (n : Nat) (buffer : List α) (pieces : List (List α)) :
    (readExactly n buffer pieces).1.total = buffer ++ pieces.flatten := by
  induction pieces generalizing n buffer with
  | nil => cases n <;> rfl
  | cons piece pieces ih =>
      cases n with
      | zero => rfl
      | succ n =>
          rw [readExactly_cons]
          split
          · simp [total, ← List.append_assoc _ (List.drop _ _)]
          · rw [ih, List.flatten_cons, List.append_assoc]

/-- The wait is over if the stream is long enough. -/
theorem readExactly_iff (n : Nat) (buffer : List α) (pieces : List (List α)) :
    (readExactly n buffer pieces).2 = true ↔ n ≤ pieces.flatten.length := by
  induction pieces generalizing n buffer with
  | nil => simp
  | cons piece pieces ih =>
      cases n with
      | zero => simp
      | succ n =>
          rw [readExactly_cons, List.flatten_cons, List.length_append]
          split
          · exact iff_of_true rfl (by omega)
          · rw [ih]
            omega

theorem length_of_readExactly {n : Nat} {buffer : List α} {pieces : List (List α)}
    (h : (readExactly n buffer pieces).2 = true) :
    (readExactly n buffer pieces).1.buffer.length = buffer.length + n := by
  induction pieces generalizing n buffer with
  | nil =>
      cases n with
      | zero => rfl
      | succ n => cases h
  | cons piece pieces ih =>
      cases n with
      | zero => rfl
      | succ n =>
          rw [readExactly_cons] at h ⊢
          split at h
          · rename_i hlt
            rw [if_pos hlt, List.length_append, List.length_take_of_le hlt.le]
          · rename_i hge
            rw [if_neg hge, ih h, List.length_append]
            omega

theorem readExactly_of_lt {n : Nat} {buffer : List α} {pieces : List (List α)}
    (h : pieces.flatten.length < n) :
    readExactly n buffer pieces = (⟨buffer ++ pieces.flatten, []⟩, false) := by
  induction pieces generalizing n buffer with
  | nil =>
      obtain ⟨m, rfl⟩ : ∃ m, n = m + 1 := ⟨n - 1, by simp at h; omega⟩
      simp
  | cons piece pieces ih =>
      obtain ⟨m, rfl⟩ : ∃ m, n = m + 1 := ⟨n - 1, by simp at h; omega⟩
      rw [List.flatten_cons, List.length_append] at h
      rw [readExactly_cons, if_neg (by omega), ih (by omega), List.flatten_cons, List.append_assoc]

/-- The two ways a wait for `n` elements ends. -/
theorem readExactly_cases (n : Nat) (buffer : List α) (pieces : List (List α)) :
    (n ≤ pieces.flatten.length ∧ ∃ t,
      readExactly n buffer pieces = (t, true) ∧ t.total = buffer ++ pieces.flatten ∧
        t.buffer.length = buffer.length + n) ∨
    (pieces.flatten.length < n ∧
      readExactly n buffer pieces = (⟨buffer ++ pieces.flatten, []⟩, false)) := by
  rcases Nat.lt_or_ge pieces.flatten.length n with h | h
  · exact Or.inr ⟨h, readExactly_of_lt h⟩
  · have hfound := (readExactly_iff n buffer pieces).mpr h
    exact Or.inl ⟨h, _, Prod.ext rfl hfound, total_readExactly n buffer pieces,
      length_of_readExactly hfound⟩

end Incoming
