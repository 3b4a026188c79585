import Mathlib.Data.List.TakeWhile
import Mathlib.Tactic

/-!
Byte strings with the operations of `std::string` that search and cut them.
Positions are `size_t`, that is naturals below `2 ^ 64`, and `npos` is the
largest of them; sums and differences of positions wrap around.

A string that lives in memory is far shorter than `npos`. `CString` carries
such a bound together with the absence of a terminator inside the string, so
that wrapped positions never meet real ones.
-/

abbrev Byte := UInt8

abbrev Bytes := List Byte

instance UInt8.instLinearOrder : LinearOrder UInt8 where
  le_refl := fun a => UInt8.le_refl a
  le_trans := fun _ _ _ => UInt8.le_trans
  lt_iff_le_not_ge := by
    intro a b
    simp only [UInt8.lt_iff_toNat_lt, UInt8.le_iff_toNat_le]
    omega
  le_antisymm := fun _ _ => UInt8.le_antisymm
  le_total := UInt8.le_total
  toDecidableLE := inferInstance

namespace StdString

/-- The bytes of a string literal. -/
def lit (s : String) : Bytes := s.toByteArray.data.toList

/-- The exceptions that string operations of the standard library throw. -/
inductive StdError where
  | invalidArgument
  | outOfRange
  deriving DecidableEq, Repr

def npos : Nat := 2 ^ 64 - 1

def sizeAdd (a b : Nat) : Nat := (a + b) % 2 ^ 64

def sizeSub (a b : Nat) : Nat := (a + (2 ^ 64 - b)) % 2 ^ 64

/-- `s.find(c)`. -/
def find (s : Bytes) (c : Byte) : Nat :=
  if c ∈ s then s.idxOf c else npos

/-- `s.rfind(c)`. -/
def rfind (s : Bytes) (c : Byte) : Nat :=
  if c ∈ s then s.length - 1 - s.reverse.idxOf c else npos

/-- `s.substr(pos, count)`; `s.substr(pos)` is the case `count = npos`. -/
def substr (s : Bytes) (pos count : Nat) : Except StdError Bytes :=
  if s.length < pos then .error .outOfRange else .ok ((s.drop pos).take count)

theorem find_append_of_notMem {a : Bytes} {c : Byte} (h : c ∉ a) (b : Bytes) :
    find (a ++ c :: b) c = a.length := by
  simp [find, List.idxOf_append_of_notMem h]

theorem rfind_append_of_notMem {b : Bytes} {c : Byte} (a : Bytes) (h : c ∉ b) :
    rfind (a ++ c :: b) c = a.length := by
  have hrev : (a ++ c :: b).reverse = b.reverse ++ c :: a.reverse := by simp
  have hidx : (a ++ c :: b).reverse.idxOf c = b.length := by
    rw [hrev, List.idxOf_append_of_notMem (by simpa using h)]
    simp
  simp only [rfind, hidx]
  rw [if_pos (by simp)]
  simp only [List.length_append, List.length_cons]
  omega

theorem substr_of_le {s : Bytes} {pos : Nat} (h : pos ≤ s.length) (count : Nat) :
    substr s pos count = .ok ((s.drop pos).take count) := by
  simp [substr, Nat.not_lt.mpr h]

theorem exists_last_split {s : Bytes} {c : Byte} (h : c ∈ s) :
    ∃ a b, s = a ++ c :: b ∧ c ∉ b := by
  obtain ⟨a, b, hrev, ha⟩ := List.eq_append_cons_of_mem (List.mem_reverse.mpr h)
  refine ⟨b.reverse, a.reverse, ?_, by simpa using ha⟩
  rw [← List.reverse_reverse s, hrev]
  simp

theorem takeWhile_append_of_notMem {a : Bytes} {c : Byte} (h : c ∉ a) (b : Bytes) :
    (a ++ c :: b).takeWhile (· ≠ c) = a := by
  rw [List.takeWhile_append_of_pos (by intro x hx; simp; rintro rfl; exact h hx)]
  simp

theorem dropWhile_append_of_notMem {a : Bytes} {c : Byte} (h : c ∉ a) (b : Bytes) :
    (a ++ c :: b).dropWhile (· ≠ c) = c :: b := by
  rw [List.dropWhile_append_of_pos (by intro x hx; simp; rintro rfl; exact h hx)]
  simp

theorem takeWhile_of_notMem {a : Bytes} {c : Byte} (h : c ∉ a) :
    a.takeWhile (· ≠ c) = a := by
  rw [List.takeWhile_eq_self_iff]
  intro x hx
  simp only [ne_eq, decide_not, Bool.not_eq_true', decide_eq_false_iff_not]
  rintro rfl
  exact h hx

theorem sizeAdd_of_lt {a b : Nat} (h : a + b < 2 ^ 64) : sizeAdd a b = a + b :=
  Nat.mod_eq_of_lt h

theorem sizeSub_of_le {a b : Nat} (hle : b ≤ a) (ha : a < 2 ^ 64) :
    sizeSub a b = a - b := by
  have hsum : a + (2 ^ 64 - b) = (a - b) + 2 ^ 64 := by omega
  rw [sizeSub, hsum, Nat.add_mod_right, Nat.mod_eq_of_lt (by omega)]

/-- A difference below zero wraps to a huge position. -/
theorem sizeSub_of_lt {a b : Nat} (hlt : a < b) (hb : b < 2 ^ 64) :
    sizeSub a b = 2 ^ 64 - (b - a) := by
  rw [sizeSub, Nat.mod_eq_of_lt (by omega)]
  omega

theorem substr_before {a : Bytes} {c : Byte} (h : c ∉ a) (b : Bytes) :
    substr (a ++ c :: b) 0 (find (a ++ c :: b) c) = .ok a := by
  rw [find_append_of_notMem h, substr_of_le (by omega)]
  simp

theorem substr_after {a b : Bytes} {c : Byte} (hlen : (a ++ c :: b).length < 2 ^ 64)
    (count : Nat) :
    substr (a ++ c :: b) (sizeAdd a.length 1) count = .ok (b.take count) := by
  simp only [List.length_append, List.length_cons] at hlen
  rw [sizeAdd_of_lt (by omega), substr_of_le (by simp)]
  congr 2
  simp

end StdString

/-- A C string as a pointer to it shows it: no terminator inside, and short
enough that the length of a line made of a few of them fits in an `int`. -/
structure CString where
  bytes : Bytes
  noNul : 0 ∉ bytes
  length_lt : bytes.length < 2 ^ 29
