import SentryCpp.Backtrace.Accepted
import SentryCpp.Foundation.Memory

/-!
The two passes of `translateAddressesBuf`. The first one measures the lines,
then one block is allocated for the pointers and the lines, and the second pass
is to write line after line into it. But the place to write to moves on only
behind the loop. So all lines are written to one place, each of them over the
one before, and all pointers are equal.
-/

namespace Sentry.Backtrace

open StdString Memory

/-- The variables of the function. A pointer is an offset in the block; in the
first pass, which writes nothing, the block is empty. -/
structure LineBuffer where
  pointers : List Nat
  block : Block
  buf : Nat
  len : UInt32
  total : UInt32

namespace LineBuffer

def start : LineBuffer := ⟨[], [], 0, 0, 0⟩

/-- `static_cast<uint32_t>(snprintf(..) + 1)`. The sum is an `int`. -/
def lineSize (line : Bytes) : Option UInt32 :=
  if printedLength line + 1 ≤ intMax then some (UInt32.ofInt (printedLength line + 1)) else none

/-- The body of the loop over the addresses. -/
def body (state : Nat) (m : LineBuffer) (line : Bytes) : Option LineBuffer := do
  let pointers := if state = 1 then m.pointers ++ [m.buf] else m.pointers
  let block ← store m.block m.buf (printed m.len.toNat line)
  let size ← lineSize line
  return { m with pointers, block, total := m.total + size }

/-- One round of the loop over `state`. -/
def pass (state : Nat) (lines : List Bytes) (m : LineBuffer) : Option LineBuffer := do
  let m :=
    if state = 1 then
      { m with
        block := malloc (m.total.toNat + 8 * lines.length)
        buf := 8 * lines.length
        len := m.total }
    else m
  let m ← lines.foldlM (body state) m
  return if state = 1 then { m with buf := m.buf + m.total.toNat + 1 } else m

/-- The loop over `state`. An undefined write, or an undefined sum, is `none`. -/
def passes (lines : List Bytes) : Option LineBuffer := do
  let m ← start.pass 0 lines
  m.pass 1 lines

end LineBuffer

section Writer

variable (demangle : CString → Option CString)

/-- The lines for the addresses. -/
def linesOf (addresses : List (UInt64 × Option FileLineDesc)) : List Bytes :=
  addresses.map fun address => translateAddress demangle address.1 address.2

def translateAddressesBuf (addresses : List (UInt64 × Option FileLineDesc)) :
    Option LineBuffer :=
  LineBuffer.passes (linesOf demangle addresses)

end Writer

/-- There is a pointer for each line, to the line and its terminator. The
block has room for the pointers and the lines, and the lines lie side by side
behind the pointers. -/
structure Separated (lines : List Bytes) (m : LineBuffer) : Prop where
  pointers : m.pointers.length = lines.length
  size : m.block.length = 8 * lines.length + (lines.map fun line => line.length + 1).sum
  holds : ∀ (i : Nat) (line : Bytes) (pointer : Nat), lines[i]? = some line →
    m.pointers[i]? = some pointer →
    8 * lines.length ≤ pointer ∧ load m.block pointer (line.length + 1) = (line ++ [0]).map some
  disjoint : ∀ (i j : Nat) (line line' : Bytes) (pointer pointer' : Nat), i < j →
    lines[i]? = some line → lines[j]? = some line' →
    m.pointers[i]? = some pointer → m.pointers[j]? = some pointer' →
    pointer + line.length + 1 ≤ pointer' ∨ pointer' + line'.length + 1 ≤ pointer

namespace LineBuffer

theorem body_cases {state : Nat} {m m' : LineBuffer} {line : Bytes}
    (h : m.body state line = some m') :
    ∃ block size, store m.block m.buf (printed m.len.toNat line) = some block ∧
      lineSize line = some size ∧
      m' = { m with
        pointers := if state = 1 then m.pointers ++ [m.buf] else m.pointers
        block
        total := m.total + size } := by
  unfold body at h
  simp only [bind, Option.bind_eq_some_iff] at h
  obtain ⟨block, hstore, size, hsize, hm⟩ := h
  cases hm
  exact ⟨block, size, hstore, hsize, rfl⟩

/-- The place to write to is the same in all rounds, so that all pointers are
equal. -/
theorem rounds_cases {state : Nat} {lines : List Bytes} {m m' : LineBuffer}
    (h : lines.foldlM (body state) m = some m') :
    m'.buf = m.buf ∧ m'.block.length = m.block.length ∧
      m'.pointers =
        m.pointers ++ if state = 1 then List.replicate lines.length m.buf else [] := by
  induction lines generalizing m with
  | nil =>
      cases h
      simp
  | cons line lines ih =>
      simp only [List.foldlM_cons, bind, Option.bind_eq_some_iff] at h
      obtain ⟨next, hbody, hrest⟩ := h
      obtain ⟨block, size, hstore, -, rfl⟩ := body_cases hbody
      obtain ⟨hbuf, hblock, hpointers⟩ := ih hrest
      refine ⟨hbuf, hblock.trans (length_store hstore), ?_⟩
      rw [hpointers]
      split
      · rw [List.append_assoc, List.length_cons, List.replicate_succ]
        rfl
      · rfl

theorem pointers_passes {lines : List Bytes} {m : LineBuffer} (h : passes lines = some m) :
    m.pointers = List.replicate lines.length (8 * lines.length) := by
  simp only [passes, pass, bind, Option.bind_eq_some_iff] at h
  obtain ⟨measured, ⟨m₀, hfirst, hmeasured⟩, m₁, hsecond, hm⟩ := h
  cases hmeasured
  cases hm
  obtain ⟨-, -, hnone⟩ := rounds_cases hfirst
  obtain ⟨-, -, hpointers⟩ := rounds_cases hsecond
  simp only [if_neg (show (0 : Nat) ≠ 1 by decide), if_pos, List.append_nil] at hnone hpointers ⊢
  rw [hpointers, hnone]
  rfl

/-- While the place and the room behind it are in the block, only a sum can be
undefined. -/
theorem rounds_isSome_iff (state : Nat) (lines : List Bytes) {m : LineBuffer}
    (hroom : m.buf + m.len.toNat ≤ m.block.length) :
    (lines.foldlM (body state) m).isSome = true ↔
      ∀ line ∈ lines, (lineSize line).isSome = true := by
  induction lines generalizing m with
  | nil => simp
  | cons line lines ih =>
      have hwritten := length_printed_le m.len.toNat line
      have hstore : ∃ block, store m.block m.buf (printed m.len.toNat line) = some block :=
        ⟨_, if_pos (by omega)⟩
      obtain ⟨block, hblock⟩ := hstore
      rw [List.foldlM_cons, List.forall_mem_cons]
      cases hsize : lineSize line with
      | none => simp [body, hblock, hsize]
      | some size =>
          simp only [body, hblock, hsize, bind, Option.bind, Option.isSome_some, true_and]
          apply ih
          change m.buf + m.len.toNat ≤ block.length
          rw [length_store hblock]
          exact hroom

/-- No write goes past the block, whatever the lines are. -/
theorem passes_isSome_iff (lines : List Bytes) :
    (passes lines).isSome = true ↔ ∀ line ∈ lines, (lineSize line).isSome = true := by
  have hfirst := rounds_isSome_iff 0 lines (m := start) (Nat.le_refl 0)
  rw [← hfirst]
  simp only [passes, pass, bind]
  cases hrounds : lines.foldlM (body 0) start with
  | none => simp [hrounds]
  | some measured =>
      have hsecond := rounds_isSome_iff 1 lines (m := { measured with
        block := malloc (measured.total.toNat + 8 * lines.length)
        buf := 8 * lines.length
        len := measured.total }) (by simp [malloc]; omega)
      have hmeasured : ∀ line ∈ lines, (lineSize line).isSome = true :=
        hfirst.mp (by rw [hrounds]; rfl)
      obtain ⟨filled, hfilled⟩ := Option.isSome_iff_exists.mp (hsecond.mpr hmeasured)
      simp [hrounds, hfilled]

/-- Two lines are never side by side. -/
theorem length_le_of_separated {lines : List Bytes} {m : LineBuffer} (h : passes lines = some m)
    (hm : Separated lines m) : lines.length ≤ 1 := by
  by_contra hmany
  have hpointers := pointers_passes h
  have hpointer (i : Nat) (hi : i < 2) : m.pointers[i]? = some (8 * lines.length) := by
    rw [hpointers, List.getElem?_replicate, if_pos (by omega)]
  have hapart := hm.disjoint 0 1 lines[0] lines[1] _ _ (by omega) (List.getElem?_eq_getElem _)
    (List.getElem?_eq_getElem _) (hpointer 0 (by omega)) (hpointer 1 (by omega))
  omega

/-- What the function does with a single line. -/
theorem passes_singleton (line : Bytes) :
    passes [line] = (lineSize line).bind fun size =>
      (store (malloc (size.toNat + 8)) 8 (printed size.toNat line)).map fun block =>
        ⟨[8], block, 8 + (size + size).toNat + 1, size, size + size⟩ := by
  have hempty : store [] 0 (printed 0 line) = some [] := rfl
  cases hsize : lineSize line with
  | none => simp [passes, pass, body, start, hempty, hsize]
  | some size =>
      cases hstore : store (malloc (size.toNat + 8)) 8 (printed size.toNat line) <;>
        simp [passes, pass, body, start, hempty, hsize, hstore]

theorem lineSize_of_lt {line : Bytes} (h : line.length < intMax) :
    ∃ size, lineSize line = some size ∧ size.toNat = line.length + 1 := by
  have hmax : intMax = 2147483647 := rfl
  have hlength : printedLength line = line.length := if_pos (by omega)
  refine ⟨_, if_pos (by omega), ?_⟩
  rw [hlength, UInt32.ofInt, UInt32.toNat_ofNat']
  omega

/-- The longest line that can be measured is one byte short of the largest
`int`. -/
theorem lt_of_lineSize {line : Bytes} {size : UInt32} (h : lineSize line = some size)
    (hsize : size.toNat = line.length + 1) : line.length < intMax := by
  unfold lineSize at h
  split at h
  · rename_i hsum
    by_contra hlong
    rw [printedLength] at hsum h
    split at h
    · rename_i hfits
      rw [if_pos hfits] at hsum
      omega
    · cases h
      have hzero : (UInt32.ofInt (-1 + 1)).toNat = 0 := by decide
      omega
  · cases h

theorem separated_singleton {line : Bytes} (h : line.length < intMax) :
    ∃ m, passes [line] = some m ∧ Separated [line] m := by
  obtain ⟨size, hsize, hnat⟩ := lineSize_of_lt h
  have hprinted : printed size.toNat line = line ++ [0] := printed_of_lt (by omega)
  have hfits : 8 + (line ++ [0]).length ≤ (malloc (size.toNat + 8)).length := by
    rw [malloc, List.length_replicate, List.length_append, List.length_singleton]
    omega
  obtain ⟨block, hblock⟩ : ∃ block, store (malloc (size.toNat + 8)) 8 (line ++ [0]) = some block :=
    ⟨_, if_pos hfits⟩
  refine ⟨_, by rw [passes_singleton, hsize, Option.bind_some, hprinted, hblock, Option.map_some],
    rfl, ?_, ?_, ?_⟩
  · rw [length_store hblock, malloc, List.length_replicate, hnat]
    simp only [List.length_singleton, List.map_cons, List.map_nil, List.sum_cons, List.sum_nil]
    omega
  · intro i line' pointer hline hpointer
    obtain ⟨rfl, rfl⟩ : i = 0 ∧ line = line' := by
      cases i with
      | zero => exact ⟨rfl, Option.some.inj hline⟩
      | succ i => cases hline
    obtain rfl : 8 = pointer := Option.some.inj hpointer
    refine ⟨Nat.le_refl _, ?_⟩
    have hload := load_store hblock
    rwa [List.length_append, List.length_singleton] at hload
  · intro i j line₁ line₂ pointer₁ pointer₂ hlt hfirst hsecond
    cases j with
    | zero => omega
    | succ j => cases hsecond

/-- The lines lie side by side if and only if there is at most one, and it can
be measured. -/
theorem separated_iff (lines : List Bytes) :
    (∃ m, passes lines = some m ∧ Separated lines m) ↔
      lines.length ≤ 1 ∧ ∀ line ∈ lines, line.length < intMax := by
  constructor
  · rintro ⟨m, hpasses, hm⟩
    have hfew := length_le_of_separated hpasses hm
    refine ⟨hfew, ?_⟩
    intro line hline
    obtain rfl : lines = [line] := by
      cases lines with
      | nil => cases hline
      | cons first rest =>
          obtain rfl : rest = [] := List.length_eq_zero_iff.mp (by simpa using hfew)
          rw [List.mem_singleton.mp hline]
    rw [passes_singleton] at hpasses
    obtain ⟨size, hsize, hmap⟩ := Option.bind_eq_some_iff.mp hpasses
    obtain ⟨block, hstore, rfl⟩ := Option.map_eq_some_iff.mp hmap
    apply lt_of_lineSize hsize
    have hblock := hm.size
    rw [length_store hstore, malloc, List.length_replicate] at hblock
    simp only [List.length_singleton, List.map_cons, List.map_nil, List.sum_cons,
      List.sum_nil] at hblock
    omega
  · rintro ⟨hfew, hlength⟩
    cases lines with
    | nil => exact ⟨_, rfl, rfl, rfl, by simp, by simp⟩
    | cons line rest =>
        obtain rfl : rest = [] := List.length_eq_zero_iff.mp (by simpa using hfew)
        exact separated_singleton (hlength line List.mem_cons_self)

end LineBuffer

variable (demangle : CString → Option CString)

/-- Every address has its line in the block of `translateAddressesBuf`, apart
from the other lines, if and only if there is no second address. -/
theorem translateAddressesBuf_separated_iff (addresses : List (UInt64 × Option FileLineDesc)) :
    (∃ m, translateAddressesBuf demangle addresses = some m ∧
      Separated (linesOf demangle addresses) m) ↔ addresses.length ≤ 1 := by
  rw [translateAddressesBuf, LineBuffer.separated_iff, linesOf, List.length_map,
    and_iff_left_iff_imp]
  intro _ line hline
  obtain ⟨address, -, rfl⟩ := List.mem_map.mp hline
  have hmax : intMax = 2147483647 := rfl
  have hlength := length_translateAddress_le demangle address.1 address.2
  omega

/-- With two addresses that are not found, both pointers show the second
line. -/
theorem translateAddressesBuf_two :
    ¬ ∀ (demangle : CString → Option CString) (addresses : List (UInt64 × Option FileLineDesc)),
      addresses ≠ [] → ∃ m, translateAddressesBuf demangle addresses = some m ∧
        Separated (linesOf demangle addresses) m := by
  intro hall
  obtain ⟨m, hm, hseparated⟩ := hall (fun _ => none) [(1, none), (2, none)] (by simp)
  have hfew := LineBuffer.length_le_of_separated hm hseparated
  revert hfew
  simp [linesOf]

end Sentry.Backtrace
