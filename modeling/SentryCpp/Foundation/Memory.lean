import SentryCpp.Foundation.StdString

/-!
One block of allocated memory. A place in it is an offset, and a cell without
a value was never written. A write that goes past the end of the block has no
defined behaviour, here `none`. `snprintf` writes no more than it is allowed
to, and a text that fits is there to be read with its terminator.
-/

namespace Memory

open StdString

abbrev Block := List (Option Byte)

def malloc (size : Nat) : Block := List.replicate size none

def store (block : Block) (offset : Nat) (bytes : Bytes) : Option Block :=
  if offset + bytes.length ≤ block.length then
    some (block.take offset ++ bytes.map some ++ block.drop (offset + bytes.length))
  else none

def load (block : Block) (offset size : Nat) : Block := (block.drop offset).take size

theorem length_store {block block' : Block} {offset : Nat} {bytes : Bytes}
    (h : store block offset bytes = some block') : block'.length = block.length := by
  unfold store at h
  split at h
  · cases h
    simp only [List.length_append, List.length_take, List.length_map, List.length_drop]
    omega
  · cases h

theorem load_store {block block' : Block} {offset : Nat} {bytes : Bytes}
    (h : store block offset bytes = some block') :
    load block' offset bytes.length = bytes.map some := by
  unfold store at h
  split at h
  · rename_i hfits
    cases h
    have hlength : (block.take offset).length = offset := by
      rw [List.length_take]
      omega
    rw [load, List.append_assoc, List.drop_append_of_le_length (by omega),
      List.drop_of_length_le (by omega), List.nil_append,
      List.take_append_of_le_length (by rw [List.length_map]), List.take_of_length_le]
    rw [List.length_map]
  · cases h

/-- What `snprintf` writes for a text, with room for `n` bytes. -/
def printed (n : Nat) (text : Bytes) : Bytes :=
  if n = 0 then [] else text.take (n - 1) ++ [0]

theorem length_printed_le (n : Nat) (text : Bytes) : (printed n text).length ≤ n := by
  unfold printed
  split
  · exact Nat.zero_le n
  · rw [List.length_append, List.length_take, List.length_singleton]
    omega

theorem printed_of_lt {n : Nat} {text : Bytes} (h : text.length < n) :
    printed n text = text ++ [0] := by
  rw [printed, if_neg (by omega), List.take_of_length_le (by omega)]

/-- The largest `int`. -/
def intMax : Nat := 2 ^ 31 - 1

/-- What `snprintf` returns: the length of the text, as far as an `int` can
hold it. -/
def printedLength (text : Bytes) : Int := if text.length ≤ intMax then text.length else -1

end Memory
