import SentryCpp.Foundation.StdString

/-!
Well-formed UTF-8 as a table: the lead byte of a character determines how many
bytes follow it and the range of each. `accepts` reads a string with the
ranges that are still owed; a string is valid if it is read to its end and no
range is owed there.
-/

namespace Utf8

/-- The range of a byte that continues a character. -/
def tail : Byte × Byte := (0x80, 0xBF)

/-- The ranges of the bytes after a lead byte. -/
def following (b : Byte) : Option (List (Byte × Byte)) :=
  if b ≤ 0x7F then some []
  else if 0xC2 ≤ b ∧ b ≤ 0xDF then some [tail]
  else if b = 0xE0 then some [(0xA0, 0xBF), tail]
  else if b = 0xED then some [(0x80, 0x9F), tail]
  else if 0xE1 ≤ b ∧ b ≤ 0xEF then some [tail, tail]
  else if b = 0xF0 then some [(0x90, 0xBF), tail, tail]
  else if 0xF1 ≤ b ∧ b ≤ 0xF3 then some [tail, tail, tail]
  else if b = 0xF4 then some [(0x80, 0x8F), tail, tail]
  else none

/-- What is owed after one more byte. -/
def next (owed : List (Byte × Byte)) (b : Byte) : Option (List (Byte × Byte)) :=
  match owed with
  | [] => following b
  | range :: owed => if range.1 ≤ b ∧ b ≤ range.2 then some owed else none

def accepts : List (Byte × Byte) → Bytes → Bool
  | owed, [] => owed.isEmpty
  | owed, b :: s =>
      match next owed b with
      | some owed => accepts owed s
      | none => false

def valid (s : Bytes) : Bool := accepts [] s

@[simp]
theorem valid_nil : valid [] = true := rfl

theorem accepts_append {a : Bytes} {owed : List (Byte × Byte)} (ha : accepts owed a = true)
    (b : Bytes) : accepts owed (a ++ b) = valid b := by
  induction a generalizing owed with
  | nil =>
      cases owed with
      | nil => rfl
      | cons range owed => simp [accepts] at ha
  | cons c a ih =>
      simp only [accepts, List.cons_append] at ha ⊢
      cases hnext : next owed c with
      | none => simp [hnext] at ha
      | some owed' => exact ih (by simpa [hnext] using ha)

theorem valid_append {a : Bytes} (ha : valid a = true) (b : Bytes) :
    valid (a ++ b) = valid b :=
  accepts_append ha b

/-- Text without a byte from `0x80` on is valid. -/
theorem valid_of_ascii {s : Bytes} (h : ∀ b ∈ s, b ≤ 0x7F) : valid s = true := by
  induction s with
  | nil => rfl
  | cons b s ih =>
      have hb : next [] b = some [] := by simp [next, following, h b (by simp)]
      simp only [valid, accepts, hb]
      apply ih
      intro c hc
      exact h c (by simp [hc])

end Utf8
