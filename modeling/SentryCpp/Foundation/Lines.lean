import SentryCpp.Foundation.StdString

/-!
Text files read line by line: a `std::ifstream` with the two bits of its state
that reading sets, and `std::getline`.

The pieces of a file between its newlines are what `getline` gives one after
the other until the end of the file is seen. They are the lines of the file and,
behind a final newline, one more piece that is empty: the stream has seen the
end only when something was read against it.
-/

open StdString

structure IfStream where
  unread : Bytes
  eofbit : Bool
  failbit : Bool

namespace IfStream

/-- The stream when the file has been opened. -/
def opened (bytes : Bytes) : IfStream := ⟨bytes, false, false⟩

/-- `std::getline(file, line)`: the stream and the string afterwards. A stream
that is not good reads nothing and leaves the string as it is. -/
def getline (file : IfStream) (line : Bytes) : IfStream × Bytes :=
  if file.eofbit || file.failbit then ({ file with failbit := true }, line)
  else if 10 ∈ file.unread then
    ({ file with unread := (file.unread.dropWhile (· ≠ 10)).tail },
      file.unread.takeWhile (· ≠ 10))
  else (⟨[], true, file.unread.isEmpty⟩, file.unread)

/-- `file.read(buffer, n)`: the stream and the bytes that were read. -/
def read (file : IfStream) (n : Nat) : IfStream × Bytes :=
  if file.eofbit || file.failbit then ({ file with failbit := true }, [])
  else if n ≤ file.unread.length then
    ({ file with unread := file.unread.drop n }, file.unread.take n)
  else (⟨[], true, true⟩, file.unread)

/-- `file.get()` where the byte is not looked at. -/
def get (file : IfStream) : IfStream := (file.read 1).1

/-- What the stream still gives until it sees the end of the file. -/
def records (file : IfStream) : List Bytes :=
  if file.eofbit then [] else file.unread.splitOn 10

/-- Reading fails at the end of the file only. -/
def FailsAtEof (file : IfStream) : Prop := file.failbit = true → file.eofbit = true

theorem records_eq_nil_iff (file : IfStream) : file.records = [] ↔ file.eofbit = true := by
  rw [records]
  split
  · simp_all
  · simp_all

theorem failsAtEof_opened (bytes : Bytes) : (opened bytes).FailsAtEof := by
  intro h
  cases h

/-- `getline` takes the first of the records. -/
theorem getline_of_records {file : IfStream} (hfail : file.FailsAtEof) {record : Bytes}
    {rest : List Bytes} (h : file.records = record :: rest) (line : Bytes) :
    (file.getline line).2 = record ∧ (file.getline line).1.records = rest ∧
      (file.getline line).1.FailsAtEof := by
  have heof : file.eofbit = false := by
    rw [← Bool.not_eq_true, ← records_eq_nil_iff, h]
    simp
  have hgood : file.failbit = false := by
    rw [← Bool.not_eq_true]
    intro hbit
    exact Bool.false_ne_true (heof.symm.trans (hfail hbit))
  rw [records, heof, if_neg (by simp)] at h
  rw [getline, heof, hgood, if_neg (by simp)]
  split
  · rename_i hnewline
    obtain ⟨a, b, hunread, ha⟩ := List.eq_append_cons_of_mem hnewline
    rw [hunread, List.splitOn_append_cons_self_of_not_mem ha, List.cons.injEq] at h
    rw [hunread, takeWhile_append_of_notMem ha, dropWhile_append_of_notMem ha, List.tail_cons]
    refine ⟨h.1, h.2, ?_⟩
    intro hbit
    cases hbit
  · rename_i hnewline
    rw [List.splitOn_eq_singleton hnewline, List.cons.injEq] at h
    exact ⟨h.1, h.2, fun _ => rfl⟩

/-- A line that ends before the end of the file leaves a good stream. -/
theorem getline_opened {a : Bytes} (h : 10 ∉ a) (b line : Bytes) :
    (opened (a ++ 10 :: b)).getline line = (opened b, a) := by
  have hmem : 10 ∈ a ++ 10 :: b := by simp
  simp only [opened, getline, Bool.or_self, Bool.false_eq_true, if_false, if_pos hmem,
    takeWhile_append_of_notMem h, dropWhile_append_of_notMem h, List.tail_cons]

theorem read_opened {n : Nat} {bytes : Bytes} (h : n ≤ bytes.length) :
    (opened bytes).read n = (opened (bytes.drop n), bytes.take n) := by
  simp [opened, read, h]

theorem get_opened {bytes : Bytes} (h : 1 ≤ bytes.length) :
    (opened bytes).get = opened (bytes.drop 1) := by
  rw [get, read_opened h]

end IfStream

/-- The lines of a text. A final newline starts no further line. -/
def lines (bytes : Bytes) : List Bytes :=
  if bytes = [] ∨ bytes.getLast? = some 10 then (bytes.splitOn 10).dropLast
  else bytes.splitOn 10

theorem splitOn_of_getLast? {bytes : Bytes} (h : bytes.getLast? = some 10) :
    bytes.splitOn 10 = lines bytes ++ [[]] := by
  obtain ⟨front, rfl⟩ := List.getLast?_eq_some_iff.mp h
  rw [lines, if_pos (.inr h), List.splitOn_append_cons_self, List.splitOn_nil,
    List.dropLast_concat]

theorem splitOn_of_getLast?_ne {bytes : Bytes} (hne : bytes ≠ [])
    (h : bytes.getLast? ≠ some 10) : bytes.splitOn 10 = lines bytes := by
  rw [lines, if_neg (by simp [hne, h])]

theorem lines_nil : lines [] = [] := rfl

/-- A single newline is the text with one line, an empty one. -/
theorem lines_eq_singleton_nil_iff (bytes : Bytes) : lines bytes = [[]] ↔ bytes = [10] := by
  constructor
  · intro h
    have hjoin : [10].intercalate (bytes.splitOn 10) = bytes := List.intercalate_splitOn 10
    rcases eq_or_ne bytes [] with rfl | hne
    · cases h
    · by_cases hlast : bytes.getLast? = some 10
      · rw [splitOn_of_getLast? hlast, h] at hjoin
        exact hjoin.symm
      · rw [splitOn_of_getLast?_ne hne hlast, h] at hjoin
        exact absurd hjoin.symm hne
  · rintro rfl
    decide

theorem length_splitOn (bytes : Bytes) : (bytes.splitOn 10).length = bytes.count 10 + 1 := by
  induction bytes with
  | nil => simp
  | cons b bytes ih =>
      rw [List.splitOn_cons_eq_if_modifyHead, List.count_cons]
      split
      · rw [List.length_cons, ih]
      · rw [List.length_modifyHead, ih, Nat.add_zero]

theorem length_splitOn_le (bytes : Bytes) : (bytes.splitOn 10).length ≤ bytes.length + 1 := by
  rw [length_splitOn, Nat.add_le_add_iff_right]
  exact List.count_le_length

/-- Each line takes a byte at least. -/
theorem length_lines_le (bytes : Bytes) : (lines bytes).length ≤ bytes.length := by
  rcases eq_or_ne bytes [] with rfl | hne
  · simp [lines_nil]
  · by_cases hlast : bytes.getLast? = some 10
    · have hlen := length_splitOn_le bytes
      rw [splitOn_of_getLast? hlast, List.length_append, List.length_singleton] at hlen
      omega
    · rw [← splitOn_of_getLast?_ne hne hlast, length_splitOn]
      have hend := List.dropLast_concat_getLast hne
      have hcount : (bytes.dropLast).count 10 ≤ bytes.dropLast.length := List.count_le_length
      have hother : bytes.getLast hne ≠ 10 := by
        intro heq
        exact hlast (by rw [List.getLast?_eq_getLast_of_ne_nil hne, heq])
      have hpos := List.length_pos_of_ne_nil hne
      rw [← hend, List.count_append, List.count_singleton, if_neg (by simpa using hother),
        List.length_append, List.length_singleton]
      omega
