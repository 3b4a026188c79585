import SentryCpp.Foundation.Number
import SentryCpp.Foundation.Utf8

/-!
Instants as seconds since 1970 and their text in UTC, as `gmtime` and
`strftime` with `%FT%TZ` write it for four-digit years.
-/

namespace Calendar

open StdString Number

/-- The fields of `struct tm` that the format reads, with the full year and
the month from 1. -/
structure DateTime where
  year : Nat
  month : Nat
  day : Nat
  hour : Nat
  minute : Nat
  second : Nat
  deriving DecidableEq, Repr

/-- The date of a day number. Years are counted from March, in eras of 400
years, so that leap days come last. -/
def civil (days : Nat) : Nat × Nat × Nat :=
  let shifted := days + 719468
  let dayOfEra := shifted % 146097
  let yearOfEra := (dayOfEra - dayOfEra / 1460 + dayOfEra / 36524 - dayOfEra / 146096) / 365
  let dayOfYear := dayOfEra - (365 * yearOfEra + yearOfEra / 4 - yearOfEra / 100)
  let march := (5 * dayOfYear + 2) / 153
  let month := if march < 10 then march + 3 else march - 9
  let year := yearOfEra + shifted / 146097 * 400 + if month ≤ 2 then 1 else 0
  (year, month, dayOfYear - (153 * march + 2) / 5 + 1)

def gmtime (instant : Nat) : DateTime :=
  let (year, month, day) := civil (instant / 86400)
  let second := instant % 86400
  ⟨year, month, day, second / 3600, second % 3600 / 60, second % 60⟩

/-- A number in at least `width` digits. -/
def padded (width n : Nat) : Bytes :=
  List.replicate (width - (print 10 n).length) 48 ++ print 10 n

/-- `%FT%TZ`. -/
def DateTime.format (t : DateTime) : Bytes :=
  padded 4 t.year ++ lit "-" ++ padded 2 t.month ++ lit "-" ++ padded 2 t.day ++ lit "T" ++
    padded 2 t.hour ++ lit ":" ++ padded 2 t.minute ++ lit ":" ++ padded 2 t.second ++ lit "Z"

def iso8601 (instant : Nat) : Bytes := (gmtime instant).format

example : iso8601 1318057629 = lit "2011-10-08T07:07:09Z" := by decide

theorem digitChar_ascii {d : Nat} (h : d < 16) : digitChar d ≤ 0x7F := by
  have hall : ∀ e ∈ List.range 16, digitChar e ≤ 0x7F := by decide
  exact hall d (List.mem_range.mpr h)

theorem print_ascii (n : Nat) : ∀ b ∈ print 10 n, b ≤ 0x7F := by
  intro b hb
  obtain ⟨d, hd, rfl⟩ := exists_digit_of_mem_print (by decide) (by decide) hb
  exact digitChar_ascii hd

theorem padded_ascii (width n : Nat) : ∀ b ∈ padded width n, b ≤ 0x7F := by
  intro b hb
  rcases List.mem_append.mp hb with hzero | hdigit
  · rw [List.eq_of_mem_replicate hzero]
    decide
  · exact print_ascii n b hdigit

theorem iso8601_valid (instant : Nat) : Utf8.valid (iso8601 instant) = true := by
  have hpadded (width n : Nat) : Utf8.valid (padded width n) = true :=
    Utf8.valid_of_ascii (padded_ascii width n)
  have hdash : Utf8.valid (lit "-") = true := by decide
  have ht : Utf8.valid (lit "T") = true := by decide
  have hcolon : Utf8.valid (lit ":") = true := by decide
  have hz : Utf8.valid (lit "Z") = true := by decide
  simp only [iso8601, DateTime.format, List.append_assoc]
  simp only [Utf8.valid_append, hpadded, hdash, ht, hcolon, hz]

end Calendar
