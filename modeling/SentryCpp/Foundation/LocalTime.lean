import SentryCpp.Foundation.Calendar

/-!
From the text of an instant back to the instant: `strptime` with `%FT%TZ` and
`mktime`. `strptime` writes the fields that its format names into a `struct tm`
and leaves the others as they are. `mktime` takes the fields for a local time,
so that the offset of the zone at that time is subtracted; which offset this is
depends on `tm_isdst` as well.

The calendar is inverted in `secondsOf_into`: the fields that `gmtime` makes of
an instant count as many seconds as have passed since 1970.
-/

namespace Calendar

open StdString Number

/-- The fields of `struct tm` that `strptime` writes or `mktime` reads. -/
structure Tm where
  sec : Int
  min : Int
  hour : Int
  mday : Int
  mon : Int
  year : Int
  isdst : Int
  deriving DecidableEq, Repr

/-- The fields that the format names, written over those of `tm`. -/
def DateTime.into (t : DateTime) (tm : Tm) : Tm where
  sec := t.second
  min := t.minute
  hour := t.hour
  mday := t.day
  mon := t.month - 1
  year := t.year - 1900
  isdst := tm.isdst

section Scan

/-- At most `width` further digits, as long as the number may stay below
`hi`. -/
def scanDigits (hi : Nat) : Nat → Nat → Bytes → Nat × Bytes
  | 0, value, s => (value, s)
  | _ + 1, value, [] => (value, [])
  | width + 1, value, c :: s =>
      match digitOf 10 c with
      | some d =>
          if value * 10 ≤ hi then scanDigits hi width (value * 10 + d) s else (value, c :: s)
      | none => (value, c :: s)

/-- A number from `lo` to `hi`, behind any white space. -/
def scanNumber (lo hi width : Nat) (s : Bytes) : Option (Nat × Bytes) :=
  let s := s.dropWhile isSpace
  let (value, rest) := scanDigits hi width 0 s
  if (s.head?.bind (digitOf 10)).isSome ∧ lo ≤ value ∧ value ≤ hi then some (value, rest)
  else none

inductive Directive where
  | literal (c : Byte)
  | number (lo hi width : Nat) (store : Nat → Tm → Tm)

/-- The directives up to the first that does not match. -/
def scan : List Directive → Bytes → Tm → Tm
  | [], _, tm => tm
  | .literal c :: directives, s, tm =>
      match s with
      | b :: rest => if b = c then scan directives rest tm else tm
      | [] => tm
  | .number lo hi width store :: directives, s, tm =>
      match scanNumber lo hi width s with
      | some (value, rest) => scan directives rest (store value tm)
      | none => tm

/-- `%FT%TZ`. -/
def isoDirectives : List Directive :=
  [.number 0 9999 4 fun value tm => { tm with year := value - 1900 }, .literal 45,
    .number 1 12 2 fun value tm => { tm with mon := value - 1 }, .literal 45,
    .number 1 31 2 fun value tm => { tm with mday := value }, .literal 84,
    .number 0 23 2 fun value tm => { tm with hour := value }, .literal 58,
    .number 0 59 2 fun value tm => { tm with min := value }, .literal 58,
    .number 0 61 2 fun value tm => { tm with sec := value }, .literal 90]

/-- `strptime(timestamp, "%FT%TZ", &tm)`. -/
def strptime (timestamp : Bytes) (tm : Tm) : Tm := scan isoDirectives timestamp tm

end Scan

/-- The number of a day, counted from the first of January 1970. -/
def daysFromCivil (year month day : Int) : Int :=
  let year := if month ≤ 2 then year - 1 else year
  let yearOfEra := year % 400
  let march := if 2 < month then month - 3 else month + 9
  let dayOfYear := (153 * march + 2) / 5 + day - 1
  let dayOfEra := yearOfEra * 365 + yearOfEra / 4 - yearOfEra / 100 + dayOfYear
  year / 400 * 146097 + dayOfEra - 719468

/-- The seconds since 1970 that the fields count, months beyond the year
carried. -/
def secondsOf (tm : Tm) : Int :=
  daysFromCivil (tm.year + 1900 + tm.mon / 12) (tm.mon % 12 + 1) tm.mday * 86400 +
    tm.hour * 3600 + tm.min * 60 + tm.sec

/-- The local time zone of a process: what lies between a local time, given by
the seconds that its fields count and by `tm_isdst`, and UTC. -/
structure Zone where
  offset : Int → Int → Int
  offset_lt : ∀ seconds isdst, |offset seconds isdst| < 2 ^ 32

def Zone.mktime (zone : Zone) (tm : Tm) : Int :=
  secondsOf tm - zone.offset (secondsOf tm) tm.isdst

/-- The last second of the year 9999. -/
def lastInstant : Nat := 253402300799

example : iso8601 lastInstant = lit "9999-12-31T23:59:59Z" := by decide

example (tm : Tm) : secondsOf (strptime (lit "2011-10-08T07:07:09Z") tm) = 1318057629 := rfl

/-- A number of two digits. -/
theorem padded_two {n : Nat} (h : n < 100) :
    padded 2 n = [digitChar (n / 10), digitChar (n % 10)] := by
  have hall : (List.range 100).all
      (fun n => padded 2 n == [digitChar (n / 10), digitChar (n % 10)]) = true := by decide
  simpa using List.all_eq_true.mp hall n (List.mem_range.mpr h)

theorem digits_four {n : Nat} (hlo : 1000 ≤ n) (hhi : n ≤ 9999) :
    Nat.digits 10 n = [n % 10, n / 10 % 10, n / 100 % 10, n / 1000] := by
  have hone : n / 10 / 10 = n / 100 := by omega
  have htwo : n / 100 / 10 = n / 1000 := by omega
  have hlast : n / 1000 % 10 = n / 1000 := by omega
  have hnone : n / 1000 / 10 = 0 := by omega
  rw [Nat.digits_def' (by decide) (by omega), Nat.digits_def' (by decide) (by omega), hone,
    Nat.digits_def' (by decide) (by omega), htwo, Nat.digits_def' (by decide) (by omega), hlast,
    hnone, Nat.digits_zero]

theorem padded_four {n : Nat} (hlo : 1000 ≤ n) (hhi : n ≤ 9999) :
    padded 4 n = [digitChar (n / 1000), digitChar (n / 100 % 10), digitChar (n / 10 % 10),
      digitChar (n % 10)] := by
  have hprint : print 10 n = [digitChar (n / 1000), digitChar (n / 100 % 10),
      digitChar (n / 10 % 10), digitChar (n % 10)] := by
    rw [print, if_neg (by omega), digits_four hlo hhi]
    rfl
  rw [padded, hprint]
  rfl

theorem scanDigits_digitChar {hi value d : Nat} (hd : d < 10) (h : value * 10 ≤ hi) (width : Nat)
    (s : Bytes) :
    scanDigits hi (width + 1) value (digitChar d :: s) =
      scanDigits hi width (value * 10 + d) s := by
  rw [scanDigits, digitOf_digitChar (by omega) hd]
  simp [h]

/-- A number that starts with a digit, read up to `rest`. -/
theorem scanNumber_of_scanDigits {lo hi width d value : Nat} {s rest : Bytes} (hd : d < 10)
    (hscan : scanDigits hi width 0 (digitChar d :: s) = (value, rest)) (hlo : lo ≤ value)
    (hhi : value ≤ hi) : scanNumber lo hi width (digitChar d :: s) = some (value, rest) := by
  have hdrop : (digitChar d :: s).dropWhile isSpace = digitChar d :: s := by
    simp [(digitChar_plain hd).1]
  have hdigit : digitOf 10 (digitChar d) = some d := digitOf_digitChar (by omega) hd
  simp [scanNumber, hdrop, hscan, hdigit, hlo, hhi]

theorem scanNumber_padded_two {lo hi n : Nat} (hn : n < 100) (hlo : lo ≤ n) (hhi : n ≤ hi)
    (rest : Bytes) : scanNumber lo hi 2 (padded 2 n ++ rest) = some (n, rest) := by
  rw [padded_two hn, List.cons_append, List.cons_append, List.nil_append]
  apply scanNumber_of_scanDigits (by omega) _ hlo hhi
  rw [scanDigits_digitChar (by omega) (by omega),
    scanDigits_digitChar (by omega) (by omega), scanDigits]
  congr 1
  omega

theorem scanNumber_padded_four {n : Nat} (hlo : 1000 ≤ n) (hhi : n ≤ 9999) (rest : Bytes) :
    scanNumber 0 9999 4 (padded 4 n ++ rest) = some (n, rest) := by
  rw [padded_four hlo hhi]
  simp only [List.cons_append, List.nil_append]
  apply scanNumber_of_scanDigits (by omega) _ (Nat.zero_le n) hhi
  rw [scanDigits_digitChar (by omega) (by omega), scanDigits_digitChar (by omega) (by omega),
    scanDigits_digitChar (by omega) (by omega), scanDigits_digitChar (by omega) (by omega),
    scanDigits]
  congr 1
  omega

theorem scan_number {lo hi width value : Nat} {store : Nat → Tm → Tm} {s rest : Bytes}
    (h : scanNumber lo hi width s = some (value, rest)) (directives : List Directive) (tm : Tm) :
    scan (.number lo hi width store :: directives) s tm =
      scan directives rest (store value tm) := by
  rw [scan, h]

theorem scan_literal (c : Byte) (directives : List Directive) (rest : Bytes) (tm : Tm) :
    scan (.literal c :: directives) (c :: rest) tm = scan directives rest tm := by
  simp [scan]

/-- The fields are in the ranges of a calendar and a clock, the year has four
digits. -/
structure DateTime.InRange (t : DateTime) : Prop where
  year : 1000 ≤ t.year ∧ t.year ≤ 9999
  month : 1 ≤ t.month ∧ t.month ≤ 12
  day : 1 ≤ t.day ∧ t.day ≤ 31
  hour : t.hour ≤ 23
  minute : t.minute ≤ 59
  second : t.second ≤ 59

/-- `strptime` reads back what `strftime` has written. -/
theorem strptime_format {t : DateTime} (h : t.InRange) (tm : Tm) :
    strptime t.format tm = t.into tm := by
  obtain ⟨hyear, hmonth, hday, hhour, hminute, hsecond⟩ := h
  have hlit : lit "-" = [45] ∧ lit "T" = [84] ∧ lit ":" = [58] ∧ lit "Z" = [90] := by decide
  simp only [DateTime.format, hlit, List.append_assoc, List.cons_append, List.nil_append]
  rw [strptime, isoDirectives,
    scan_number (scanNumber_padded_four hyear.1 hyear.2 _), scan_literal,
    scan_number (scanNumber_padded_two (by omega) hmonth.1 hmonth.2 _), scan_literal,
    scan_number (scanNumber_padded_two (by omega) hday.1 hday.2 _), scan_literal,
    scan_number (scanNumber_padded_two (by omega) (Nat.zero_le _) hhour _), scan_literal,
    scan_number (scanNumber_padded_two (by omega) (Nat.zero_le _) hminute _), scan_literal,
    scan_number (scanNumber_padded_two (by omega) (Nat.zero_le _) (by omega) _), scan_literal,
    scan]
  rfl

section Civil

/-- The year of an era that the day `day` of the era is in. -/
def yearOfEraOf (day : Nat) : Nat := (day - day / 1460 + day / 36524 - day / 146096) / 365

/-- The first day of a year of an era. -/
def startOfYear (year : Nat) : Nat := 365 * year + year / 4 - year / 100

theorem yearOfEraOf_mono {a b : Nat} (h : a ≤ b) (hb : b < 146097) :
    yearOfEraOf a ≤ yearOfEraOf b := by
  apply Nat.div_le_div_right
  omega

theorem yearOfEraOf_le {day : Nat} (h : day < 146097) : yearOfEraOf day ≤ 399 := by
  unfold yearOfEraOf
  omega

/-- The two ends of each year of an era. -/
theorem yearOfEraOf_ends {year : Nat} (h : year < 400) :
    yearOfEraOf (startOfYear year) = year ∧
      (year = 0 ∨ yearOfEraOf (startOfYear year - 1) = year - 1) := by
  have hall : (List.range 400).all (fun year => yearOfEraOf (startOfYear year) == year &&
      (year == 0 || yearOfEraOf (startOfYear year - 1) == year - 1)) = true := by
    decide +kernel
  simpa using List.all_eq_true.mp hall year (List.mem_range.mpr h)

/-- A day lies between the start of its year and that of the next one. -/
theorem startOfYear_le {day : Nat} (h : day < 146097) : startOfYear (yearOfEraOf day) ≤ day := by
  have hyear := yearOfEraOf_le h
  by_contra hlt
  obtain ⟨-, hzero | hend⟩ := yearOfEraOf_ends (Nat.lt_succ_of_le hyear)
  · rw [hzero] at hlt
    exact hlt (Nat.zero_le _)
  · have hbound : startOfYear (yearOfEraOf day) ≤ 145731 := by
      unfold startOfYear
      omega
    have hbefore : day ≤ startOfYear (yearOfEraOf day) - 1 := by omega
    have hmono := yearOfEraOf_mono hbefore (by omega)
    rw [hend] at hmono
    have hpos : yearOfEraOf day ≠ 0 := by
      intro hzero
      rw [hzero] at hlt
      exact hlt (Nat.zero_le _)
    omega

theorem day_le_startOfYear {day : Nat} (h : day < 146097) :
    day ≤ startOfYear (yearOfEraOf day) + 365 := by
  have hyear := yearOfEraOf_le h
  by_contra hlt
  rcases Nat.lt_or_ge (yearOfEraOf day + 1) 400 with hnext | hlast
  · obtain ⟨hstart, -⟩ := yearOfEraOf_ends hnext
    have hle : startOfYear (yearOfEraOf day + 1) ≤ day := by
      unfold startOfYear at hlt ⊢
      omega
    have hmono := yearOfEraOf_mono hle h
    rw [hstart] at hmono
    omega
  · have heq : yearOfEraOf day = 399 := by omega
    rw [heq, startOfYear] at hlt
    omega

/-- The date of a day of a year that starts in March. -/
def civilOf (era year dayOfYear : Nat) : Nat × Nat × Nat :=
  let march := (5 * dayOfYear + 2) / 153
  let month := if march < 10 then march + 3 else march - 9
  (year + era * 400 + if month ≤ 2 then 1 else 0, month,
    dayOfYear - (153 * march + 2) / 5 + 1)

theorem civil_split (days : Nat) :
    ∃ era year dayOfYear, year ≤ 399 ∧ dayOfYear ≤ 365 ∧
      days + 719468 = era * 146097 + startOfYear year + dayOfYear ∧
      civil days = civilOf era year dayOfYear := by
  have hday : (days + 719468) % 146097 < 146097 := Nat.mod_lt _ (by decide)
  have hlo := startOfYear_le hday
  have hhi := day_le_startOfYear hday
  refine ⟨(days + 719468) / 146097, yearOfEraOf ((days + 719468) % 146097),
    (days + 719468) % 146097 - startOfYear (yearOfEraOf ((days + 719468) % 146097)),
    yearOfEraOf_le hday, by omega, by omega, rfl⟩

/-- The month, counted from March, with its number and its days. -/
theorem month_cases {dayOfYear : Nat} (h : dayOfYear ≤ 365) :
    ∃ march month day, march = (5 * dayOfYear + 2) / 153 ∧
      ((march < 10 ∧ month = march + 3) ∨ (10 ≤ march ∧ march ≤ 11 ∧ month + 9 = march)) ∧
      (153 * march + 2) / 5 + day = dayOfYear + 1 ∧ 1 ≤ day ∧ day ≤ 31 ∧
      ∀ era year, civilOf era year dayOfYear =
        (year + era * 400 + if month ≤ 2 then 1 else 0, month, day) := by
  refine ⟨_, if (5 * dayOfYear + 2) / 153 < 10 then (5 * dayOfYear + 2) / 153 + 3
    else (5 * dayOfYear + 2) / 153 - 9,
    dayOfYear - (153 * ((5 * dayOfYear + 2) / 153) + 2) / 5 + 1, rfl, ?_, by omega, by omega,
    by omega, fun _ _ => rfl⟩
  split
  · omega
  · omega

/-- `daysFromCivil` inverts `civil`. -/
theorem daysFromCivil_civil (days : Nat) :
    daysFromCivil (civil days).1 (civil days).2.1 (civil days).2.2 = days := by
  obtain ⟨era, year, dayOfYear, hyear, hday, hdays, heq⟩ := civil_split days
  obtain ⟨march, month, day, -, hmonth, hsum, -, -, hdate⟩ := month_cases hday
  rw [heq, hdate]
  unfold startOfYear at hdays
  unfold daysFromCivil
  rcases hmonth with ⟨hlt, hmonth⟩ | ⟨hge, hle, hmonth⟩
  · have hsmall : ¬ month ≤ 2 := by omega
    have hsmall' : ¬ (month : Int) ≤ 2 := by omega
    have hbig : (2 : Int) < month := by omega
    simp only [hsmall, hsmall', hbig, if_true, if_false]
    omega
  · have hsmall : month ≤ 2 := by omega
    have hsmall' : (month : Int) ≤ 2 := by omega
    have hbig : ¬ (2 : Int) < month := by omega
    simp only [hsmall, hsmall', hbig, if_true, if_false]
    omega

theorem civil_month_day (days : Nat) :
    (1 ≤ (civil days).2.1 ∧ (civil days).2.1 ≤ 12) ∧
      1 ≤ (civil days).2.2 ∧ (civil days).2.2 ≤ 31 := by
  obtain ⟨era, year, dayOfYear, -, hday, -, heq⟩ := civil_split days
  obtain ⟨march, month, day, -, hmonth, -, hlo, hhi, hdate⟩ := month_cases hday
  have hrange : 1 ≤ month ∧ month ≤ 12 := by omega
  rw [heq, hdate]
  exact ⟨hrange, hlo, hhi⟩

/-- The years of the instants up to `lastInstant` have four digits. -/
theorem civil_year {days : Nat} (h : days ≤ 2932896) :
    1000 ≤ (civil days).1 ∧ (civil days).1 ≤ 9999 := by
  obtain ⟨era, year, dayOfYear, hyear, hday, hdays, heq⟩ := civil_split days
  obtain ⟨march, month, day, hmarch, hmonth, -, -, -, hdate⟩ := month_cases hday
  rw [heq, hdate]
  unfold startOfYear at hdays
  have hlo : 4 ≤ era := by omega
  have hhi : era ≤ 24 := by omega
  constructor
  · simp only
    omega
  · simp only
    -- the last year of the last era ends in December here
    split
    · have hlast : era ≤ 23 ∨ year ≤ 398 := by omega
      omega
    · omega

end Civil

theorem gmtime_inRange {instant : Nat} (h : instant ≤ lastInstant) :
    (gmtime instant).InRange := by
  unfold lastInstant at h
  have hdays : instant / 86400 ≤ 2932896 := by omega
  have hyear := civil_year hdays
  obtain ⟨hmonth, hday⟩ := civil_month_day (instant / 86400)
  have hday' : instant % 86400 < 86400 := Nat.mod_lt _ (by decide)
  refine ⟨hyear, hmonth, hday, ?_, ?_, ?_⟩ <;> simp only [gmtime] <;> omega

/-- The fields of an instant count the seconds up to it. -/
theorem secondsOf_into (instant : Nat) (tm : Tm) :
    secondsOf ((gmtime instant).into tm) = instant := by
  have hdays := daysFromCivil_civil (instant / 86400)
  obtain ⟨hmonth, -⟩ := civil_month_day (instant / 86400)
  simp only [secondsOf, DateTime.into, gmtime]
  have hyear : ((civil (instant / 86400)).1 : Int) - 1900 + 1900 +
      ((civil (instant / 86400)).2.1 - 1) / 12 = (civil (instant / 86400)).1 := by omega
  have hmonth' : (((civil (instant / 86400)).2.1 : Int) - 1) % 12 + 1 =
      (civil (instant / 86400)).2.1 := by omega
  rw [hyear, hmonth', hdays]
  omega

theorem strptime_iso8601 {instant : Nat} (h : instant ≤ lastInstant) (tm : Tm) :
    strptime (iso8601 instant) tm = (gmtime instant).into tm :=
  strptime_format (gmtime_inRange h) tm

/-- The text of an instant, read as a local time. -/
theorem mktime_strptime (zone : Zone) {instant : Nat} (h : instant ≤ lastInstant) (tm : Tm) :
    zone.mktime (strptime (iso8601 instant) tm) = instant - zone.offset instant tm.isdst := by
  rw [strptime_iso8601 h, Zone.mktime, secondsOf_into]
  rfl

end Calendar
