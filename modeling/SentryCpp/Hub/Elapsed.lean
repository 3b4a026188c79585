import SentryCpp.Foundation.LocalTime
import SentryCpp.Hub.Window

/-!
`isTimeDiffGreaterThan` on the timestamps of the hub. The two texts are in UTC,
but `mktime` takes them for local times, and what `tm_isdst` holds then is
whatever was on the stack. The result is that of the elapsed time as long as the
zone subtracts the same offset from both; where the offsets differ, it is that
of a time which is wrong by their difference.
-/

namespace Sentry

open StdString Calendar

/-- A `double`, as far as it is compared with whole numbers. -/
inductive Double where
  | nan
  | negInf
  | posInf
  | finite (value : Rat)
  deriving DecidableEq

/-- `diff > d`. -/
def Double.below (d : Double) (diff : Int) : Bool :=
  match d with
  | .nan => false
  | .negInf => true
  | .posInf => false
  | .finite value => decide (value < diff)

/-- `difftime(time1, time0)`. The double is exact, by `mktime_lt`. -/
def difftime (time1 time0 : Int) : Int := time1 - time0

def timeFromISO6801String (timestamp : Bytes) (timestampStruct : Tm) : Tm :=
  strptime timestamp timestampStruct

/-- `isTimeDiffGreaterThan`, where the two `struct tm` hold what they happen to
hold when they are declared. -/
def isTimeDiffGreaterThan (zone : Zone) (timeS1 timeS2 : Tm) (timestamp1 timestamp2 : Bytes)
    (diffInSeconds : Double) : Bool :=
  let timeS1 := timeFromISO6801String timestamp1 timeS1
  let timeS2 := timeFromISO6801String timestamp2 timeS2
  let time1 := zone.mktime timeS1
  let time2 := zone.mktime timeS2
  let diff := difftime time2 time1
  diffInSeconds.below diff

variable (zone : Zone) (timeS1 timeS2 : Tm) {t1 t2 : Nat}

/-- The times that are subtracted are whole numbers that a double holds. -/
theorem mktime_lt (tm : Tm) (h : t1 ≤ lastInstant) :
    |zone.mktime (strptime (iso8601 t1) tm)| < 2 ^ 52 := by
  have hoffset := zone.offset_lt t1 tm.isdst
  unfold lastInstant at h
  rw [mktime_strptime zone h, abs_lt]
  rw [abs_lt] at hoffset
  constructor <;> omega

/-- By how much the offset changes from the first time to the second. -/
def offsetChange (t1 t2 : Nat) : Int :=
  zone.offset t2 timeS2.isdst - zone.offset t1 timeS1.isdst

/-- The time that is compared is the elapsed time less the change of the
offset. -/
theorem isTimeDiffGreaterThan_eq (h1 : t1 ≤ lastInstant) (h2 : t2 ≤ lastInstant) (d : Double) :
    isTimeDiffGreaterThan zone timeS1 timeS2 (iso8601 t1) (iso8601 t2) d =
      d.below (t2 - t1 - offsetChange zone timeS1 timeS2 t1 t2) := by
  simp only [isTimeDiffGreaterThan, timeFromISO6801String, mktime_strptime zone h1,
    mktime_strptime zone h2, difftime, offsetChange]
  congr 1
  ring

/-- The bound lies from the smaller of two times up to the greater one. -/
def Double.Between (d : Double) (a b : Int) : Prop :=
  ∃ value : Rat, d = .finite value ∧ (min a b : Int) ≤ value ∧ value < (max a b : Int)

theorem below_eq_iff (d : Double) (a b : Int) : d.below a = d.below b ↔ ¬ d.Between a b := by
  cases d with
  | nan => simp [Double.below, Double.Between]
  | negInf => simp [Double.below, Double.Between]
  | posInf => simp [Double.below, Double.Between]
  | finite value =>
      simp only [Double.below, Double.Between, Double.finite.injEq, exists_eq_left',
        decide_eq_decide, Int.cast_min, Int.cast_max, min_le_iff, lt_max_iff]
      constructor
      · rintro hiff ⟨ha | hb, ha' | hb'⟩
        · exact ha.not_gt ha'
        · exact ha.not_gt (hiff.mpr hb')
        · exact hb.not_gt (hiff.mp ha')
        · exact hb.not_gt hb'
      · intro hout
        constructor
        · intro ha
          by_contra hb
          exact hout ⟨.inr (not_lt.mp hb), .inl ha⟩
        · intro hb
          by_contra ha
          exact hout ⟨.inl (not_lt.mp ha), .inr hb⟩

/-- The result is that of the elapsed time if and only if the bound does not lie
between the elapsed time and the time that the change of the offset makes of
it. -/
theorem isTimeDiffGreaterThan_elapsed_iff (h1 : t1 ≤ lastInstant) (h2 : t2 ≤ lastInstant)
    (d : Double) :
    isTimeDiffGreaterThan zone timeS1 timeS2 (iso8601 t1) (iso8601 t2) d = d.below (t2 - t1) ↔
      ¬ d.Between (t2 - t1 - offsetChange zone timeS1 timeS2 t1 t2) (t2 - t1) := by
  rw [isTimeDiffGreaterThan_eq zone timeS1 timeS2 h1 h2, below_eq_iff]

theorem between_self (a : Int) (d : Double) : ¬ d.Between a a := by
  rintro ⟨value, -, hlo, hhi⟩
  rw [min_self] at hlo
  rw [max_self] at hhi
  exact hlo.not_gt hhi

/-- It is for every bound if and only if both times have the same offset. -/
theorem elapsed_forall_iff (h1 : t1 ≤ lastInstant) (h2 : t2 ≤ lastInstant) :
    (∀ d, isTimeDiffGreaterThan zone timeS1 timeS2 (iso8601 t1) (iso8601 t2) d =
      d.below (t2 - t1)) ↔
      zone.offset t1 timeS1.isdst = zone.offset t2 timeS2.isdst := by
  simp only [isTimeDiffGreaterThan_eq zone timeS1 timeS2 h1 h2, below_eq_iff]
  constructor
  · intro hall
    by_contra hne
    have hout := hall (.finite (min (t2 - t1 - offsetChange zone timeS1 timeS2 t1 t2) (t2 - t1) :
      Int))
    apply hout
    refine ⟨_, rfl, le_rfl, ?_⟩
    rw [Int.cast_lt, min_lt_max]
    unfold offsetChange
    omega
  · intro heq d
    have hchange : offsetChange zone timeS1 timeS2 t1 t2 = 0 := by
      rw [offsetChange, heq, sub_self]
    rw [hchange, sub_zero]
    exact between_self _ d

/-- The platform of a process with this zone, where the two `struct tm` are
declared over the same remains each time. -/
def platformIn (rand : UInt32 → Nat) : Platform where
  isTimeDiffGreaterThan := fun timestamp1 timestamp2 diffInSeconds =>
    isTimeDiffGreaterThan zone timeS1 timeS2 timestamp1 timestamp2 (.finite diffInSeconds)
  rand := rand

theorem below_natCast (bound t1 t2 : Nat) :
    Double.below (.finite bound) (t2 - t1) = decide (t1 + bound < t2) := by
  rw [Double.below, decide_eq_decide, ← Int.cast_natCast bound, Int.cast_lt]
  omega

/-- In a zone whose offset never changes the differences are the true ones. -/
theorem trueDifferences_of_offset {offset : Int}
    (hzone : ∀ seconds isdst, zone.offset seconds isdst = offset) (rand : UInt32 → Nat)
    {calls : List Call}
    (hcalls : ∀ c ∈ calls, c.clock.timestamp ≤ lastInstant ∧ c.clock.currTime ≤ lastInstant) :
    TrueDifferences (platformIn zone timeS1 timeS2 rand) calls := by
  unfold TrueDifferences
  generalize Hub.maxEventsRepetitionIntervalInSeconds = bound
  intro c hc c' hc'
  have hsame : zone.offset c.clock.timestamp timeS1.isdst =
      zone.offset c'.clock.currTime timeS2.isdst := by rw [hzone, hzone]
  have helapsed := (elapsed_forall_iff zone timeS1 timeS2 (hcalls c hc).1 (hcalls c' hc').2).mpr
    hsame (.finite bound)
  rw [below_natCast] at helapsed
  exact helapsed

/-- An hour east of UTC, in summer two. -/
def summerZone : Zone where
  offset := fun _ isdst => if 0 < isdst then 7200 else 3600
  offset_lt := by
    intro _ isdst
    split <;> decide

/-- A `struct tm` with these remains in `tm_isdst`. -/
def remains (isdst : Int) : Tm := ⟨0, 0, 0, 0, 0, 0, isdst⟩

theorem isTimeDiffGreaterThan_elapsed_summerZone :
    isTimeDiffGreaterThan summerZone (remains 0) (remains 1) (iso8601 0) (iso8601 9000)
      (.finite 3600) = Double.below (.finite 3600) ((9000 : Nat) - (0 : Nat)) := by
  apply (isTimeDiffGreaterThan_elapsed_iff summerZone (remains 0) (remains 1) (by decide)
    (by decide) (.finite 3600)).mpr
  rintro ⟨value, hvalue, hlo, -⟩
  cases hvalue
  revert hlo
  decide

/-- The hour of the summer time is missing from an hour and a second. -/
theorem not_isTimeDiffGreaterThan_elapsed :
    ¬ ∀ (zone : Zone) (timeS1 timeS2 : Tm) (t1 t2 : Nat) (d : Double), t1 ≤ t2 →
      t2 ≤ lastInstant →
      isTimeDiffGreaterThan zone timeS1 timeS2 (iso8601 t1) (iso8601 t2) d =
        d.below (t2 - t1) := by
  intro hall
  have hwrong := hall summerZone (remains 0) (remains 1) 0 3601 (.finite 3600) (by decide)
    (by decide)
  rw [isTimeDiffGreaterThan_eq _ _ _ (by decide) (by decide)] at hwrong
  revert hwrong
  decide

end Sentry
