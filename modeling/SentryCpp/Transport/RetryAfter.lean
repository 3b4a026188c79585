import Mathlib.Data.Nat.ModEq
import SentryCpp.Transport.Answer

/-!
The pause that a 429 asks for. The client compares field names without regard
to case, and so does HTTP. `handleTooManyRequests` goes through the fields one
by one and knows a single spelling of `Retry-After`; and the product that turns
seconds into milliseconds wraps.
-/

namespace Sentry.Transport

open StdString Number SimpleWeb

/-- A field whose name is `Retry-After` in whatever letters. -/
def isRetryAfter (field : Bytes × Bytes) : Bool :=
  caseInsensitiveEqual field.1 (lit "Retry-After")

/-- There is one such field, with these digits for its value. -/
structure OneRetryAfter (header : Header) (name : Bytes) (digits : List Nat) : Prop where
  split : ∃ before after, header = before ++ (name, digits.map digitChar) :: after ∧
    ∀ field ∈ before ++ after, isRetryAfter field = false
  same : isRetryAfter (name, digits.map digitChar) = true
  ne_nil : digits ≠ []
  lt_ten : ∀ d ∈ digits, d < 10
  /-- `std::stoul` does not throw on the value. -/
  value_lt : valueOf 10 digits < 2 ^ 64

/-- The milliseconds of `seconds`, or the default where they are too many for
`uint64_t`. -/
def pauseFor (seconds : Nat) : Nat :=
  if 1000 * seconds < 2 ^ 64 then 1000 * seconds else reconnectionTimeoutMilliseconds

/-- The response is accepted as an answer and sets the pause to so many
milliseconds. -/
def PausesFor (t : Transport) (response : Response) (milliseconds : Nat) : Prop :=
  ∃ t', t.checkResponse response = (.ok true, t') ∧
    t'.retryAfterMilliseconds.toNat = milliseconds

theorem ne_of_isRetryAfter {field : Bytes × Bytes} (h : isRetryAfter field = false) :
    field.1 ≠ lit "Retry-After" := by
  intro heq
  rw [isRetryAfter, heq, caseInsensitiveEqual] at h
  simp at h

theorem retryAfterOf_append {before : Header}
    (h : ∀ field ∈ before, field.1 ≠ lit "Retry-After") (wait : UInt64) (rest : Header) :
    retryAfterOf wait (before ++ rest) = retryAfterOf wait rest := by
  induction before with
  | nil => rfl
  | cons field before ih =>
      rw [List.cons_append, retryAfterOf, if_neg (h field List.mem_cons_self)]
      exact ih fun other hother => h other (List.mem_cons_of_mem _ hother)

theorem retryAfterOf_of_ne {header : Header}
    (h : ∀ field ∈ header, field.1 ≠ lit "Retry-After") (wait : UInt64) :
    retryAfterOf wait header = (.ok (), wait) := by
  rw [← List.append_nil header, retryAfterOf_append h, retryAfterOf]

theorem pausesFor_iff (t : Transport) {response : Response}
    (hstatus : SimpleWeb.statusCode response.statusCode = .clientErrorTooManyRequests)
    {wait : UInt64} (hwait : retryAfterOf (UInt64.ofNat reconnectionTimeoutMilliseconds)
      response.header = (.ok (), wait)) (milliseconds : Nat) :
    PausesFor t response milliseconds ↔ wait.toNat = milliseconds := by
  have hresult : t.checkResponse response =
      (.ok true, { t with retryAfterMilliseconds := wait }.changeState .dropEvents) := by
    simp [checkResponse, hstatus, handleTooManyRequests, hwait]
  rw [PausesFor, hresult]
  constructor
  · rintro ⟨t', heq, htime⟩
    cases heq
    exact htime
  · intro htime
    exact ⟨_, rfl, htime⟩

/-- What is left of the one field by the loop. -/
theorem retryAfterOf_of_one {header : Header} {name : Bytes} {digits : List Nat}
    (h : OneRetryAfter header name digits) (wait : UInt64) :
    retryAfterOf wait header =
      (.ok (), if name = lit "Retry-After" then
        UInt64.ofNat (valueOf 10 digits * millisecondsInSecond) else wait) := by
  obtain ⟨before, after, rfl, hothers⟩ := h.split
  have hbefore : ∀ field ∈ before, field.1 ≠ lit "Retry-After" := by
    intro field hfield
    exact ne_of_isRetryAfter (hothers field (List.mem_append_left _ hfield))
  have hafter : ∀ field ∈ after, field.1 ≠ lit "Retry-After" := by
    intro field hfield
    exact ne_of_isRetryAfter (hothers field (List.mem_append_right _ hfield))
  rw [retryAfterOf_append hbefore, retryAfterOf]
  split
  · rw [stoul_map_digitChar h.ne_nil h.lt_ten h.value_lt]
    exact retryAfterOf_of_ne hafter _
  · exact retryAfterOf_of_ne hafter wait

/-- A product that wraps is the default for a few numbers of seconds. -/
theorem wrapped_eq_default_iff (seconds : Nat) :
    1000 * seconds % 2 ^ 64 = 10000 ↔ seconds % 2 ^ 61 = 10 := by
  have hleft : 1000 * seconds % 2 ^ 64 = 10000 ↔ 1000 * seconds ≡ 1000 * 10 [MOD 2 ^ 64] := Iff.rfl
  have hright : seconds % 2 ^ 61 = 10 ↔ seconds ≡ 10 [MOD 2 ^ 61] := Iff.rfl
  rw [hleft, hright]
  constructor
  · intro h
    have hcancel := Nat.ModEq.cancel_left_div_gcd (by decide) h
    have hmodulus : 2 ^ 64 / Nat.gcd (2 ^ 64) 1000 = 2 ^ 61 := by norm_num
    rwa [hmodulus] at hcancel
  · intro h
    have hscale := (h.mul_left' 8).mul_left 125
    rw [← mul_assoc, ← mul_assoc] at hscale
    exact hscale

theorem toNat_product (seconds : Nat) :
    (UInt64.ofNat (seconds * millisecondsInSecond)).toNat = 1000 * seconds % 2 ^ 64 := by
  rw [UInt64.toNat_ofNat', Nat.mul_comm]
  rfl

/-- The field is spelled as the loop looks for it and the product does not wrap,
or the pause happens to be the default. -/
def ReadsRetryAfter (name : Bytes) (seconds : Nat) : Prop :=
  if name = lit "Retry-After" then 1000 * seconds < 2 ^ 64 ∨ seconds % 2 ^ 61 = 10
  else seconds = 10 ∨ 2 ^ 64 ≤ 1000 * seconds

theorem product_eq_pauseFor_iff (seconds : Nat) :
    1000 * seconds % 2 ^ 64 = pauseFor seconds ↔
      1000 * seconds < 2 ^ 64 ∨ seconds % 2 ^ 61 = 10 := by
  rw [← wrapped_eq_default_iff, pauseFor]
  rcases Nat.lt_or_ge (1000 * seconds) (2 ^ 64) with hlt | hge
  · rw [if_pos hlt, Nat.mod_eq_of_lt hlt]
    exact iff_of_true rfl (.inl hlt)
  · rw [if_neg hge.not_gt, or_iff_right hge.not_gt]
    rfl

theorem default_eq_pauseFor_iff (seconds : Nat) :
    reconnectionTimeoutMilliseconds = pauseFor seconds ↔
      seconds = 10 ∨ 2 ^ 64 ≤ 1000 * seconds := by
  unfold pauseFor reconnectionTimeoutMilliseconds
  split
  · omega
  · omega

/-- A 429 sets the pause that its one `Retry-After` asks for if and only if the
field is read, and the default where there is none. -/
theorem pausesFor_retryAfter_iff (t : Transport) {response : Response}
    (hstatus : SimpleWeb.statusCode response.statusCode = .clientErrorTooManyRequests) :
    (∀ name digits, OneRetryAfter response.header name digits →
      (PausesFor t response (pauseFor (valueOf 10 digits)) ↔
        ReadsRetryAfter name (valueOf 10 digits))) ∧
    ((∀ field ∈ response.header, isRetryAfter field = false) →
      PausesFor t response reconnectionTimeoutMilliseconds) := by
  constructor
  · intro name digits h
    rw [pausesFor_iff t hstatus (retryAfterOf_of_one h _), ReadsRetryAfter]
    split
    · rw [toNat_product, product_eq_pauseFor_iff]
    · exact default_eq_pauseFor_iff _
  · intro hnone
    have hwait := retryAfterOf_of_ne (fun field hfield => ne_of_isRetryAfter (hnone field hfield))
      (UInt64.ofNat reconnectionTimeoutMilliseconds)
    exact (pausesFor_iff t hstatus hwait _).mpr rfl

/-- A 429 with one field, whose value is `60`. -/
def limitedFor (name : Bytes) : Response where
  httpVersion := lit "1.1"
  statusCode := lit "429 Too Many Requests"
  header := [(name, lit "60")]

theorem oneRetryAfter_limitedFor {name : Bytes}
    (h : caseInsensitiveEqual name (lit "Retry-After") = true) :
    OneRetryAfter (limitedFor name).header name [6, 0] where
  split := ⟨[], [], rfl, by simp⟩
  same := h
  ne_nil := by simp
  lt_ten := by decide
  value_lt := by decide

theorem pausesFor_limitedFor :
    PausesFor (Transport.new 0) (limitedFor (lit "Retry-After")) 60000 := by
  apply ((pausesFor_retryAfter_iff (Transport.new 0) (by decide)).1 _ _
    (oneRetryAfter_limitedFor (by decide))).mpr
  rw [ReadsRetryAfter, if_pos rfl]
  exact .inl (by decide)

/-- A `retry-after` of a minute is not read. -/
theorem not_pausesFor_retryAfter :
    ¬ ∀ (t : Transport) (response : Response),
      SimpleWeb.statusCode response.statusCode = .clientErrorTooManyRequests →
      ∀ name digits, OneRetryAfter response.header name digits →
        PausesFor t response (pauseFor (valueOf 10 digits)) := by
  intro hall
  have hsame : caseInsensitiveEqual (lit "retry-after") (lit "Retry-After") = true := by decide
  have hone := oneRetryAfter_limitedFor hsame
  have hpauses := hall (Transport.new 0) _ (by decide) _ _ hone
  rw [pausesFor_iff _ (by decide) (retryAfterOf_of_one hone _)] at hpauses
  revert hpauses
  decide

end Sentry.Transport
