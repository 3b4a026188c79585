import Mathlib.Data.List.DropRight
import SentryCpp.Foundation.Utf8

/-!
JSON texts as RFC 8259 has them, and a reader for them. A number is kept as it
is written. A string is the UTF-8 that its characters and escapes stand for.
An object is the list of its members, in their order and with all repetitions.

The rules `value_*` say what the reader does with each kind of text in front of
anything. A writer is shown to be right by its own recursion: its texts are
put together from those of the parts, and the rules are applied in the same
way.
-/

namespace JsonText

open StdString

inductive Value where
  | null
  | boolean (value : Bool)
  | number (lexeme : Bytes)
  | string (value : Bytes)
  | array (elements : List Value)
  | object (members : List (Bytes × Value))

namespace Value

/-- The value of the first member with the name. -/
def get (v : Value) (name : Bytes) : Option Value :=
  match v with
  | .object members => (members.find? fun member => member.1 = name).map Prod.snd
  | _ => none

end Value

def isSpace (b : Byte) : Bool := b = 32 || b = 9 || b = 10 || b = 13

def skipSpace (s : Bytes) : Bytes := s.dropWhile isSpace

def isDigit (b : Byte) : Bool := 48 ≤ b && b ≤ 57

/-- A byte with which a number could go on. -/
def continuesNumber (b : Byte) : Bool := isDigit b || b = 46 || b = 101 || b = 69

/-- One digit or more. -/
def digits (s : Bytes) : Option (Bytes × Bytes) :=
  if s.takeWhile isDigit = [] then none else some (s.takeWhile isDigit, s.dropWhile isDigit)

def integer : Bytes → Option (Bytes × Bytes)
  | [] => none
  | b :: s => if b = 48 then some ([48], s) else digits (b :: s)

def fraction : Bytes → Option (Bytes × Bytes)
  | [] => some ([], [])
  | b :: s =>
      if b = 46 then (digits s).map fun (ds, rest) => (46 :: ds, rest)
      else some ([], b :: s)

def sign : Bytes → Bytes × Bytes
  | [] => ([], [])
  | b :: s => if b = 43 ∨ b = 45 then ([b], s) else ([], b :: s)

def exponent : Bytes → Option (Bytes × Bytes)
  | [] => some ([], [])
  | b :: s =>
      if b = 101 ∨ b = 69 then
        (digits (sign s).2).map fun (ds, rest) => (b :: (sign s).1 ++ ds, rest)
      else some ([], b :: s)

def minus : Bytes → Bytes × Bytes
  | [] => ([], [])
  | b :: s => if b = 45 then ([45], s) else ([], b :: s)

def number (s : Bytes) : Option (Bytes × Bytes) := do
  let (whole, s₁) ← integer (minus s).2
  let (part, s₂) ← fraction s₁
  let (power, s₃) ← exponent s₂
  return ((minus s).1 ++ whole ++ part ++ power, s₃)

/-- The text is a number, all of it. -/
def IsNumber (s : Bytes) : Prop := number s = some (s, [])

instance (s : Bytes) : Decidable (IsNumber s) :=
  inferInstanceAs (Decidable (number s = some (s, [])))

def hexValue (b : Byte) : Option Nat :=
  if 48 ≤ b ∧ b ≤ 57 then some (b.toNat - 48)
  else if 97 ≤ b ∧ b ≤ 102 then some (b.toNat - 87)
  else if 65 ≤ b ∧ b ≤ 70 then some (b.toNat - 55)
  else none

def hex4 (a b c d : Byte) : Option Nat := do
  let a ← hexValue a
  let b ← hexValue b
  let c ← hexValue c
  let d ← hexValue d
  return ((a * 16 + b) * 16 + c) * 16 + d

/-- The UTF-8 of a code point. -/
def encode (codepoint : Nat) : Bytes :=
  if codepoint < 0x80 then [UInt8.ofNat codepoint]
  else if codepoint < 0x800 then
    [UInt8.ofNat (0xC0 + codepoint / 64), UInt8.ofNat (0x80 + codepoint % 64)]
  else if codepoint < 0x10000 then
    [UInt8.ofNat (0xE0 + codepoint / 4096), UInt8.ofNat (0x80 + codepoint / 64 % 64),
      UInt8.ofNat (0x80 + codepoint % 64)]
  else
    [UInt8.ofNat (0xF0 + codepoint / 262144), UInt8.ofNat (0x80 + codepoint / 4096 % 64),
      UInt8.ofNat (0x80 + codepoint / 64 % 64), UInt8.ofNat (0x80 + codepoint % 64)]

def isHigh (unit : Nat) : Bool := 0xD800 ≤ unit && unit < 0xDC00

def isLow (unit : Nat) : Bool := 0xDC00 ≤ unit && unit < 0xE000

/-- The characters that have an escape of two bytes. -/
def shortEscape (b : Byte) : Option Byte :=
  if b = 34 then some 34
  else if b = 92 then some 92
  else if b = 47 then some 47
  else if b = 98 then some 8
  else if b = 102 then some 12
  else if b = 110 then some 10
  else if b = 114 then some 13
  else if b = 116 then some 9
  else none

/-- What is in front of the closing quotation mark, and what is behind it.
`high` is the first surrogate of a pair whose second one must follow. -/
def characters : Option Nat → Bytes → Option (Bytes × Bytes)
  | high, 92 :: 117 :: a :: b :: c :: d :: s => do
      let unit ← hex4 a b c d
      match high with
      | some high =>
          if isLow unit then
            let (text, rest) ← characters none s
            return (encode (0x10000 + (high - 0xD800) * 1024 + (unit - 0xDC00)) ++ text, rest)
          else none
      | none =>
          if isHigh unit then characters (some unit) s
          else if isLow unit then none
          else
            let (text, rest) ← characters none s
            return (encode unit ++ text, rest)
  | some _, _ => none
  | none, 92 :: b :: s => do
      let character ← shortEscape b
      let (text, rest) ← characters none s
      return (character :: text, rest)
  | none, 34 :: s => some ([], s)
  | none, b :: s =>
      if b < 32 ∨ b = 92 then none
      else do
        let (text, rest) ← characters none s
        return (b :: text, rest)
  | none, [] => none

/-- The text behind an opening quotation mark. -/
def string (s : Bytes) : Option (Bytes × Bytes) := characters none s

mutual

/-- A value with white space in front of it, and what is behind it. -/
def value : Nat → Bytes → Option (Value × Bytes)
  | 0, _ => none
  | fuel + 1, s =>
      match skipSpace s with
      | 110 :: 117 :: 108 :: 108 :: s => some (.null, s)
      | 116 :: 114 :: 117 :: 101 :: s => some (.boolean true, s)
      | 102 :: 97 :: 108 :: 115 :: 101 :: s => some (.boolean false, s)
      | 34 :: s => (string s).map fun (text, s) => (.string text, s)
      | 91 :: s =>
          match skipSpace s with
          | 93 :: s => some (.array [], s)
          | s => (elements fuel s).map fun (vs, s) => (.array vs, s)
      | 123 :: s =>
          match skipSpace s with
          | 125 :: s => some (.object [], s)
          | s => (members fuel s).map fun (ms, s) => (.object ms, s)
      | s => (number s).map fun (lexeme, s) => (.number lexeme, s)

/-- One element or more, and the closing bracket. -/
def elements : Nat → Bytes → Option (List Value × Bytes)
  | 0, _ => none
  | fuel + 1, s => do
      let (v, s) ← value fuel s
      match skipSpace s with
      | 93 :: s => some ([v], s)
      | 44 :: s =>
          let (vs, s) ← elements fuel s
          return (v :: vs, s)
      | _ => none

/-- One member or more, and the closing brace. -/
def members : Nat → Bytes → Option (List (Bytes × Value) × Bytes)
  | 0, _ => none
  | fuel + 1, s =>
      match skipSpace s with
      | 34 :: s => do
          let (name, s) ← string s
          match skipSpace s with
          | 58 :: s =>
              let (v, s) ← value fuel s
              match skipSpace s with
              | 125 :: s => some ([(name, v)], s)
              | 44 :: s =>
                  let (ms, s) ← members fuel s
                  return ((name, v) :: ms, s)
              | _ => none
          | _ => none
      | _ => none

end

/-- A JSON text: UTF-8, one value, and nothing but white space around it. Every
call of the reader reads a byte before the next, so the length is fuel enough. -/
def read (s : Bytes) : Option Value :=
  if Utf8.valid s then
    match value (2 * s.length + 1) s with
    | some (v, rest) => if skipSpace rest = [] then some v else none
    | none => none
  else none

section Numbers

theorem takeWhile_append_of_stops {p : Byte → Bool} {rest : Bytes}
    (hrest : ∀ b ∈ rest.head?, p b = false) (s : Bytes) :
    (s ++ rest).takeWhile p = s.takeWhile p ∧ (s ++ rest).dropWhile p = s.dropWhile p ++ rest := by
  induction s with
  | nil =>
      cases rest with
      | nil => exact ⟨rfl, rfl⟩
      | cons b rest => simp [hrest b (by simp)]
  | cons b s ih =>
      cases hb : p b with
      | true => simp [hb, ih]
      | false => simp [hb]

variable {rest : Bytes} (hrest : ∀ b ∈ rest.head?, continuesNumber b = false)

include hrest

theorem digits_append {s ds t : Bytes} (h : digits s = some (ds, t)) :
    digits (s ++ rest) = some (ds, t ++ rest) := by
  have hdigit : ∀ b ∈ rest.head?, isDigit b = false := by
    intro b hb
    have := hrest b hb
    simp_all [continuesNumber]
  obtain ⟨htake, hdrop⟩ := takeWhile_append_of_stops hdigit s
  rw [digits] at h ⊢
  rw [htake, hdrop]
  split at h
  · cases h
  · rename_i hne
    cases h
    rw [if_neg hne]

theorem integer_append {s ds t : Bytes} (h : integer s = some (ds, t)) :
    integer (s ++ rest) = some (ds, t ++ rest) := by
  cases s with
  | nil => cases h
  | cons b s =>
      rw [List.cons_append]
      rw [integer] at h ⊢
      split at h
      · rename_i hzero
        cases h
        rw [if_pos hzero]
      · rename_i hother
        rw [if_neg hother, ← List.cons_append]
        exact digits_append hrest h

theorem fraction_append {s ds t : Bytes} (h : fraction s = some (ds, t)) :
    fraction (s ++ rest) = some (ds, t ++ rest) := by
  cases s with
  | nil =>
      cases h
      cases rest with
      | nil => rfl
      | cons b rest =>
          have hb := hrest b rfl
          simp only [continuesNumber, Bool.or_eq_false_iff, decide_eq_false_iff_not] at hb
          exact if_neg hb.1.1.2
  | cons b s =>
      rw [List.cons_append]
      rw [fraction] at h ⊢
      split at h
      · rename_i hpoint
        obtain ⟨⟨ds', t'⟩, hdigits, heq⟩ := Option.map_eq_some_iff.mp h
        cases heq
        rw [if_pos hpoint, digits_append hrest hdigits]
        rfl
      · rename_i hother
        cases h
        rw [if_neg hother]
        rfl

theorem exponent_append {s ds t : Bytes} (h : exponent s = some (ds, t)) :
    exponent (s ++ rest) = some (ds, t ++ rest) := by
  cases s with
  | nil =>
      cases h
      cases rest with
      | nil => rfl
      | cons b rest =>
          have hb := hrest b rfl
          simp only [continuesNumber, Bool.or_eq_false_iff, decide_eq_false_iff_not] at hb
          exact if_neg (not_or.mpr ⟨hb.1.2, hb.2⟩)
  | cons b s =>
      rw [List.cons_append]
      rw [exponent] at h ⊢
      split at h
      · rename_i hmark
        obtain ⟨⟨ds', t'⟩, hdigits, heq⟩ := Option.map_eq_some_iff.mp h
        cases heq
        have hsign : sign (s ++ rest) = ((sign s).1, (sign s).2 ++ rest) := by
          cases s with
          | nil => cases hdigits
          | cons c s =>
              simp only [List.cons_append, sign]
              split <;> rfl
        rw [if_pos hmark, hsign, digits_append hrest hdigits]
        rfl
      · rename_i hother
        cases h
        rw [if_neg hother]
        rfl

/-- A number ends where nothing follows with which it could go on. -/
theorem number_append {n : Bytes} (h : IsNumber n) : number (n ++ rest) = some (n, rest) := by
  unfold IsNumber number at h
  obtain ⟨⟨whole, s₁⟩, hwhole, h⟩ := Option.bind_eq_some_iff.mp h
  obtain ⟨⟨part, s₂⟩, hpart, h⟩ := Option.bind_eq_some_iff.mp h
  obtain ⟨⟨power, s₃⟩, hpower, h⟩ := Option.bind_eq_some_iff.mp h
  obtain ⟨hn, rfl⟩ := Prod.mk.inj (Option.some.inj h)
  have hminus : minus (n ++ rest) = ((minus n).1, (minus n).2 ++ rest) := by
    cases n with
    | nil => cases hwhole
    | cons b n =>
        simp only [List.cons_append, minus]
        split <;> rfl
  rw [number, hminus]
  simp only [integer_append hrest hwhole, fraction_append hrest hpart,
    exponent_append hrest hpower, Option.bind_eq_bind, Option.bind_some, List.nil_append]
  exact congrArg (fun n => some (n, rest)) hn

end Numbers

theorem integer_of_digits {ds : Bytes} (hdigits : ∀ b ∈ ds, isDigit b = true) (hne : ds ≠ [])
    (hzero : ds.head? = some 48 → ds = [48]) : integer ds = some (ds, []) := by
  cases ds with
  | nil => exact absurd rfl hne
  | cons b ds =>
      rw [integer]
      split
      · rename_i hb
        obtain ⟨rfl, rfl⟩ := List.cons.inj (hzero (congrArg some hb))
        rfl
      · rw [digits, List.takeWhile_eq_self_iff.mpr hdigits, if_neg (by simp),
          List.dropWhile_eq_nil_iff.mpr hdigits]

/-- Digits without a zero in front are a number, and so they are behind a
minus sign. -/
theorem isNumber_of_digits {ds : Bytes} (hdigits : ∀ b ∈ ds, isDigit b = true) (hne : ds ≠ [])
    (hzero : ds.head? = some 48 → ds = [48]) : IsNumber ds ∧ IsNumber (45 :: ds) := by
  have hinteger := integer_of_digits hdigits hne hzero
  have hminus : minus ds = ([], ds) := by
    cases ds with
    | nil => rfl
    | cons b ds =>
        refine if_neg ?_
        rintro rfl
        exact absurd (hdigits 45 List.mem_cons_self) (by decide)
  constructor
  · simp [IsNumber, number, hminus, hinteger, fraction, exponent]
  · simp [IsNumber, number, minus, hinteger, fraction, exponent]

/-- How a number can begin. -/
theorem head_of_isNumber {n : Bytes} (h : IsNumber n) :
    ∃ b s, n = b :: s ∧ (b = 45 ∨ isDigit b = true) := by
  cases n with
  | nil => cases h
  | cons b s =>
      refine ⟨b, s, rfl, ?_⟩
      by_contra hb
      rw [not_or, Bool.not_eq_true] at hb
      have hzero : b ≠ 48 := by
        rintro rfl
        exact absurd hb.2 (by decide)
      have hinteger : integer (minus (b :: s)).2 = none := by
        rw [minus, if_neg hb.1, integer, if_neg hzero, digits, List.takeWhile_cons_of_neg (by
          rw [hb.2]; exact Bool.false_ne_true), if_pos rfl]
      simp [IsNumber, number, hinteger] at h

/-- The bytes that a number can have. -/
def inNumber (b : Byte) : Bool := continuesNumber b || b = 43 || b = 45

theorem mem_digits {s ds t : Bytes} (h : digits s = some (ds, t)) :
    ∀ b ∈ ds, inNumber b = true := by
  rw [digits] at h
  split at h
  · cases h
  · cases h
    intro b hb
    simp [inNumber, continuesNumber, List.mem_takeWhile_imp hb]

theorem mem_integer {s ds t : Bytes} (h : integer s = some (ds, t)) :
    ∀ b ∈ ds, inNumber b = true := by
  cases s with
  | nil => cases h
  | cons c s =>
      rw [integer] at h
      split at h
      · cases h
        simp [inNumber, continuesNumber, isDigit]
      · exact mem_digits h

theorem mem_fraction {s ds t : Bytes} (h : fraction s = some (ds, t)) :
    ∀ b ∈ ds, inNumber b = true := by
  cases s with
  | nil => cases h; simp
  | cons c s =>
      rw [fraction] at h
      split at h
      · obtain ⟨⟨ds', t'⟩, hdigits, heq⟩ := Option.map_eq_some_iff.mp h
        cases heq
        exact List.forall_mem_cons.mpr ⟨by decide, mem_digits hdigits⟩
      · cases h
        simp

theorem mem_exponent {s ds t : Bytes} (h : exponent s = some (ds, t)) :
    ∀ b ∈ ds, inNumber b = true := by
  cases s with
  | nil => cases h; simp
  | cons c s =>
      rw [exponent] at h
      split at h
      · rename_i hmark
        obtain ⟨⟨ds', t'⟩, hdigits, heq⟩ := Option.map_eq_some_iff.mp h
        cases heq
        have hsign : ∀ b ∈ (sign s).1, inNumber b = true := by
          cases s with
          | nil => simp [sign]
          | cons d s =>
              rw [sign]
              split
              · rename_i hd
                rcases hd with rfl | rfl <;> simp [inNumber]
              · simp
        refine List.forall_mem_cons.mpr ⟨?_, List.forall_mem_append.mpr ⟨hsign, mem_digits hdigits⟩⟩
        rcases hmark with rfl | rfl <;> rfl
      · cases h
        simp

theorem mem_of_isNumber {n : Bytes} (h : IsNumber n) : ∀ b ∈ n, inNumber b = true := by
  unfold IsNumber number at h
  obtain ⟨⟨whole, s₁⟩, hwhole, h⟩ := Option.bind_eq_some_iff.mp h
  obtain ⟨⟨part, s₂⟩, hpart, h⟩ := Option.bind_eq_some_iff.mp h
  obtain ⟨⟨power, s₃⟩, hpower, h⟩ := Option.bind_eq_some_iff.mp h
  obtain ⟨hn, rfl⟩ := Prod.mk.inj (Option.some.inj h)
  have hminus : ∀ b ∈ (minus n).1, inNumber b = true := by
    cases n with
    | nil => simp [minus]
    | cons c n =>
        rw [minus]
        split <;> simp [inNumber]
  rw [← hn]
  simp only [List.forall_mem_append]
  exact ⟨⟨⟨hminus, mem_integer hwhole⟩, mem_fraction hpart⟩, mem_exponent hpower⟩

theorem valid_of_isNumber {n : Bytes} (h : IsNumber n) : Utf8.valid n = true := by
  apply Utf8.valid_of_ascii
  intro b hb
  have hnumber := mem_of_isNumber h b hb
  simp only [inNumber, continuesNumber, isDigit] at hnumber
  grind

section Strings

theorem characters_quote (s : Bytes) : characters none (34 :: s) = some ([], s) := rfl

/-- A byte that needs no escape. -/
theorem characters_plain {b : Byte} (hlow : 32 ≤ b) (hquote : b ≠ 34) (hbackslash : b ≠ 92)
    (s : Bytes) :
    characters none (b :: s) = (characters none s).map fun (text, rest) => (b :: text, rest) := by
  have hcond : ¬ (b < 32 ∨ b = 92) := not_or.mpr ⟨not_lt.mpr hlow, hbackslash⟩
  rw [characters, if_neg hcond]
  · cases characters none s <;> rfl
  · intro _ _ _ _ _ hb
    exact absurd hb hbackslash
  · intro _ _ hb
    exact absurd hb hbackslash
  · exact hquote

theorem characters_short {e b : Byte} (h : shortEscape e = some b) (s : Bytes) :
    characters none (92 :: e :: s) =
      (characters none s).map fun (text, rest) => (b :: text, rest) := by
  have hu : e ≠ 117 := by
    rintro rfl
    cases h
  rw [characters, h]
  · simp only [Option.bind_eq_bind, Option.bind_some]
    cases characters none s <;> rfl
  · intro _ _ _ _ _ he
    exact absurd he hu

theorem characters_unicode {a b c d : Byte} {unit : Nat} (h : hex4 a b c d = some unit)
    (hunit : unit < 0x80) (s : Bytes) :
    characters none (92 :: 117 :: a :: b :: c :: d :: s) =
      (characters none s).map fun (text, rest) => (UInt8.ofNat unit :: text, rest) := by
  have hhigh : isHigh unit = false := by simp [isHigh]; omega
  have hlow : isLow unit = false := by simp [isLow]; omega
  rw [characters, h]
  simp only [Option.bind_eq_bind, Option.bind_some, hhigh, hlow, Bool.false_eq_true, if_false,
    encode, hunit, if_true]
  cases characters none s <;> rfl

end Strings

section Values

theorem skipSpace_cons {b : Byte} (h : isSpace b = false) (s : Bytes) :
    skipSpace (b :: s) = b :: s :=
  List.dropWhile_cons_of_neg (by simp [h])

theorem value_null (fuel : Nat) (rest : Bytes) :
    value (fuel + 1) (lit "null" ++ rest) = some (.null, rest) := rfl

theorem value_boolean (fuel : Nat) (b : Bool) (rest : Bytes) :
    value (fuel + 1) ((if b then lit "true" else lit "false") ++ rest) =
      some (.boolean b, rest) := by
  cases b <;> rfl

theorem value_string (fuel : Nat) {s text rest : Bytes} (h : string s = some (text, rest)) :
    value (fuel + 1) (34 :: s) = some (.string text, rest) := by
  change (string s).map _ = _
  rw [h, Option.map_some]

theorem value_number (fuel : Nat) {n rest : Bytes} (h : IsNumber n)
    (hrest : ∀ b ∈ rest.head?, continuesNumber b = false) :
    value (fuel + 1) (n ++ rest) = some (.number n, rest) := by
  have hnumber := number_append hrest h
  obtain ⟨b, s, rfl, hb⟩ := head_of_isNumber h
  have hspace : isSpace b = false := by
    simp only [isDigit, isSpace] at hb ⊢
    grind
  rw [value, List.cons_append, skipSpace_cons hspace]
  split
  all_goals
    rename_i heq
    try
      obtain ⟨rfl, -⟩ := List.cons.inj heq
      exact absurd hb (by decide)
  rw [← List.cons_append, hnumber]
  rfl

theorem value_array_nil (fuel : Nat) (rest : Bytes) :
    value (fuel + 1) (91 :: 93 :: rest) = some (.array [], rest) := rfl

theorem skipSpace_skipSpace (s : Bytes) : skipSpace (skipSpace s) = skipSpace s :=
  List.dropWhile_idempotent isSpace s

theorem value_skipSpace (fuel : Nat) (s : Bytes) : value fuel (skipSpace s) = value fuel s := by
  cases fuel with
  | zero => rfl
  | succ fuel => rw [value, value, skipSpace_skipSpace]

/-- A value does not begin with a closing bracket. -/
theorem value_bracket (fuel : Nat) (s : Bytes) : value fuel (93 :: s) = none := by
  cases fuel with
  | zero => rfl
  | succ fuel => rfl

theorem value_array {fuel : Nat} {s rest : Bytes} {vs : List Value}
    (h : elements fuel s = some (vs, rest)) :
    value (fuel + 1) (91 :: s) = some (.array vs, rest) := by
  cases fuel with
  | zero => cases h
  | succ fuel =>
      rw [elements, ← value_skipSpace] at h
      rw [value, skipSpace_cons rfl]
      simp only
      split
      · rename_i hbracket
        rw [hbracket, value_bracket] at h
        cases h
      · rw [elements, h]
        rfl

theorem elements_last {fuel : Nat} {s rest : Bytes} {v : Value}
    (hv : value fuel s = some (v, 93 :: rest)) : elements (fuel + 1) s = some ([v], rest) := by
  change (value fuel s >>= _) = _
  rw [hv]
  rfl

theorem elements_cons {fuel : Nat} {s t rest : Bytes} {v : Value} {vs : List Value}
    (hv : value fuel s = some (v, 44 :: t)) (hvs : elements fuel t = some (vs, rest)) :
    elements (fuel + 1) s = some (v :: vs, rest) := by
  change (value fuel s >>= _) = _
  rw [hv]
  simp only [Option.bind_eq_bind, Option.bind_some, skipSpace_cons (b := 44) rfl, hvs]
  rfl

theorem value_object_nil (fuel : Nat) (rest : Bytes) :
    value (fuel + 1) (123 :: 125 :: rest) = some (.object [], rest) := rfl

theorem value_object {fuel : Nat} {s rest : Bytes} {ms : List (Bytes × Value)}
    (h : members fuel (34 :: s) = some (ms, rest)) :
    value (fuel + 1) (123 :: 34 :: s) = some (.object ms, rest) := by
  exact congrArg (Option.map fun (ms, s) => (Value.object ms, s)) h

theorem members_last {fuel : Nat} {s t rest name : Bytes} {v : Value}
    (hname : string s = some (name, 58 :: t)) (hv : value fuel t = some (v, 125 :: rest)) :
    members (fuel + 1) (34 :: s) = some ([(name, v)], rest) := by
  rw [members, skipSpace_cons rfl]
  simp only [hname, Option.bind_eq_bind, Option.bind_some, skipSpace_cons (b := 58) rfl, hv,
    skipSpace_cons (b := 125) rfl]

theorem members_cons {fuel : Nat} {s t u rest name : Bytes} {v : Value}
    {ms : List (Bytes × Value)} (hname : string s = some (name, 58 :: t))
    (hv : value fuel t = some (v, 44 :: u)) (hms : members fuel u = some (ms, rest)) :
    members (fuel + 1) (34 :: s) = some ((name, v) :: ms, rest) := by
  rw [members, skipSpace_cons rfl]
  simp only [hname, Option.bind_eq_bind, Option.bind_some, skipSpace_cons (b := 58) rfl, hv,
    skipSpace_cons (b := 44) rfl, hms]
  rfl

theorem read_of_value {s : Bytes} {v : Value} (hvalid : Utf8.valid s = true)
    (h : value (2 * s.length + 1) s = some (v, [])) : read s = some v := by
  rw [read, if_pos hvalid, h]
  rfl

end Values

end JsonText
