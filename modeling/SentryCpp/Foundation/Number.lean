import Mathlib.Data.Nat.Digits.Lemmas
import SentryCpp.Foundation.StdString

/-!
Numbers in text: what `printf` writes for `%u`, `%lu` and `%lx`, and what
`strtoul` and `std::stoul` read back, with the prefixes of base 0, the sign,
the skipped white space and the two ways to fail.

The main fact is that `stoul` in base 0 reads a decimal that is followed by
no further digit as exactly its number. `stoul_append_of_stop` says more
generally that a reader of digits does not see past a byte that no number
contains.
-/

namespace Number

open StdString

/-- The digit `d` of a number written in a base up to 16. -/
def digitChar (d : Nat) : Byte :=
  if d < 10 then UInt8.ofNat (48 + d) else UInt8.ofNat (87 + d)

/-- `%u`, `%lu` and `std::to_string` for base 10, `%lx` and `std::hex` for
base 16. -/
def print (base n : Nat) : Bytes :=
  if n = 0 then [digitChar 0] else ((base.digits n).map digitChar).reverse

/-- `%ld` and `std::to_string`. -/
def printInt (z : Int) : Bytes :=
  if z < 0 then 45 :: print 10 z.natAbs else print 10 z.natAbs

def isSpace (c : Byte) : Bool := c == 32 || (9 ≤ c && c ≤ 13)

/-- The value of a digit or letter, whatever the base. -/
def digitValue (c : Byte) : Option Nat :=
  if 48 ≤ c ∧ c ≤ 57 then some (c.toNat - 48)
  else if 97 ≤ c ∧ c ≤ 122 then some (c.toNat - 87)
  else if 65 ≤ c ∧ c ≤ 90 then some (c.toNat - 55)
  else none

/-- The value of `c` as a digit of `base`. -/
def digitOf (base : Nat) (c : Byte) : Option Nat :=
  (digitValue c).filter fun d => d < base

/-- The longest prefix of digits of `base`, as values, most significant
first. -/
def digitsPrefix (base : Nat) : Bytes → List Nat
  | [] => []
  | c :: rest =>
      match digitOf base c with
      | some d => d :: digitsPrefix base rest
      | none => []

def valueOf (base : Nat) (digits : List Nat) : Nat :=
  digits.foldl (fun acc d => acc * base + d) 0

/-- The digits that `strtoul` converts after white space and sign. Base 0
recognises the prefixes `0x` and `0`; a `0x` that no hexadecimal digit follows
is the number zero. -/
def subject (base : Nat) (s : Bytes) : Nat × List Nat :=
  if base = 0 then
    match s with
    | 48 :: x :: rest =>
        if (x = 120 ∨ x = 88) ∧ digitsPrefix 16 rest ≠ [] then
          (16, digitsPrefix 16 rest)
        else (8, digitsPrefix 8 s)
    | 48 :: [] => (8, [0])
    | _ => (10, digitsPrefix 10 s)
  else (base, digitsPrefix base s)

/-- The sign in front of the digits: is it a minus, and what follows. -/
def signOf : Bytes → Bool × Bytes
  | 45 :: rest => (true, rest)
  | 43 :: rest => (false, rest)
  | s => (false, s)

/-- `std::stoul(s, nullptr, base)` on a 64-bit platform: `strtoul`, with
`invalid_argument` when nothing was converted and `out_of_range` on
overflow. A minus sign negates modulo `2 ^ 64`. -/
def stoul (s : Bytes) (base : Nat) : Except StdError Nat :=
  let (negative, t) := signOf (s.dropWhile isSpace)
  let (radix, digits) := subject base t
  let value := valueOf radix digits
  if digits = [] then .error .invalidArgument
  else if 2 ^ 64 ≤ value then .error .outOfRange
  else .ok (if negative then (2 ^ 64 - value) % 2 ^ 64 else value)

/-- A byte that is neither white space, sign, digit nor letter: no number
goes past it. -/
def isStop (c : Byte) : Bool :=
  !isSpace c && c != 45 && c != 43 && (digitValue c).isNone

theorem digitOf_eq_none_of_digitValue {c : Byte} (h : digitValue c = none) (base : Nat) :
    digitOf base c = none := by
  simp [digitOf, h]

theorem digitOf_digitChar {d base : Nat} (hd : d < 16) (hbase : d < base) :
    digitOf base (digitChar d) = some d := by
  have hall : ∀ e ∈ List.range 16, digitValue (digitChar e) = some e := by decide
  simp [digitOf, hall d (List.mem_range.mpr hd), hbase]

theorem exists_digit_of_mem_print {base n : Nat} (hbase : 1 < base) (hle : base ≤ 16)
    {c : Byte} (hc : c ∈ print base n) : ∃ d < 16, c = digitChar d := by
  unfold print at hc
  split at hc
  · exact ⟨0, by decide, List.mem_singleton.mp hc⟩
  · obtain ⟨d, hd, rfl⟩ := List.mem_map.mp (List.mem_reverse.mp hc)
    have hlt := Nat.digits_lt_base hbase hd
    exact ⟨d, by omega, rfl⟩

theorem notMem_print {base : Nat} (hbase : 1 < base) (hle : base ≤ 16) {c : Byte}
    (hc : digitValue c = none) (n : Nat) : c ∉ print base n := by
  intro hmem
  obtain ⟨d, hd, rfl⟩ := exists_digit_of_mem_print hbase hle hmem
  have hall : ∀ e ∈ List.range 16, digitValue (digitChar e) ≠ none := by decide
  exact hall d (List.mem_range.mpr hd) hc

theorem length_print_le {base : Nat} (hbase : 1 < base) {n : Nat} (hn : n < 2 ^ 64) :
    (print base n).length ≤ 64 := by
  unfold print
  split
  · simp
  · have hpow : 2 ^ 64 ≤ base ^ 64 := Nat.pow_le_pow_left hbase 64
    simpa using (Nat.digits_length_le_iff hbase n).mpr (lt_of_lt_of_le hn hpow)

theorem digitsPrefix_append_cons {base : Nat} {c : Byte} (h : digitOf base c = none)
    (s rest : Bytes) : digitsPrefix base (s ++ c :: rest) = digitsPrefix base s := by
  induction s with
  | nil => simp [digitsPrefix, h]
  | cons b s ih =>
      simp only [List.cons_append, digitsPrefix]
      cases digitOf base b with
      | none => rfl
      | some d => simp [ih]

theorem digitsPrefix_map_digitChar {base : Nat} (ds : List Nat)
    (h : ∀ d ∈ ds, d < 16 ∧ d < base) (rest : Bytes)
    (hrest : ∀ c ∈ rest.head?, digitOf base c = none) :
    digitsPrefix base (ds.map digitChar ++ rest) = ds := by
  induction ds with
  | nil =>
      cases rest with
      | nil => rfl
      | cons c rest => simp [digitsPrefix, hrest c (by simp)]
  | cons d ds ih =>
      have hd := h d (by simp)
      simp only [List.map_cons, List.cons_append, digitsPrefix,
        digitOf_digitChar hd.1 hd.2]
      rw [ih fun e he => h e (by simp [he])]

theorem valueOf_reverse_digits (base n : Nat) :
    valueOf base (base.digits n).reverse = n := by
  have hfold : valueOf base (base.digits n).reverse =
      (base.digits n).foldr (fun d acc => acc * base + d) 0 := by
    simp [valueOf, List.foldl_reverse]
  have hof : (base.digits n).foldr (fun d acc => acc * base + d) 0 =
      Nat.ofDigits base (base.digits n) := by
    rw [Nat.ofDigits_eq_foldr]
    simp only [Nat.cast_id]
    congr 1
    funext d acc
    ring
  rw [hfold, hof, Nat.ofDigits_digits]

/-- The digits of a positive number, most significant first, start with a
digit other than zero. -/
theorem exists_leading_digit (base : Nat) {n : Nat} (hn : n ≠ 0) :
    ∃ d ds, (base.digits n).reverse = d :: ds ∧ d ≠ 0 := by
  have hne : base.digits n ≠ [] := Nat.digits_ne_nil_iff_ne_zero.mpr hn
  refine ⟨(base.digits n).getLast hne, (base.digits n).dropLast.reverse, ?_,
    Nat.getLast_digit_ne_zero base hn⟩
  calc (base.digits n).reverse
      = ((base.digits n).dropLast ++ [(base.digits n).getLast hne]).reverse := by
        rw [List.dropLast_append_getLast]
    _ = _ := by simp

/-- A digit is neither white space nor a sign. -/
theorem digitChar_plain {d : Nat} (hd : d < 10) :
    isSpace (digitChar d) = false ∧ digitChar d ≠ 45 ∧ digitChar d ≠ 43 := by
  have hall : ∀ e ∈ List.range 10,
      isSpace (digitChar e) = false ∧ digitChar e ≠ 45 ∧ digitChar e ≠ 43 := by decide
  exact hall d (List.mem_range.mpr hd)

private theorem leadingChar {d : Nat} (hd : d < 10) (h0 : d ≠ 0) :
    isSpace (digitChar d) = false ∧ digitChar d ≠ 45 ∧ digitChar d ≠ 43 ∧
      digitChar d ≠ 48 := by
  have hall : ∀ e ∈ List.range 10, e ≠ 0 →
      isSpace (digitChar e) = false ∧ digitChar e ≠ 45 ∧ digitChar e ≠ 43 ∧
        digitChar e ≠ 48 := by decide
  exact hall d (List.mem_range.mpr hd) h0

private theorem signOf_cons {b : Byte} (hminus : b ≠ 45) (hplus : b ≠ 43) (s : Bytes) :
    signOf (b :: s) = (false, b :: s) := by
  unfold signOf
  split
  · rename_i heq
    exact absurd (List.cons.inj heq).1 hminus
  · rename_i heq
    exact absurd (List.cons.inj heq).1 hplus
  · rfl

/-- Base 0 is base 10 for a text that does not start with `0`. -/
private theorem subject_cons {b : Byte} (hzero : b ≠ 48) (s : Bytes) :
    subject 0 (b :: s) = (10, digitsPrefix 10 (b :: s)) := by
  unfold subject
  rw [if_pos rfl]
  split
  · rename_i heq
    exact absurd (List.cons.inj heq).1 hzero
  · rename_i heq
    exact absurd (List.cons.inj heq).1 hzero
  · rfl

private theorem stoul_zero (rest : Bytes) (hrest : ∀ c ∈ rest.head?, digitValue c = none) :
    stoul (48 :: rest) 0 = .ok 0 := by
  have hspace : (48 :: rest).dropWhile isSpace = 48 :: rest := by
    simp [isSpace]
  have hzero : digitOf 8 48 = some 0 := by decide
  cases rest with
  | nil => decide
  | cons c rest =>
      have hc := hrest c (by simp)
      have hx : c ≠ 120 ∧ c ≠ 88 := by
        constructor <;> (rintro rfl; revert hc; decide)
      have hdigits : digitsPrefix 8 (48 :: c :: rest) = [0] := by
        simp [digitsPrefix, hzero, digitOf_eq_none_of_digitValue hc]
      simp [stoul, hspace, signOf, subject, hx, hdigits, valueOf]

/-- Base 0 reads back a printed decimal, whatever follows it that is not a
digit or a letter. -/
theorem stoul_print_append {n : Nat} (hn : n < 2 ^ 64) (rest : Bytes)
    (hrest : ∀ c ∈ rest.head?, digitValue c = none) :
    stoul (print 10 n ++ rest) 0 = .ok n := by
  by_cases h0 : n = 0
  · subst n
    exact stoul_zero rest hrest
  · obtain ⟨d, ds, hds, hd0⟩ := exists_leading_digit 10 h0
    have hlt : ∀ e ∈ d :: ds, e < 10 := by
      intro e he
      rw [← hds, List.mem_reverse] at he
      exact Nat.digits_lt_base (by omega) he
    obtain ⟨hspace, hminus, hplus, hzero⟩ := leadingChar (hlt d (by simp)) hd0
    have hprint : print 10 n = digitChar d :: ds.map digitChar := by
      rw [print, if_neg h0, ← List.map_reverse, hds, List.map_cons]
    have hdigits : digitsPrefix 10 (digitChar d :: (ds.map digitChar ++ rest)) = d :: ds :=
      digitsPrefix_map_digitChar (d :: ds)
        (fun e he => ⟨by have := hlt e he; omega, hlt e he⟩) rest
        (fun c hc => digitOf_eq_none_of_digitValue (hrest c hc) 10)
    have hvalue : valueOf 10 (d :: ds) = n := by
      rw [← hds]
      exact valueOf_reverse_digits 10 n
    simp only [stoul, hprint, List.cons_append, List.dropWhile_cons, hspace,
      signOf_cons hminus hplus, subject_cons hzero, hdigits, Bool.false_eq_true, if_false]
    rw [if_neg (by simp), hvalue, if_neg (by omega)]

theorem digitsPrefix_digits {digits : List Nat} (hdigits : ∀ d ∈ digits, d < 10) :
    digitsPrefix 10 (digits.map digitChar) = digits := by
  have happend := digitsPrefix_map_digitChar digits
    (fun d hd => ⟨by have := hdigits d hd; omega, hdigits d hd⟩) [] (by simp)
  rwa [List.append_nil] at happend

/-- Base 10 reads digits as they are, leading zeros included. -/
theorem stoul_map_digitChar {digits : List Nat} (hne : digits ≠ [])
    (hdigits : ∀ d ∈ digits, d < 10) (hvalue : valueOf 10 digits < 2 ^ 64) :
    stoul (digits.map digitChar) 10 = .ok (valueOf 10 digits) := by
  have hprefix := digitsPrefix_digits hdigits
  cases digits with
  | nil => exact absurd rfl hne
  | cons d digits =>
      obtain ⟨hspace, hminus, hplus⟩ := digitChar_plain (hdigits d List.mem_cons_self)
      rw [List.map_cons] at hprefix ⊢
      have hsubject : subject 10 (digitChar d :: digits.map digitChar) = (10, d :: digits) := by
        unfold subject
        rw [if_neg (by decide), hprefix]
      simp only [stoul, List.dropWhile_cons, hspace, signOf_cons hminus hplus, hsubject,
        Bool.false_eq_true, if_false]
      rw [if_neg (by simp), if_neg (by omega)]

/-- Base 10 reads back a printed decimal. -/
theorem stoul_print {n : Nat} (hn : n < 2 ^ 64) : stoul (print 10 n) 10 = .ok n := by
  by_cases h0 : n = 0
  · subst n
    decide
  · have hprint : print 10 n = (Nat.digits 10 n).reverse.map digitChar := by
      rw [print, if_neg h0, List.map_reverse]
    have hvalue := valueOf_reverse_digits 10 n
    have hne : (Nat.digits 10 n).reverse ≠ [] := by
      simpa using Nat.digits_ne_nil_iff_ne_zero.mpr h0
    rw [hprint, stoul_map_digitChar hne
      (fun d hd => Nat.digits_lt_base (by omega) (List.mem_reverse.mp hd)) (by omega), hvalue]

/-- What `strtoul` skips in base 16 behind the sign. -/
def skipHexPrefix : Bytes → Bytes
  | 48 :: x :: rest =>
      if (x = 120 ∨ x = 88) ∧ digitsPrefix 16 rest ≠ [] then rest else 48 :: x :: rest
  | s => s

/-- `std::stoul(s, nullptr, 16)`. -/
def stoulHex (s : Bytes) : Except StdError Nat :=
  let (negative, t) := signOf (s.dropWhile isSpace)
  let digits := digitsPrefix 16 (skipHexPrefix t)
  let value := valueOf 16 digits
  if digits = [] then .error .invalidArgument
  else if 2 ^ 64 ≤ value then .error .outOfRange
  else .ok (if negative then (2 ^ 64 - value) % 2 ^ 64 else value)

private theorem hexDigitChar {d : Nat} (hd : d < 16) :
    isSpace (digitChar d) = false ∧ digitChar d ≠ 45 ∧ digitChar d ≠ 43 ∧
      digitChar d ≠ 120 ∧ digitChar d ≠ 88 := by
  have hall : ∀ e ∈ List.range 16,
      isSpace (digitChar e) = false ∧ digitChar e ≠ 45 ∧ digitChar e ≠ 43 ∧
        digitChar e ≠ 120 ∧ digitChar e ≠ 88 := by decide
  exact hall d (List.mem_range.mpr hd)

theorem skipHexPrefix_map_digitChar {digits : List Nat} (hdigits : ∀ d ∈ digits, d < 16) :
    skipHexPrefix (digits.map digitChar) = digits.map digitChar := by
  unfold skipHexPrefix
  split
  · rename_i x rest heq
    have hmem : x ∈ digits.map digitChar := by simp [heq]
    obtain ⟨d, hd, rfl⟩ := List.mem_map.mp hmem
    obtain ⟨-, -, -, hlower, hupper⟩ := hexDigitChar (hdigits d hd)
    rw [if_neg (fun h => h.1.elim hlower hupper), heq]
  · rfl

/-- Base 16 reads back a printed hexadecimal. -/
theorem stoulHex_print {n : Nat} (hn : n < 2 ^ 64) : stoulHex (print 16 n) = .ok n := by
  by_cases h0 : n = 0
  · subst n
    decide
  · obtain ⟨d, ds, hds, -⟩ := exists_leading_digit 16 h0
    have hdigits : ∀ e ∈ d :: ds, e < 16 := by
      intro e he
      rw [← hds, List.mem_reverse] at he
      exact Nat.digits_lt_base (by omega) he
    have hprint : print 16 n = (d :: ds).map digitChar := by
      rw [print, if_neg h0, ← List.map_reverse, hds]
    have hvalue : valueOf 16 (d :: ds) = n := by
      rw [← hds]
      exact valueOf_reverse_digits 16 n
    have hread : digitsPrefix 16 ((d :: ds).map digitChar) = d :: ds := by
      have happend := digitsPrefix_map_digitChar (d :: ds)
        (fun e he => ⟨hdigits e he, hdigits e he⟩) [] (by simp)
      rwa [List.append_nil] at happend
    obtain ⟨hspace, hminus, hplus, -⟩ := hexDigitChar (hdigits d List.mem_cons_self)
    have hfront : signOf (((d :: ds).map digitChar).dropWhile isSpace) =
        (false, (d :: ds).map digitChar) := by
      rw [List.map_cons, List.dropWhile_cons, hspace]
      exact signOf_cons hminus hplus _
    simp only [stoulHex, hprint, hfront, skipHexPrefix_map_digitChar hdigits, hread, hvalue,
      Bool.false_eq_true, if_false]
    rw [if_neg (by simp), if_neg (by omega)]

theorem eq_digitChar_of_digitOf {c : Byte} {d : Nat} (h : digitOf 10 c = some d) :
    d < 10 ∧ c = digitChar d := by
  rw [digitOf, Option.filter_eq_some_iff, decide_eq_true_eq] at h
  obtain ⟨hvalue, hlt⟩ := h
  refine ⟨hlt, ?_⟩
  simp only [digitValue, UInt8.le_iff_toNat_le, UInt8.reduceToNat] at hvalue
  split at hvalue
  · have hsum : 48 + d = c.toNat := by
      have hd := Option.some.inj hvalue
      omega
    rw [digitChar, if_pos hlt, hsum, UInt8.ofNat_toNat]
  · -- the letters are worth ten and more
    split at hvalue
    · have hd := Option.some.inj hvalue
      omega
    · split at hvalue
      · have hd := Option.some.inj hvalue
        omega
      · cases hvalue

theorem exists_digits {s : Bytes} (h : ∀ c ∈ s, (digitOf 10 c).isSome = true) :
    ∃ digits : List Nat, s = digits.map digitChar ∧ ∀ d ∈ digits, d < 10 := by
  induction s with
  | nil => exact ⟨[], rfl, by simp⟩
  | cons c s ih =>
      obtain ⟨hc, hs⟩ := List.forall_mem_cons.mp h
      obtain ⟨d, hd⟩ := Option.isSome_iff_exists.mp hc
      obtain ⟨hlt, rfl⟩ := eq_digitChar_of_digitOf hd
      obtain ⟨digits, rfl, hdigits⟩ := ih hs
      exact ⟨d :: digits, rfl, List.forall_mem_cons.mpr ⟨hlt, hdigits⟩⟩

/-- The same for a text whose bytes are digits. -/
theorem stoul_of_digits {s : Bytes} (hne : s ≠ [])
    (h : ∀ c ∈ s, (digitOf 10 c).isSome = true)
    (hvalue : valueOf 10 (digitsPrefix 10 s) < 2 ^ 64) :
    stoul s 10 = .ok (valueOf 10 (digitsPrefix 10 s)) := by
  obtain ⟨digits, rfl, hdigits⟩ := exists_digits h
  rw [digitsPrefix_digits hdigits] at hvalue ⊢
  exact stoul_map_digitChar (by simpa using hne) hdigits hvalue

private theorem signOf_append_cons {c : Byte} (hminus : c ≠ 45) (hplus : c ≠ 43)
    (t rest : Bytes) :
    signOf (t ++ c :: rest) = ((signOf t).1, (signOf t).2 ++ c :: rest) := by
  cases t with
  | nil =>
      unfold signOf
      split <;> simp_all
  | cons b t =>
      by_cases hb : b = 45
      · subst b
        rfl
      by_cases hb' : b = 43
      · subst b
        rfl
      rw [List.cons_append, signOf_cons hb hb', signOf_cons hb hb']
      rfl

private theorem subject_append_cons {c : Byte} (h : digitValue c = none) (base : Nat)
    (t rest : Bytes) : subject base (t ++ c :: rest) = subject base t := by
  have hpre (b : Nat) (s : Bytes) :
      digitsPrefix b (s ++ c :: rest) = digitsPrefix b s :=
    digitsPrefix_append_cons (digitOf_eq_none_of_digitValue h b) s rest
  have hx : c ≠ 120 ∧ c ≠ 88 ∧ c ≠ 48 := by
    refine ⟨?_, ?_, ?_⟩ <;> (rintro rfl; revert h; decide)
  by_cases hbase : base = 0
  · subst base
    cases t with
    | nil =>
        rw [List.nil_append, subject_cons hx.2.2, digitsPrefix,
          digitOf_eq_none_of_digitValue h]
        rfl
    | cons b t =>
        by_cases hb : b = 48
        · subst b
          cases t with
          | nil =>
              have hone : digitsPrefix 8 (48 :: c :: rest) = [0] := by
                have hzero : digitOf 8 48 = some 0 := by decide
                simp [digitsPrefix, hzero, digitOf_eq_none_of_digitValue h]
              simp [subject, hx, hone]
          | cons x t =>
              have hoctal := hpre 8 (48 :: x :: t)
              simp only [List.cons_append] at hoctal
              simp only [subject, List.cons_append, hpre 16 t, hoctal, if_true]
        · rw [List.cons_append, subject_cons hb, subject_cons hb, ← List.cons_append, hpre]
  · simp only [subject, if_neg hbase, hpre]

/-- `stoul` does not see what follows a byte that no number contains. -/
theorem stoul_append_of_stop {c : Byte} (h : isStop c = true) (s rest : Bytes) (base : Nat) :
    stoul (s ++ c :: rest) base = stoul s base := by
  simp only [isStop, Bool.and_eq_true, Bool.not_eq_true', bne_iff_ne, ne_eq,
    Option.isNone_iff_eq_none] at h
  obtain ⟨⟨⟨hspace, hminus⟩, hplus⟩, hdigit⟩ := h
  have hdrop : (s ++ c :: rest).dropWhile isSpace = s.dropWhile isSpace ++ c :: rest := by
    induction s with
    | nil => simp [hspace]
    | cons b s ih =>
        simp only [List.cons_append, List.dropWhile_cons]
        cases isSpace b with
        | true => simpa using ih
        | false => simp
  simp only [stoul, hdrop, signOf_append_cons hminus hplus, subject_append_cons hdigit]

end Number
