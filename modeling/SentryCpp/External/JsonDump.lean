import SentryCpp.External.Json
import SentryCpp.Foundation.JsonText

/-!
What a reader of RFC 8259 makes of the text that `dump` writes: the value
itself, with its members in the order of the keys. A float is the text of
`dump_float`, which is a JSON number, or `null` for one that is not finite.

The strings go through the decoder. A byte from `0x80` on is copied, and so is
the last byte of its character, because no character of two bytes or more has
a code point that `dump_escaped` escapes (`CodepointIn`).
-/

open StdString Number

namespace Json

mutual

/-- What the value says as a JSON text. -/
def denote : Json → JsonText.Value
  | .null => .null
  | .boolean value => .boolean value
  | .numberInteger value => .number (printInt value)
  | .numberUnsigned value => .number (print 10 value)
  | .numberFloat text => if text = lit "null" then .null else .number text
  | .string value => .string value
  | .array elements => .array (denoteElements elements)
  | .object members => .object (denoteMembers members)

def denoteElements : List Json → List JsonText.Value
  | [] => []
  | element :: elements => denote element :: denoteElements elements

def denoteMembers : List (Bytes × Json) → List (Bytes × JsonText.Value)
  | [] => []
  | (key, value) :: members => (key, denote value) :: denoteMembers members

end

mutual

/-- Every float has a text that `dump_float` can write. -/
def floatsWritten : Json → Bool
  | .numberFloat text => text = lit "null" || JsonText.IsNumber text
  | .array elements => floatsWrittenElements elements
  | .object members => floatsWrittenMembers members
  | .null | .boolean _ | .numberInteger _ | .numberUnsigned _ | .string _ => true

def floatsWrittenElements : List Json → Bool
  | [] => true
  | element :: elements => floatsWritten element && floatsWrittenElements elements

def floatsWrittenMembers : List (Bytes × Json) → Bool
  | [] => true
  | (_, value) :: members => floatsWritten value && floatsWrittenMembers members

end

theorem floatsWrittenElements_eq (elements : List Json) :
    floatsWrittenElements elements = elements.all floatsWritten := by
  induction elements with
  | nil => rfl
  | cons element elements ih => rw [floatsWrittenElements, ih, List.all_cons]

theorem floatsWrittenMembers_eq (members : List (Bytes × Json)) :
    floatsWrittenMembers members = members.all fun member => floatsWritten member.2 := by
  induction members with
  | nil => rfl
  | cons member members ih => rw [floatsWrittenMembers, ih, List.all_cons]

section Numbers

theorem isDigit_digitChar {d : Nat} (hd : d < 10) : JsonText.isDigit (digitChar d) = true := by
  have hall : ∀ e ∈ List.range 10, JsonText.isDigit (digitChar e) = true := by decide
  exact hall d (List.mem_range.mpr hd)

theorem isNumber_print (n : Nat) :
    JsonText.IsNumber (print 10 n) ∧ JsonText.IsNumber (45 :: print 10 n) := by
  by_cases h0 : n = 0
  · subst n
    exact ⟨by rfl, by rfl⟩
  · obtain ⟨d, ds, hds, hd0⟩ := exists_leading_digit 10 h0
    have hlt : ∀ e ∈ d :: ds, e < 10 := by
      intro e he
      rw [← hds, List.mem_reverse] at he
      exact Nat.digits_lt_base (by omega) he
    have hprint : print 10 n = (d :: ds).map digitChar := by
      rw [print, if_neg h0, ← List.map_reverse, hds]
    rw [hprint]
    apply JsonText.isNumber_of_digits
    · intro b hb
      obtain ⟨e, he, rfl⟩ := List.mem_map.mp hb
      exact isDigit_digitChar (hlt e he)
    · simp
    · intro hhead
      have hall : ∀ e ∈ List.range 10, digitChar e = 48 → e = 0 := by decide
      exact absurd (hall d (List.mem_range.mpr (hlt d List.mem_cons_self))
        (Option.some.inj hhead)) hd0

theorem isNumber_printInt (z : Int) : JsonText.IsNumber (printInt z) := by
  rw [printInt]
  split
  · exact (isNumber_print z.natAbs).2
  · exact (isNumber_print z.natAbs).1

end Numbers

section Strings

/-- The code points that the decoder can hold in a state between two bytes of
a character. -/
def CodepointIn (state codep : Nat) : Prop :=
  match state with
  | 0 => True
  | 2 => 2 ≤ codep ∧ codep < 2 ^ 18
  | 3 => 1 ≤ codep ∧ codep < 2 ^ 12
  | 5 | 7 | 8 => 1 ≤ codep ∧ codep < 2 ^ 6
  | _ => codep < 2 ^ 6

instance (state codep : Nat) : Decidable (CodepointIn state codep) := by
  unfold CodepointIn
  split <;> infer_instance

private theorem lead_table :
    ((utf8d.take 256).zipIdx.all fun entry =>
      let state := utf8d.getD (256 + entry.1) 0
      let codep := (0xFF >>> entry.1) &&& entry.2
      state == 1 || (if state = 0 then entry.2 < 0x80 && codep == entry.2 else 0x80 ≤ entry.2) &&
        CodepointIn state codep) = true := by
  decide +kernel

/-- A first byte is a character of its own below `0x80`, and leads a longer one
from there on. -/
theorem decode_lead (codep : Nat) (byte : Byte) (hok : (decode 0 codep byte).1 ≠ 1) :
    ((decode 0 codep byte).1 = 0 ∧ byte < 0x80 ∧ (decode 0 codep byte).2 = byte.toNat) ∨
    ((decode 0 codep byte).1 ≠ 0 ∧ 0x80 ≤ byte ∧
      CodepointIn (decode 0 codep byte).1 (decode 0 codep byte).2) := by
  have htable := List.all_eq_true.mp lead_table _ (type_mem_table byte)
  have hstate : (decode 0 codep byte).1 = utf8d.getD (256 + utf8d.getD byte.toNat 0) 0 := rfl
  have hcodep : (decode 0 codep byte).2 =
      (0xFF >>> utf8d.getD byte.toNat 0) &&& byte.toNat := rfl
  simp only [← hstate, ← hcodep, Bool.or_eq_true, Bool.and_eq_true, beq_iff_eq,
    decide_eq_true_eq] at htable
  rw [UInt8.lt_iff_toNat_lt, UInt8.le_iff_toNat_le]
  have htable := htable.resolve_left hok
  by_cases hzero : (decode 0 codep byte).1 = 0
  · rw [if_pos hzero, Bool.and_eq_true, decide_eq_true_eq, beq_iff_eq] at htable
    exact Or.inl ⟨hzero, htable.1⟩
  · rw [if_neg hzero, decide_eq_true_eq] at htable
    exact Or.inr ⟨hzero, htable⟩

/-- A byte behind the first one adds six bits. -/
theorem decode_codepoint {state codep : Nat} (hstate : state ≠ 0) (hcodep : codep < 2 ^ 18)
    (byte : Byte) : (decode state codep byte).2 = codep * 64 + byte.toNat % 64 := by
  have hshift : (codep <<< 6) % 2 ^ 32 = codep * 2 ^ 6 := by
    rw [Nat.shiftLeft_eq]
    omega
  have hmask : byte.toNat &&& 0x3F = byte.toNat % 2 ^ 6 := Nat.and_two_pow_sub_one_eq_mod _ 6
  simp only [decode, if_pos hstate, hshift, hmask]
  rw [Nat.or_comm, Nat.mul_comm, ← Nat.two_pow_add_eq_or_of_lt (Nat.mod_lt _ (by decide))]
  omega

/-- A state is told by what it owes, where all of that are plain tails. -/
theorem eq_of_owedAt {state : Nat} (hstate : state ∈ decoderStates) :
    (owedAt state = [] → state = 0) ∧ (owedAt state = [Utf8.tail] → state = 2) ∧
      (owedAt state = [Utf8.tail, Utf8.tail] → state = 3) := by
  have hall : ∀ state ∈ decoderStates, (owedAt state = [] → state = 0) ∧
      (owedAt state = [Utf8.tail] → state = 2) ∧
      (owedAt state = [Utf8.tail, Utf8.tail] → state = 3) := by decide
  exact hall state hstate

private theorem next_cons {range : Byte × Byte} {owed owed' : List (Byte × Byte)} {byte : Byte}
    (h : Utf8.next (range :: owed) byte = some owed') :
    range.1.toNat ≤ byte.toNat ∧ byte.toNat ≤ range.2.toNat ∧ owed' = owed := by
  rw [Utf8.next] at h
  split at h
  · rename_i hrange
    exact ⟨hrange.1, hrange.2, (Option.some.inj h).symm⟩
  · cases h

/-- A character of two bytes or more is complete at `0x80` and above. -/
theorem decode_tail {state codep : Nat} (hstate : state ∈ decoderStates) (hne : state ≠ 0)
    (hcodep : CodepointIn state codep) (byte : Byte) (hok : (decode state codep byte).1 ≠ 1) :
    0x80 ≤ byte ∧ CodepointIn (decode state codep byte).1 (decode state codep byte).2 ∧
      ((decode state codep byte).1 = 0 → 0x80 ≤ (decode state codep byte).2) := by
  obtain ⟨-, hreject⟩ | ⟨hmem, hnext⟩ := decode_spec hstate codep byte
  · exact absurd hreject hok
  obtain ⟨hnone, hone, htwo⟩ := eq_of_owedAt hmem
  rw [UInt8.le_iff_toNat_le]
  simp only [decoderStates, List.mem_cons, List.not_mem_nil, or_false] at hstate
  rcases hstate with rfl | rfl | rfl | rfl | rfl | rfl | rfl | rfl
  · exact absurd rfl hne
  all_goals
    simp only [CodepointIn] at hcodep
    rw [decode_codepoint hne (by omega)]
    obtain ⟨hfirst, hlast, howed⟩ := next_cons hnext
    simp only [Utf8.tail, UInt8.reduceToNat] at hfirst hlast
  · rw [hnone howed]
    exact ⟨hfirst, trivial, fun _ => by omega⟩
  · rw [hone howed]
    exact ⟨hfirst, ⟨by omega, by omega⟩, fun h => absurd h (by decide)⟩
  · rw [hone howed]
    exact ⟨by simp; omega, ⟨by omega, by omega⟩, fun h => absurd h (by decide)⟩
  · rw [hone howed]
    exact ⟨hfirst, ⟨by omega, by omega⟩, fun h => absurd h (by decide)⟩
  · rw [htwo howed]
    exact ⟨by simp; omega, ⟨by omega, by omega⟩, fun h => absurd h (by decide)⟩
  · rw [htwo howed]
    exact ⟨hfirst, ⟨by omega, by omega⟩, fun h => absurd h (by decide)⟩
  · rw [htwo howed]
    exact ⟨hfirst, ⟨by omega, by omega⟩, fun h => absurd h (by decide)⟩

private theorem escape_table :
    ((List.range 0x20).all fun n =>
      match escape n (UInt8.ofNat n) with
      | [92, e] => JsonText.shortEscape e == some (UInt8.ofNat n)
      | [92, 117, a, b, c, d] => JsonText.hex4 a b c d == some n
      | _ => false) = true := by
  decide +kernel

theorem escape_plain {codepoint : Nat} (hlow : 0x20 ≤ codepoint) (hquote : codepoint ≠ 0x22)
    (hbackslash : codepoint ≠ 0x5C) (byte : Byte) : escape codepoint byte = [byte] := by
  unfold escape
  split
  case h_8 => rw [if_neg (by omega)]
  all_goals omega

/-- A reader takes what stands for a character below `0x80` as that character. -/
theorem characters_escape (byte : Byte) (s : Bytes) :
    JsonText.characters none (escape byte.toNat byte ++ s) =
      (JsonText.characters none s).map fun (text, rest) => (byte :: text, rest) := by
  by_cases hlow : byte.toNat < 0x20
  · have htable := List.all_eq_true.mp escape_table _ (List.mem_range.mpr hlow)
    rw [UInt8.ofNat_toNat] at htable
    split at htable
    · rename_i e hescape
      rw [hescape]
      exact JsonText.characters_short (beq_iff_eq.mp htable) s
    · rename_i a b c d hescape
      rw [hescape]
      have hunit := JsonText.characters_unicode (beq_iff_eq.mp htable) (by omega) s
      rwa [UInt8.ofNat_toNat] at hunit
    · cases htable
  · by_cases hquote : byte = 34
    · subst byte
      exact JsonText.characters_short (e := 34) rfl s
    · by_cases hbackslash : byte = 92
      · subst byte
        exact JsonText.characters_short (e := 92) rfl s
      · rw [escape_plain (not_lt.mp hlow) (fun h => hquote (UInt8.toNat_inj.mp h))
          (fun h => hbackslash (UInt8.toNat_inj.mp h))]
        exact JsonText.characters_plain (not_lt.mp hlow) hquote hbackslash s

/-- A byte of a longer character is copied, and read as itself. -/
theorem characters_high {byte : Byte} (h : 0x80 ≤ byte) (s : Bytes) :
    JsonText.characters none (byte :: s) =
      (JsonText.characters none s).map fun (text, rest) => (byte :: text, rest) := by
  have h : 128 ≤ byte.toNat := h
  apply JsonText.characters_plain
  · exact UInt8.le_iff_toNat_le.mpr (le_trans (by decide) h)
  · rintro rfl
    exact absurd h (by decide)
  · rintro rfl
    exact absurd h (by decide)

private theorem exists_of_bind_eq_ok {ε α β : Type} {x : Except ε α} {f : α → Except ε β} {b : β}
    (h : (x >>= f) = .ok b) : ∃ a, x = .ok a ∧ f a = .ok b := by
  cases x with
  | error e => cases h
  | ok a => exact ⟨a, rfl, h⟩

/-- What is written for a byte that is not rejected. -/
def written (state codep : Nat) (byte : Byte) : Bytes :=
  if (decode state codep byte).1 = 0 then escape (decode state codep byte).2 byte else [byte]

theorem dumpEscapedFrom_cons {state codep i : Nat} {last byte : Byte} {s text : Bytes}
    (h : dumpEscapedFrom state codep i last (byte :: s) = .ok text) :
    (decode state codep byte).1 ≠ 1 ∧
    ∃ rest, dumpEscapedFrom (decode state codep byte).1 (decode state codep byte).2 (i + 1) byte s =
        .ok rest ∧
      text = written state codep byte ++ rest := by
  rw [dumpEscapedFrom] at h
  rw [written]
  generalize decode state codep byte = result at h ⊢
  split at h
  · obtain ⟨rest, hrest, heq⟩ := exists_of_bind_eq_ok h
    exact ⟨Nat.zero_ne_one, rest, hrest, by cases heq; rfl⟩
  · cases h
  · rename_i hzero hone
    obtain ⟨rest, hrest, heq⟩ := exists_of_bind_eq_ok h
    exact ⟨hone, rest, hrest, by cases heq; rw [if_neg hzero]; rfl⟩

/-- A byte below `0x80` is written as its escape, and every other one as
itself. -/
theorem written_cases {state codep : Nat} (hstate : state ∈ decoderStates)
    (hcodep : CodepointIn state codep) {byte : Byte} (hok : (decode state codep byte).1 ≠ 1) :
    CodepointIn (decode state codep byte).1 (decode state codep byte).2 ∧
    ((owedAt state = [] ∧ owedAt (decode state codep byte).1 = [] ∧ byte < 0x80 ∧
        written state codep byte = escape byte.toNat byte) ∨
      0x80 ≤ byte ∧ written state codep byte = [byte]) := by
  by_cases hlead : state = 0
  · subst state
    rcases decode_lead codep byte hok with ⟨hzero, hlow, hbyte⟩ | ⟨hne, hhigh, hin⟩
    · rw [written, if_pos hzero, hzero, hbyte]
      exact ⟨trivial, Or.inl ⟨rfl, rfl, hlow, rfl⟩⟩
    · rw [written, if_neg hne]
      exact ⟨hin, Or.inr ⟨hhigh, rfl⟩⟩
  · obtain ⟨hhigh, hin, hcomplete⟩ := decode_tail hstate hlead hcodep byte hok
    refine ⟨hin, Or.inr ⟨hhigh, ?_⟩⟩
    rw [written]
    split
    · rename_i hzero
      have hlarge := hcomplete hzero
      exact escape_plain (by omega) (by omega) (by omega) byte
    · rfl

/-- A reader finds the string back in front of the closing quotation mark. -/
theorem characters_dumpEscapedFrom {state codep : Nat} (hstate : state ∈ decoderStates)
    (hcodep : CodepointIn state codep) {i : Nat} {last : Byte} {s text : Bytes}
    (h : dumpEscapedFrom state codep i last s = .ok text) (rest : Bytes) :
    JsonText.characters none (text ++ 34 :: rest) = some (s, rest) := by
  induction s generalizing state codep i last text with
  | nil =>
      rw [dumpEscapedFrom] at h
      split at h
      · cases h
        exact JsonText.characters_quote rest
      · cases h
  | cons byte s ih =>
      obtain ⟨hok, text', hrest, rfl⟩ := dumpEscapedFrom_cons h
      have hmem := (decode_spec hstate codep byte).resolve_left fun h => hok h.2
      obtain ⟨hin, ⟨-, -, -, hwritten⟩ | ⟨hhigh, hwritten⟩⟩ := written_cases hstate hcodep hok
      · rw [List.append_assoc, hwritten, characters_escape, ih hmem.1 hin hrest]
        rfl
      · rw [List.append_assoc, hwritten, List.singleton_append, characters_high hhigh,
          ih hmem.1 hin hrest]
        rfl

theorem string_dumpEscaped {s text : Bytes} (h : dumpEscaped s = .ok text) (rest : Bytes) :
    JsonText.string (text ++ 34 :: rest) = some (s, rest) :=
  characters_dumpEscapedFrom (by decide : 0 ∈ decoderStates) trivial h rest

end Strings

section Values

private theorem value_number_text {n rest : Bytes} (hn : JsonText.IsNumber n) {fuel : Nat}
    (hfuel : 2 * n.length ≤ fuel) (hrest : ∀ b ∈ rest.head?, JsonText.continuesNumber b = false) :
    JsonText.value fuel (n ++ rest) = some (.number n, rest) := by
  obtain ⟨b, s, hcons, -⟩ := JsonText.head_of_isNumber hn
  have hlength : n.length = s.length + 1 := by rw [hcons]; rfl
  obtain ⟨fuel, rfl⟩ : ∃ f, fuel = f + 1 := ⟨fuel - 1, by omega⟩
  exact JsonText.value_number fuel hn hrest

/-- What `dump` writes around the parts of a value. -/
private theorem punctuation :
    lit "\"" = [34] ∧ lit "," = [44] ∧ lit "\":" = [34, 58] ∧ lit "[" = [91] ∧ lit "]" = [93] ∧
      lit "\x7b" = [123] ∧ lit "\x7d" = [125] := by
  decide

private theorem stops_punctuation {b : Byte} (h : b ∈ [44, 93, 125]) (rest : Bytes) :
    ∀ c ∈ (b :: rest).head?, JsonText.continuesNumber c = false := by
  intro c hc
  cases hc
  simp only [List.mem_cons, List.not_mem_nil, or_false] at h
  rcases h with rfl | rfl | rfl <;> rfl

/-- The parts of the dump of a list of elements. -/
theorem dumpElements_cons {element : Json} {elements : List Json} {text : Bytes}
    (h : dumpElements (element :: elements) = .ok text) :
    ∃ own others, dump element = .ok own ∧ dumpElements elements = .ok others ∧
      text = own ++ ((if elements.isEmpty then [] else [44]) ++ others) := by
  obtain ⟨own, hown, h⟩ := exists_of_bind_eq_ok h
  obtain ⟨others, hothers, heq⟩ := exists_of_bind_eq_ok h
  cases heq
  rw [List.append_assoc]
  exact ⟨own, others, hown, hothers, rfl⟩

theorem dumpMembers_cons {key : Bytes} {value : Json} {members : List (Bytes × Json)}
    {text : Bytes} (h : dumpMembers ((key, value) :: members) = .ok text) :
    ∃ name own others, dumpEscaped key = .ok name ∧ dump value = .ok own ∧
      dumpMembers members = .ok others ∧
      text = 34 :: (name ++ 34 :: 58 :: (own ++ ((if members.isEmpty then [] else [44]) ++
        others))) := by
  obtain ⟨name, hname, h⟩ := exists_of_bind_eq_ok h
  obtain ⟨own, hown, h⟩ := exists_of_bind_eq_ok h
  obtain ⟨others, hothers, heq⟩ := exists_of_bind_eq_ok h
  cases heq
  exact ⟨name, own, others, hname, hown, hothers, by simp [punctuation]⟩

mutual

/-- A reader finds the value back in front of anything with which no number
goes on. -/
theorem value_dump {j : Json} (hfloats : floatsWritten j = true) {text : Bytes}
    (h : dump j = .ok text) {fuel : Nat} (hfuel : 2 * text.length ≤ fuel) {rest : Bytes}
    (hrest : ∀ b ∈ rest.head?, JsonText.continuesNumber b = false) :
    JsonText.value fuel (text ++ rest) = some (denote j, rest) := by
  cases j with
  | null =>
      cases h
      have hfuel : 8 ≤ fuel := hfuel
      obtain ⟨fuel, rfl⟩ : ∃ f, fuel = f + 1 := ⟨fuel - 1, by omega⟩
      exact JsonText.value_null fuel rest
  | boolean value =>
      cases h
      have hfuel : 8 ≤ fuel := by
        cases value
        · exact le_trans (by decide) hfuel
        · exact hfuel
      obtain ⟨fuel, rfl⟩ : ∃ f, fuel = f + 1 := ⟨fuel - 1, by omega⟩
      exact JsonText.value_boolean fuel value rest
  | numberInteger value =>
      cases h
      exact value_number_text (isNumber_printInt value) hfuel hrest
  | numberUnsigned value =>
      cases h
      exact value_number_text (isNumber_print value).1 hfuel hrest
  | numberFloat float =>
      cases h
      rw [floatsWritten, Bool.or_eq_true, decide_eq_true_eq, decide_eq_true_eq] at hfloats
      rw [denote]
      split
      · rename_i hnull
        rw [hnull] at hfuel ⊢
        have hfuel : 8 ≤ fuel := hfuel
        obtain ⟨fuel, rfl⟩ : ∃ f, fuel = f + 1 := ⟨fuel - 1, by omega⟩
        exact JsonText.value_null fuel rest
      · rename_i hnumber
        exact value_number_text (hfloats.resolve_left hnumber) hfuel hrest
  | string value =>
      obtain ⟨inner, hinner, heq⟩ := exists_of_bind_eq_ok h
      cases heq
      simp only [punctuation, List.length_append, List.length_cons, List.length_nil,
        List.cons_append, List.append_assoc] at hfuel ⊢
      obtain ⟨fuel, rfl⟩ : ∃ f, fuel = f + 1 := ⟨fuel - 1, by omega⟩
      exact JsonText.value_string fuel (string_dumpEscaped hinner rest)
  | array elements =>
      obtain ⟨inner, hinner, heq⟩ := exists_of_bind_eq_ok h
      cases heq
      simp only [punctuation, List.length_append, List.length_cons, List.length_nil,
        List.cons_append, List.append_assoc] at hfuel ⊢
      obtain ⟨fuel, rfl⟩ : ∃ f, fuel = f + 1 := ⟨fuel - 1, by omega⟩
      by_cases hne : elements = []
      · subst elements
        cases hinner
        exact JsonText.value_array_nil fuel rest
      · exact JsonText.value_array (elements_dump hne hfloats hinner (by omega) rest)
  | object members =>
      obtain ⟨inner, hinner, heq⟩ := exists_of_bind_eq_ok h
      cases heq
      simp only [punctuation, List.length_append, List.length_cons, List.length_nil,
        List.cons_append, List.append_assoc] at hfuel ⊢
      obtain ⟨fuel, rfl⟩ : ∃ f, fuel = f + 1 := ⟨fuel - 1, by omega⟩
      cases members with
      | nil =>
          cases hinner
          exact JsonText.value_object_nil fuel rest
      | cons member members =>
          have hlength : 2 * inner.length + 2 ≤ fuel := by omega
          have hmembers := members_dump (by simp) hfloats hinner hlength rest
          obtain ⟨key, value⟩ := member
          obtain ⟨name, own, others, -, -, -, rfl⟩ := dumpMembers_cons hinner
          exact JsonText.value_object hmembers

theorem elements_dump {elements : List Json} (hne : elements ≠ [])
    (hfloats : floatsWrittenElements elements = true) {text : Bytes}
    (h : dumpElements elements = .ok text) {fuel : Nat} (hfuel : 2 * text.length + 2 ≤ fuel)
    (rest : Bytes) :
    JsonText.elements fuel (text ++ 93 :: rest) = some (denoteElements elements, rest) := by
  obtain ⟨fuel, rfl⟩ : ∃ f, fuel = f + 1 := ⟨fuel - 1, by omega⟩
  cases elements with
  | nil => exact absurd rfl hne
  | cons element elements =>
      rw [floatsWrittenElements, Bool.and_eq_true] at hfloats
      obtain ⟨own, others, hown, hothers, rfl⟩ := dumpElements_cons h
      rw [List.length_append, List.length_append] at hfuel
      rw [List.append_assoc, List.append_assoc]
      cases elements with
      | nil =>
          cases hothers
          exact JsonText.elements_last (value_dump hfloats.1 hown (by omega)
            (stops_punctuation (by decide) rest))
      | cons next elements =>
          have hfuel : 2 * (own.length + (1 + others.length)) + 2 ≤ fuel + 1 := hfuel
          exact JsonText.elements_cons (value_dump hfloats.1 hown (by omega)
            (stops_punctuation (by decide) _))
            (elements_dump (by simp) hfloats.2 hothers (by omega) rest)

theorem members_dump {members : List (Bytes × Json)} (hne : members ≠ [])
    (hfloats : floatsWrittenMembers members = true) {text : Bytes}
    (h : dumpMembers members = .ok text) {fuel : Nat} (hfuel : 2 * text.length + 2 ≤ fuel)
    (rest : Bytes) :
    JsonText.members fuel (text ++ 125 :: rest) = some (denoteMembers members, rest) := by
  obtain ⟨fuel, rfl⟩ : ∃ f, fuel = f + 1 := ⟨fuel - 1, by omega⟩
  cases members with
  | nil => exact absurd rfl hne
  | cons member members =>
      obtain ⟨key, value⟩ := member
      rw [floatsWrittenMembers, Bool.and_eq_true] at hfloats
      obtain ⟨name, own, others, hname, hown, hothers, rfl⟩ := dumpMembers_cons h
      simp only [List.length_cons, List.length_append] at hfuel
      simp only [List.cons_append, List.append_assoc]
      have hkey := string_dumpEscaped hname
      cases members with
      | nil =>
          cases hothers
          exact JsonText.members_last (hkey _) (value_dump hfloats.1 hown (by omega)
            (stops_punctuation (by decide) rest))
      | cons next members =>
          exact JsonText.members_cons (hkey _) (value_dump hfloats.1 hown (by omega)
            (stops_punctuation (by decide) _))
            (members_dump (by simp) hfloats.2 hothers (by simp at hfuel; omega) rest)

end

end Values

section Validity

private theorem escape_ascii :
    ((List.range 0x80).all fun n => (escape n (UInt8.ofNat n)).all fun b => b ≤ 0x7F) = true := by
  decide +kernel

/-- The escapes leave the text well-formed UTF-8, as the string is. -/
theorem accepts_dumpEscapedFrom {state codep : Nat} (hstate : state ∈ decoderStates)
    (hcodep : CodepointIn state codep) {i : Nat} {last : Byte} {s text : Bytes}
    (h : dumpEscapedFrom state codep i last s = .ok text) :
    Utf8.accepts (owedAt state) text = true := by
  induction s generalizing state codep i last text with
  | nil =>
      rw [dumpEscapedFrom] at h
      split at h
      · rename_i hzero
        cases h
        subst state
        rfl
      · cases h
  | cons byte s ih =>
      obtain ⟨hok, text', hrest, rfl⟩ := dumpEscapedFrom_cons h
      obtain ⟨hmem, hnext⟩ := (decode_spec hstate codep byte).resolve_left fun h => hok h.2
      obtain ⟨hin, ⟨hlead, howed, hlow, hwritten⟩ | ⟨-, hwritten⟩⟩ :=
        written_cases hstate hcodep hok
      · have hascii := List.all_eq_true.mp escape_ascii byte.toNat
          (List.mem_range.mpr (UInt8.lt_iff_toNat_lt.mp hlow))
        rw [UInt8.ofNat_toNat, List.all_eq_true] at hascii
        have hvalid := Utf8.valid_of_ascii fun b hb => of_decide_eq_true (hascii b hb)
        rw [hwritten, hlead, ← Utf8.valid, Utf8.valid_append hvalid, Utf8.valid, ← howed]
        exact ih hmem hin hrest
      · rw [hwritten, List.singleton_append, Utf8.accepts, hnext]
        exact ih hmem hin hrest

theorem valid_dumpEscaped {s text : Bytes} (h : dumpEscaped s = .ok text) :
    Utf8.valid text = true :=
  accepts_dumpEscapedFrom (by decide : 0 ∈ decoderStates) trivial h

private theorem valid_cons {b : Byte} (hb : b ≤ 0x7F) (s : Bytes) :
    Utf8.valid (b :: s) = Utf8.valid s :=
  Utf8.valid_append (a := [b]) (Utf8.valid_of_ascii (by simpa using hb)) s

mutual

theorem valid_dump {j : Json} (hfloats : floatsWritten j = true) {text : Bytes}
    (h : dump j = .ok text) : Utf8.valid text = true := by
  cases j with
  | null => cases h; decide
  | boolean value => cases h; cases value <;> decide
  | numberInteger value => cases h; exact JsonText.valid_of_isNumber (isNumber_printInt value)
  | numberUnsigned value => cases h; exact JsonText.valid_of_isNumber (isNumber_print value).1
  | numberFloat float =>
      cases h
      rw [floatsWritten, Bool.or_eq_true, decide_eq_true_eq, decide_eq_true_eq] at hfloats
      rcases hfloats with rfl | hnumber
      · decide
      · exact JsonText.valid_of_isNumber hnumber
  | string value =>
      obtain ⟨inner, hinner, heq⟩ := exists_of_bind_eq_ok h
      cases heq
      rw [List.append_assoc, Utf8.valid_append (by decide), Utf8.valid_append
        (valid_dumpEscaped hinner)]
      decide
  | array elements =>
      obtain ⟨inner, hinner, heq⟩ := exists_of_bind_eq_ok h
      cases heq
      rw [List.append_assoc, Utf8.valid_append (by decide), Utf8.valid_append
        (valid_dumpElements hfloats hinner)]
      decide
  | object members =>
      obtain ⟨inner, hinner, heq⟩ := exists_of_bind_eq_ok h
      cases heq
      rw [List.append_assoc, Utf8.valid_append (by decide), Utf8.valid_append
        (valid_dumpMembers hfloats hinner)]
      decide

theorem valid_dumpElements {elements : List Json}
    (hfloats : floatsWrittenElements elements = true) {text : Bytes}
    (h : dumpElements elements = .ok text) : Utf8.valid text = true := by
  cases elements with
  | nil => cases h; rfl
  | cons element elements =>
      rw [floatsWrittenElements, Bool.and_eq_true] at hfloats
      obtain ⟨own, others, hown, hothers, rfl⟩ := dumpElements_cons h
      rw [Utf8.valid_append (valid_dump hfloats.1 hown), Utf8.valid_append (by split <;> decide)]
      exact valid_dumpElements hfloats.2 hothers

theorem valid_dumpMembers {members : List (Bytes × Json)}
    (hfloats : floatsWrittenMembers members = true) {text : Bytes}
    (h : dumpMembers members = .ok text) : Utf8.valid text = true := by
  cases members with
  | nil => cases h; rfl
  | cons member members =>
      obtain ⟨key, value⟩ := member
      rw [floatsWrittenMembers, Bool.and_eq_true] at hfloats
      obtain ⟨name, own, others, hname, hown, hothers, rfl⟩ := dumpMembers_cons h
      rw [valid_cons (by decide), Utf8.valid_append (valid_dumpEscaped hname),
        valid_cons (by decide), valid_cons (by decide),
        Utf8.valid_append (valid_dump hfloats.1 hown), Utf8.valid_append (by split <;> decide)]
      exact valid_dumpMembers hfloats.2 hothers

end

end Validity

theorem read_of_dump {j : Json} (hfloats : floatsWritten j = true) {text : Bytes}
    (h : dump j = .ok text) : JsonText.read text = some (denote j) := by
  apply JsonText.read_of_value (valid_dump hfloats h)
  have hvalue := value_dump hfloats h (Nat.le_succ _) (show ∀ b ∈ ([] : Bytes).head?, _ by simp)
  rwa [List.append_nil] at hvalue

/-- The members are found under their names. -/
theorem get_denote (j : Json) (name : Bytes) :
    (denote j).get name = (j.find name).map denote := by
  cases j with
  | object members =>
      change ((denoteMembers members).find? fun member => member.1 = name).map Prod.snd =
        (lookup name members).map denote
      induction members with
      | nil => rfl
      | cons member members ih =>
          obtain ⟨key, value⟩ := member
          rw [denoteMembers, lookup_cons]
          by_cases hkey : key = name
          · simp [hkey]
          · simp [hkey, ih]
  | numberFloat text =>
      rw [denote]
      split <;> rfl
  | _ => rfl

/-- `dump` returns if and only if the strings and keys are well-formed UTF-8.
A reader then finds the value in the text, so that two values with the same
text say the same. -/
theorem read_dump {j : Json} (hfloats : floatsWritten j = true) :
    (dump j).isOk = utf8Valid j ∧
    (∀ text, dump j = .ok text → JsonText.read text = some (denote j)) ∧
    ∀ j', floatsWritten j' = true → utf8Valid j = true → dump j = dump j' →
      denote j = denote j' := by
  refine ⟨dump_isOk j, fun text hdump => read_of_dump hfloats hdump, ?_⟩
  intro j' hfloats' hvalid hsame
  rw [← dump_isOk] at hvalid
  cases hdump : dump j with
  | error e =>
      rw [hdump] at hvalid
      cases hvalid
  | ok text =>
      have hread := read_of_dump hfloats hdump
      rw [read_of_dump hfloats' (hsame ▸ hdump)] at hread
      exact (Option.some.inj hread).symm

/-- A report with an umlaut, a quotation mark, a line break and a float. -/
def umlautReport : Json :=
  .object [(lit "message", .string (lit "\"Gr\u00fc\u00dfe\"\n")),
    (lit "values", .array [.numberInteger (-7), .numberFloat (lit "1.5e-07"), .null])]

theorem read_dump_umlautReport :
    ∃ text, dump umlautReport = .ok text ∧ JsonText.read text = some (denote umlautReport) := by
  obtain ⟨hok, hreads, -⟩ := read_dump (j := umlautReport) (by decide)
  cases hdump : dump umlautReport with
  | error e =>
      have hvalid : utf8Valid umlautReport = true := by decide
      rw [hdump, hvalid] at hok
      cases hok
  | ok text => exact ⟨text, rfl, hreads text hdump⟩

end Json
