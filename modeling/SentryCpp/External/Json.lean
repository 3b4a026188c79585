import SentryCpp.Foundation.Number
import SentryCpp.Foundation.Utf8

/-!
The part of the vendored JSON library that the scope and the hub use: values,
access to the members of an object, and the compact `dump`. An object is the
`std::map` of its members, kept in the order of the keys.

`dump` copies strings through the decoder table of the library and throws on
the first byte the table rejects. `dump_isOk_iff` says that this happens
exactly if some string or some key is not well-formed UTF-8.
-/

open StdString Number

/-- `numberFloat` holds the text that `dump_float` writes. -/
inductive Json where
  | null
  | boolean (value : Bool)
  | numberInteger (value : Int)
  | numberUnsigned (value : Nat)
  | numberFloat (text : Bytes)
  | string (value : Bytes)
  | array (elements : List Json)
  | object (members : List (Bytes × Json))
  deriving BEq, Repr

namespace Json

/-- A `type_error` of the library. -/
structure TypeError where
  id : Nat
  what : Bytes
  deriving DecidableEq, Repr

def TypeError.create (id : Nat) (whatArg : Bytes) : TypeError :=
  ⟨id, lit "[json.exception." ++ lit "type_error" ++ lit "." ++ print 10 id ++ lit "] " ++ whatArg⟩

def typeName : Json → Bytes
  | .null => lit "null"
  | .object _ => lit "object"
  | .array _ => lit "array"
  | .string _ => lit "string"
  | .boolean _ => lit "boolean"
  | .numberInteger _ | .numberUnsigned _ | .numberFloat _ => lit "number"

/-- The value at a key of a map. -/
def lookup (key : Bytes) (members : List (Bytes × Json)) : Option Json :=
  (members.find? fun member => member.1 = key).map Prod.snd

/-- The place of a new key in the order of the map. -/
def insertSorted (key : Bytes) (value : Json) : List (Bytes × Json) → List (Bytes × Json)
  | [] => [(key, value)]
  | member :: members =>
      if key < member.1 then (key, value) :: member :: members
      else member :: insertSorted key value members

/-- `std::map::insert` and `std::map::emplace`: nothing happens if the key is
there. -/
def insertNew (key : Bytes) (value : Json) (members : List (Bytes × Json)) :
    List (Bytes × Json) :=
  if (lookup key members).isSome then members else insertSorted key value members

/-- Assignment through `std::map::operator[]`. -/
def insertOrAssign (key : Bytes) (value : Json) (members : List (Bytes × Json)) :
    List (Bytes × Json) :=
  if (lookup key members).isSome then
    members.map fun member => if member.1 = key then (key, value) else member
  else insertSorted key value members

/-- `j.find(key)`, with `none` for `j.end()`. -/
def find (j : Json) (key : Bytes) : Option Json :=
  match j with
  | .object members => lookup key members
  | _ => none

/-- `j[key] = value`. -/
def assign (j : Json) (key : Bytes) (value : Json) : Except TypeError Json :=
  match j with
  | .null => .ok (.object [(key, value)])
  | .object members => .ok (.object (insertOrAssign key value members))
  | _ => .error (.create 305 (lit "cannot use operator[] with " ++ j.typeName))

/-- `j.emplace(key, value)`. -/
def emplace (j : Json) (key : Bytes) (value : Json) : Except TypeError Json :=
  match j with
  | .null => .ok (.object [(key, value)])
  | .object members => .ok (.object (insertNew key value members))
  | _ => .error (.create 311 (lit "cannot use emplace() with " ++ j.typeName))

/-- `j.erase(key)`. -/
def erase (j : Json) (key : Bytes) : Except TypeError Json :=
  match j with
  | .object members => .ok (.object (members.filter fun member => member.1 ≠ key))
  | _ => .error (.create 307 (lit "cannot use erase() with " ++ j.typeName))

/-- `j.push_back({key, value})`. On anything but an object the braces are a
list of two elements. -/
def pushBack (j : Json) (key : Bytes) (value : Json) : Except TypeError Json :=
  match j with
  | .object members => .ok (.object (insertNew key value members))
  | .null => .ok (.array [.array [.string key, value]])
  | .array elements => .ok (.array (elements ++ [.array [.string key, value]]))
  | _ => .error (.create 308 (lit "cannot use push_back() with " ++ j.typeName))

/-- `j.push_back(value)`. -/
def pushBackValue (j value : Json) : Except TypeError Json :=
  match j with
  | .null => .ok (.array [value])
  | .array elements => .ok (.array (elements ++ [value]))
  | _ => .error (.create 308 (lit "cannot use push_back() with " ++ j.typeName))

/-- An `invalid_iterator` of the library. -/
structure InvalidIterator where
  id : Nat
  what : Bytes
  deriving DecidableEq, Repr

def InvalidIterator.create (id : Nat) (whatArg : Bytes) : InvalidIterator :=
  ⟨id, lit "[json.exception." ++ lit "invalid_iterator" ++ lit "." ++ print 10 id ++ lit "] " ++
    whatArg⟩

/-- `j.insert(range.begin(), range.end())`. The iterators belong to the same
value, so that the check for two different ones passes. -/
def insert (j range : Json) : Except (TypeError ⊕ InvalidIterator) Json :=
  match j, range with
  | .object members, .object entries =>
      .ok (.object (entries.foldl (fun members entry => insertNew entry.1 entry.2 members)
        members))
  | .object _, _ =>
      .error (.inr (.create 202 (lit "iterators first and last must point to objects")))
  | _, _ => .error (.inl (.create 309 (lit "cannot use insert() with " ++ j.typeName)))

/-- The conversion to `std::string`. -/
def getString (j : Json) : Except TypeError Bytes :=
  match j with
  | .string value => .ok value
  | _ => .error (.create 302 (lit "type must be string, but is " ++ j.typeName))

/-- `j.empty()`. -/
def empty : Json → Bool
  | .null => true
  | .array elements => elements.isEmpty
  | .object members => members.isEmpty
  | _ => false

@[simp]
theorem lookup_nil (key : Bytes) : lookup key [] = none := rfl

theorem lookup_cons (key : Bytes) (member : Bytes × Json) (members : List (Bytes × Json)) :
    lookup key (member :: members) =
      if member.1 = key then some member.2 else lookup key members := by
  by_cases h : member.1 = key <;> simp [lookup, h]

theorem lookup_append (key : Bytes) (members members' : List (Bytes × Json)) :
    lookup key (members ++ members') = (lookup key members).or (lookup key members') := by
  induction members with
  | nil => rfl
  | cons member members ih =>
      rw [List.cons_append, lookup_cons, lookup_cons, ih]
      split <;> rfl

theorem mem_of_lookup {key : Bytes} {value : Json} {members : List (Bytes × Json)}
    (h : lookup key members = some value) : (key, value) ∈ members := by
  induction members with
  | nil => simp at h
  | cons member members ih =>
      rw [lookup_cons] at h
      split at h
      · rename_i heq
        cases h
        subst key
        exact List.mem_cons_self
      · exact List.mem_cons_of_mem _ (ih h)

private theorem lookup_insertSorted {key : Bytes} {members : List (Bytes × Json)}
    (h : lookup key members = none) (value : Json) (other : Bytes) :
    lookup other (insertSorted key value members) =
      if other = key then some value else lookup other members := by
  induction members with
  | nil => simp [insertSorted, lookup_cons, eq_comm]
  | cons member members ih =>
      rw [lookup_cons] at h
      split at h
      · cases h
      · rename_i hne
        rw [insertSorted]
        split
        · simp only [lookup_cons, eq_comm]
        · rw [lookup_cons, ih h, lookup_cons]
          by_cases hother : other = key
          · simp [hother, hne]
          · simp [hother]

theorem lookup_insertNew (key : Bytes) (value : Json) (members : List (Bytes × Json))
    (other : Bytes) :
    lookup other (insertNew key value members) =
      if other = key then some ((lookup key members).getD value) else lookup other members := by
  rw [insertNew]
  cases hkey : lookup key members with
  | none => simp [lookup_insertSorted hkey]
  | some old =>
      by_cases hother : other = key
      · simp [hother, hkey]
      · simp [hother]

private theorem lookup_replace (key : Bytes) (value : Json) (members : List (Bytes × Json))
    (other : Bytes) :
    lookup other (members.map fun member => if member.1 = key then (key, value) else member) =
      if other = key then (lookup key members).map fun _ => value else lookup other members := by
  induction members with
  | nil => simp
  | cons member members ih =>
      rw [List.map_cons, lookup_cons, ih, lookup_cons, lookup_cons]
      by_cases hmember : member.1 = key
      · by_cases hother : other = key
        · simp [hmember, hother]
        · simp [hmember, hother, Ne.symm hother]
      · by_cases hother : other = key
        · simp [hmember, hother]
        · simp [hmember, hother]

theorem lookup_insertOrAssign (key : Bytes) (value : Json) (members : List (Bytes × Json))
    (other : Bytes) :
    lookup other (insertOrAssign key value members) =
      if other = key then some value else lookup other members := by
  rw [insertOrAssign]
  cases hkey : lookup key members with
  | none => simp [lookup_insertSorted hkey]
  | some old => simp [lookup_replace, hkey]

theorem lookup_filter_ne (key : Bytes) (members : List (Bytes × Json)) (other : Bytes) :
    lookup other (members.filter fun member => member.1 ≠ key) =
      if other = key then none else lookup other members := by
  induction members with
  | nil => simp
  | cons member members ih =>
      rw [List.filter_cons]
      by_cases hmember : member.1 = key
      · simp only [hmember, ne_eq, not_true, decide_false, Bool.false_eq_true, if_false, ih,
          lookup_cons]
        by_cases hother : other = key
        · simp [hother]
        · simp [hother, Ne.symm hother]
      · simp only [ne_eq, hmember, not_false_eq_true, decide_true, if_true, lookup_cons, ih]
        by_cases hother : other = key
        · simp [hother, hmember]
        · simp [hother]

theorem forall_ne_of_lookup_eq_none {key : Bytes} {members : List (Bytes × Json)}
    (h : lookup key members = none) : ∀ member ∈ members, member.1 ≠ key := by
  simpa [lookup] using h

private theorem all_insertSorted (key : Bytes) (value : Json) (test : Bytes × Json → Bool)
    (members : List (Bytes × Json)) :
    (insertSorted key value members).all test = (test (key, value) && members.all test) := by
  induction members with
  | nil => simp [insertSorted]
  | cons member members ih =>
      rw [insertSorted]
      split
      · rfl
      · simp only [List.all_cons, ih]
        exact Bool.and_left_comm _ _ _

theorem all_insertNew (key : Bytes) (value : Json) (test : Bytes × Json → Bool)
    (members : List (Bytes × Json)) :
    (insertNew key value members).all test =
      (members.all test && ((lookup key members).isSome || test (key, value))) := by
  rw [insertNew]
  cases lookup key members with
  | none => simp [all_insertSorted, Bool.and_comm]
  | some old => simp

theorem all_insertOrAssign (key : Bytes) (value : Json) (test : Bytes × Json → Bool)
    (members : List (Bytes × Json)) :
    (insertOrAssign key value members).all test =
      (test (key, value) && members.all fun member => member.1 = key || test member) := by
  rw [insertOrAssign]
  cases hkey : lookup key members with
  | none =>
      have hne := forall_ne_of_lookup_eq_none hkey
      have hall : (members.all fun member => member.1 = key || test member) =
          members.all test := by
        rw [Bool.eq_iff_iff, List.all_eq_true, List.all_eq_true]
        apply forall₂_congr
        intro member hmem
        simp [hne member hmem]
      simp [all_insertSorted, hall]
  | some old =>
      simp only [Option.isSome_some, if_true, List.all_map]
      have hmem := mem_of_lookup hkey
      rw [Bool.eq_iff_iff, Bool.and_eq_true, List.all_eq_true, List.all_eq_true]
      constructor
      · intro h
        refine ⟨by simpa using h (key, old) hmem, ?_⟩
        intro member hmember
        have := h member hmember
        by_cases heq : member.1 = key <;> simp_all
      · rintro ⟨hnew, hrest⟩ member hmember
        have := hrest member hmember
        by_cases heq : member.1 = key <;> simp_all

/-- The members of an object, in the strict order of a `std::map`. -/
def SortedKeys (members : List (Bytes × Json)) : Prop :=
  (members.map Prod.fst).Pairwise (· < ·)

theorem mem_insertSorted {key : Bytes} {value : Json} {members : List (Bytes × Json)}
    {member : Bytes × Json} :
    member ∈ insertSorted key value members ↔ member = (key, value) ∨ member ∈ members := by
  induction members with
  | nil => simp [insertSorted]
  | cons head members ih =>
      rw [insertSorted]
      split
      · simp
      · simp only [List.mem_cons, ih]
        tauto

theorem sortedKeys_insertSorted {key : Bytes} {members : List (Bytes × Json)}
    (hnew : lookup key members = none) (value : Json) (h : SortedKeys members) :
    SortedKeys (insertSorted key value members) := by
  induction members with
  | nil => simp [insertSorted, SortedKeys]
  | cons head members ih =>
      have hne := forall_ne_of_lookup_eq_none hnew
      rw [SortedKeys, List.map_cons, List.pairwise_cons] at h
      rw [insertSorted]
      split
      · rename_i hlt
        rw [SortedKeys, List.map_cons, List.pairwise_cons]
        refine ⟨?_, by rw [List.map_cons, List.pairwise_cons]; exact h⟩
        intro other hother
        rcases List.mem_cons.mp hother with rfl | hmem
        · exact hlt
        · exact hlt.trans (h.1 other hmem)
      · rename_i hge
        have hrest : lookup key members = none := by
          rw [lookup_cons, if_neg (hne head List.mem_cons_self)] at hnew
          exact hnew
        rw [SortedKeys, List.map_cons, List.pairwise_cons]
        refine ⟨?_, ih hrest h.2⟩
        intro other hother
        obtain ⟨member, hmember, rfl⟩ := List.mem_map.mp hother
        rcases mem_insertSorted.mp hmember with rfl | hmem
        · exact lt_of_le_of_ne (not_lt.mp hge) (hne head List.mem_cons_self)
        · exact h.1 member.1 (List.mem_map_of_mem hmem)

theorem sortedKeys_insertNew {key : Bytes} {members : List (Bytes × Json)} (value : Json)
    (h : SortedKeys members) : SortedKeys (insertNew key value members) := by
  rw [insertNew]
  split
  · exact h
  · rename_i hnew
    exact sortedKeys_insertSorted (by simpa using hnew) value h

theorem sortedKeys_insertOrAssign {key : Bytes} {members : List (Bytes × Json)} (value : Json)
    (h : SortedKeys members) : SortedKeys (insertOrAssign key value members) := by
  rw [insertOrAssign]
  split
  · -- the keys stay
    have hkeys : (members.map fun member => if member.1 = key then (key, value) else member).map
        Prod.fst = members.map Prod.fst := by
      rw [List.map_map]
      apply List.map_congr_left
      intro member _
      by_cases hkey : member.1 = key <;> simp [hkey]
    rw [SortedKeys, hkeys]
    exact h
  · rename_i hnew
    exact sortedKeys_insertSorted (by simpa using hnew) value h

/-- The table of `serializer::decode`. -/
def utf8d : List Nat := [
  0, 0, 0, 0, 0, 0, 0, 0, 0, 0, 0, 0, 0, 0, 0, 0, 0, 0, 0, 0, 0, 0, 0, 0, 0, 0, 0, 0, 0, 0, 0, 0, -- 00..1F
  0, 0, 0, 0, 0, 0, 0, 0, 0, 0, 0, 0, 0, 0, 0, 0, 0, 0, 0, 0, 0, 0, 0, 0, 0, 0, 0, 0, 0, 0, 0, 0, -- 20..3F
  0, 0, 0, 0, 0, 0, 0, 0, 0, 0, 0, 0, 0, 0, 0, 0, 0, 0, 0, 0, 0, 0, 0, 0, 0, 0, 0, 0, 0, 0, 0, 0, -- 40..5F
  0, 0, 0, 0, 0, 0, 0, 0, 0, 0, 0, 0, 0, 0, 0, 0, 0, 0, 0, 0, 0, 0, 0, 0, 0, 0, 0, 0, 0, 0, 0, 0, -- 60..7F
  1, 1, 1, 1, 1, 1, 1, 1, 1, 1, 1, 1, 1, 1, 1, 1, 9, 9, 9, 9, 9, 9, 9, 9, 9, 9, 9, 9, 9, 9, 9, 9, -- 80..9F
  7, 7, 7, 7, 7, 7, 7, 7, 7, 7, 7, 7, 7, 7, 7, 7, 7, 7, 7, 7, 7, 7, 7, 7, 7, 7, 7, 7, 7, 7, 7, 7, -- A0..BF
  8, 8, 2, 2, 2, 2, 2, 2, 2, 2, 2, 2, 2, 2, 2, 2, 2, 2, 2, 2, 2, 2, 2, 2, 2, 2, 2, 2, 2, 2, 2, 2, -- C0..DF
  10, 3, 3, 3, 3, 3, 3, 3, 3, 3, 3, 3, 3, 4, 3, 3, -- E0..EF
  11, 6, 6, 6, 5, 8, 8, 8, 8, 8, 8, 8, 8, 8, 8, 8, -- F0..FF
  0, 1, 2, 3, 5, 8, 7, 1, 1, 1, 4, 6, 1, 1, 1, 1, -- s0..s0
  1, 1, 1, 1, 1, 1, 1, 1, 1, 1, 1, 1, 1, 1, 1, 1, 1, 0, 1, 1, 1, 1, 1, 0, 1, 0, 1, 1, 1, 1, 1, 1, -- s1..s2
  1, 2, 1, 1, 1, 1, 1, 2, 1, 2, 1, 1, 1, 1, 1, 1, 1, 1, 1, 1, 1, 1, 1, 2, 1, 1, 1, 1, 1, 1, 1, 1, -- s3..s4
  1, 2, 1, 1, 1, 1, 1, 1, 1, 2, 1, 1, 1, 1, 1, 1, 1, 1, 1, 1, 1, 1, 1, 3, 1, 3, 1, 1, 1, 1, 1, 1, -- s5..s6
  1, 3, 1, 1, 1, 1, 1, 3, 1, 3, 1, 1, 1, 1, 1, 1, 1, 3, 1, 1, 1, 1, 1, 1, 1, 1, 1, 1, 1, 1, 1, 1] -- s7..s8

/-- `decode(state, codep, byte)`: the new state and code point. -/
def decode (state codep : Nat) (byte : Byte) : Nat × Nat :=
  let type := utf8d.getD byte.toNat 0
  let codep :=
    if state ≠ 0 then (byte.toNat &&& 0x3F) ||| ((codep <<< 6) % 2 ^ 32)
    else (0xFF >>> type) &&& byte.toNat
  (utf8d.getD (256 + state * 16 + type) 0, codep)

/-- A byte as two capital hexadecimal digits. -/
def hexByte (byte : Byte) : Bytes :=
  [byte.toNat / 16, byte.toNat % 16].map fun d =>
    if d < 10 then digitChar d else digitChar d - 32

/-- What `dump_escaped` writes for a complete code point: an escape sequence,
or the last byte of the code point. -/
def escape (codepoint : Nat) (byte : Byte) : Bytes :=
  match codepoint with
  | 0x08 => lit "\\b"
  | 0x09 => lit "\\t"
  | 0x0A => lit "\\n"
  | 0x0C => lit "\\f"
  | 0x0D => lit "\\r"
  | 0x22 => lit "\\\""
  | 0x5C => lit "\\\\"
  | _ =>
      if codepoint ≤ 0x1F then
        lit "\\u" ++ List.replicate (4 - (print 16 codepoint).length) 48 ++ print 16 codepoint
      else [byte]

/-- `dump_escaped` from byte `i` on, with `ensure_ascii` off; `last` is the
byte in front. -/
def dumpEscapedFrom (state codep i : Nat) (last : Byte) : Bytes → Except TypeError Bytes
  | [] =>
      if state = 0 then .ok []
      else .error (.create 316 (lit "incomplete UTF-8 string; last byte: 0x" ++ hexByte last))
  | byte :: s =>
      match decode state codep byte with
      | (0, codep) => do
          let rest ← dumpEscapedFrom 0 codep (i + 1) byte s
          return escape codep byte ++ rest
      | (1, _) =>
          .error (.create 316
            (lit "invalid UTF-8 byte at index " ++ print 10 i ++ lit ": 0x" ++ hexByte byte))
      | (state, codep) => do
          let rest ← dumpEscapedFrom state codep (i + 1) byte s
          return byte :: rest

def dumpEscaped (s : Bytes) : Except TypeError Bytes := dumpEscapedFrom 0 0 0 0 s

mutual

/-- `dump()`: compact, without `ensure_ascii`. -/
def dump : Json → Except TypeError Bytes
  | .null => .ok (lit "null")
  | .boolean value => .ok (if value then lit "true" else lit "false")
  | .numberInteger value => .ok (printInt value)
  | .numberUnsigned value => .ok (print 10 value)
  | .numberFloat text => .ok text
  | .string value => do
      let text ← dumpEscaped value
      return lit "\"" ++ text ++ lit "\""
  | .array elements => do
      let text ← dumpElements elements
      return lit "[" ++ text ++ lit "]"
  | .object members => do
      let text ← dumpMembers members
      return lit "\x7b" ++ text ++ lit "\x7d"

def dumpElements : List Json → Except TypeError Bytes
  | [] => .ok []
  | element :: elements => do
      let text ← dump element
      let rest ← dumpElements elements
      return text ++ (if elements.isEmpty then [] else lit ",") ++ rest

def dumpMembers : List (Bytes × Json) → Except TypeError Bytes
  | [] => .ok []
  | (key, value) :: members => do
      let name ← dumpEscaped key
      let text ← dump value
      let rest ← dumpMembers members
      return lit "\"" ++ name ++ lit "\":" ++ text ++
        (if members.isEmpty then [] else lit ",") ++ rest

end

mutual

/-- Every string and every key in the value is well-formed UTF-8. -/
def utf8Valid : Json → Bool
  | .string value => Utf8.valid value
  | .array elements => utf8ValidElements elements
  | .object members => utf8ValidMembers members
  | .null | .boolean _ | .numberInteger _ | .numberUnsigned _ | .numberFloat _ => true

def utf8ValidElements : List Json → Bool
  | [] => true
  | element :: elements => utf8Valid element && utf8ValidElements elements

def utf8ValidMembers : List (Bytes × Json) → Bool
  | [] => true
  | (key, value) :: members => Utf8.valid key && utf8Valid value && utf8ValidMembers members

end

theorem utf8ValidElements_eq (elements : List Json) :
    utf8ValidElements elements = elements.all utf8Valid := by
  induction elements with
  | nil => rfl
  | cons element elements ih => rw [utf8ValidElements, ih, List.all_cons]

/-- The test that `utf8ValidMembers` makes on each member. -/
def utf8ValidMember (member : Bytes × Json) : Bool :=
  Utf8.valid member.1 && utf8Valid member.2

theorem utf8ValidMembers_eq (members : List (Bytes × Json)) :
    utf8ValidMembers members = members.all utf8ValidMember := by
  induction members with
  | nil => rfl
  | cons member members ih =>
      obtain ⟨key, value⟩ := member
      rw [utf8ValidMembers, ih, List.all_cons, utf8ValidMember]

/-- The states of the decoder between two bytes, the rejecting one left out. -/
def decoderStates : List Nat := [0, 2, 3, 4, 5, 6, 7, 8]

/-- The ranges that a state of the decoder owes. -/
def owedAt : Nat → List (Byte × Byte)
  | 2 => [Utf8.tail]
  | 3 => [Utf8.tail, Utf8.tail]
  | 4 => [(0xA0, 0xBF), Utf8.tail]
  | 5 => [(0x80, 0x9F), Utf8.tail]
  | 6 => [(0x90, 0xBF), Utf8.tail, Utf8.tail]
  | 7 => [Utf8.tail, Utf8.tail, Utf8.tail]
  | 8 => [(0x80, 0x8F), Utf8.tail, Utf8.tail]
  | _ => []

/-- Each type of the first part of the table is looked up in the second part
once for each state, in the row of the state. -/
private theorem decode_table :
    (decoderStates.all fun state => (utf8d.take 256).zipIdx.all fun (type, byte) =>
      match Utf8.next (owedAt state) (UInt8.ofNat byte) with
      | none => (utf8d.drop (256 + state * 16)).getD type 0 == 1
      | some owed =>
          decoderStates.contains ((utf8d.drop (256 + state * 16)).getD type 0) &&
            owedAt ((utf8d.drop (256 + state * 16)).getD type 0) == owed) = true := by
  decide +kernel

theorem getD_row (state type : Nat) :
    (utf8d.drop (256 + state * 16)).getD type 0 = utf8d.getD (256 + state * 16 + type) 0 := by
  rw [List.getD_eq_getElem?_getD, List.getElem?_drop, List.getD_eq_getElem?_getD]

theorem type_mem_table (byte : Byte) :
    (utf8d.getD byte.toNat 0, byte.toNat) ∈ (utf8d.take 256).zipIdx := by
  have hlength : 256 ≤ utf8d.length := by decide +kernel
  have hlt : byte.toNat < 256 := byte.toNat_lt
  rw [List.mk_mem_zipIdx_iff_getElem?, List.getElem?_take_of_lt hlt,
    List.getD_eq_getElem?_getD, List.getElem?_eq_getElem (by omega), Option.getD_some]

/-- The table moves between the states as the owed ranges do, and goes to the
rejecting state where no range allows the byte. -/
theorem decode_spec {state : Nat} (hstate : state ∈ decoderStates) (codep : Nat) (byte : Byte) :
    (Utf8.next (owedAt state) byte = none ∧ (decode state codep byte).1 = 1) ∨
    ((decode state codep byte).1 ∈ decoderStates ∧
      Utf8.next (owedAt state) byte = some (owedAt (decode state codep byte).1)) := by
  have htable := List.all_eq_true.mp (List.all_eq_true.mp decode_table state hstate) _
    (type_mem_table byte)
  have hfst : (decode state codep byte).1 =
      utf8d.getD (256 + state * 16 + utf8d.getD byte.toNat 0) 0 := rfl
  simp only [UInt8.ofNat_toNat, getD_row, ← hfst] at htable
  cases hnext : Utf8.next (owedAt state) byte with
  | none => exact Or.inl ⟨rfl, by simpa [hnext] using htable⟩
  | some owed =>
      simp only [hnext, Bool.and_eq_true, List.contains_iff_mem, beq_iff_eq] at htable
      exact Or.inr ⟨htable.1, by rw [htable.2]⟩

private theorem isOk_map {ε α β : Type} (x : Except ε α) (f : α → β) :
    (do let a ← x; return f a).isOk = x.isOk := by
  cases x <;> rfl

private theorem dumpEscapedFrom_isOk {state : Nat} (hstate : state ∈ decoderStates)
    (codep i : Nat) (last : Byte) (s : Bytes) :
    (dumpEscapedFrom state codep i last s).isOk = Utf8.accepts (owedAt state) s := by
  induction s generalizing state codep i last with
  | nil =>
      simp only [decoderStates, List.mem_cons, List.not_mem_nil, or_false] at hstate
      rcases hstate with rfl | rfl | rfl | rfl | rfl | rfl | rfl | rfl <;> rfl
  | cons byte s ih =>
      simp only [dumpEscapedFrom, Utf8.accepts]
      rcases decode_spec hstate codep byte with ⟨hnext, hreject⟩ | ⟨hmem, hnext⟩
      · obtain ⟨codep', hdecode⟩ : ∃ codep', decode state codep byte = (1, codep') :=
          ⟨_, Prod.ext hreject rfl⟩
        simp only [hnext, hdecode]
        rfl
      · rw [hnext]
        generalize decode state codep byte = result at hmem hnext ⊢
        split
        · exact (isOk_map _ _).trans (ih hmem _ _ _)
        · simp [decoderStates] at hmem
        · exact (isOk_map _ _).trans (ih hmem _ _ _)

theorem dumpEscaped_isOk (s : Bytes) : (dumpEscaped s).isOk = Utf8.valid s :=
  dumpEscapedFrom_isOk (by decide) 0 0 0 s

private theorem isOk_bind {ε α β : Type} (x : Except ε α) (f : α → Except ε β) {b : Bool}
    (h : ∀ a, x = .ok a → (f a).isOk = b) : (x >>= f).isOk = (x.isOk && b) := by
  cases x with
  | error e => rfl
  | ok a => simpa [bind, Except.bind, Except.isOk, Except.toBool] using h a rfl

mutual

/-- `dump` returns if and only if every string and every key is well-formed
UTF-8. -/
theorem dump_isOk (j : Json) : (dump j).isOk = utf8Valid j := by
  cases j with
  | null | boolean | numberInteger | numberUnsigned | numberFloat => rfl
  | string value => exact (isOk_map _ _).trans (dumpEscaped_isOk value)
  | array elements => exact (isOk_map _ _).trans (dumpElements_isOk elements)
  | object members => exact (isOk_map _ _).trans (dumpMembers_isOk members)

theorem dumpElements_isOk (elements : List Json) :
    (dumpElements elements).isOk = utf8ValidElements elements := by
  cases elements with
  | nil => rfl
  | cons element elements =>
      rw [dumpElements, utf8ValidElements, ← dump_isOk element, ← dumpElements_isOk elements]
      apply isOk_bind
      intro text _
      exact isOk_map _ _

theorem dumpMembers_isOk (members : List (Bytes × Json)) :
    (dumpMembers members).isOk = utf8ValidMembers members := by
  cases members with
  | nil => rfl
  | cons member members =>
      obtain ⟨key, value⟩ := member
      rw [dumpMembers, utf8ValidMembers, ← dumpEscaped_isOk key, ← dump_isOk value,
        ← dumpMembers_isOk members, Bool.and_assoc]
      apply isOk_bind
      intro name _
      apply isOk_bind
      intro text _
      exact isOk_map _ _

end

end Json
