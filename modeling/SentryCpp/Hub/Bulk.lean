import SentryCpp.Hub.Payload

/-!
The setters for a whole object. `setTag` and `setExtra` go through `emplace`,
which makes an object of a map that was never written, and remove a key whose
value is empty. `setTags` and `setExtras` go through the range `insert` of the
library, which does neither. It throws on null, and an empty value is a value
like any other. So the bulk setter does what the single one does for each
entry if and only if the map was written before and no value is empty.
-/

namespace Sentry

open StdString

/-- An object whose values are strings, in the order of its keys. -/
structure StringObject where
  entries : List (Bytes × Bytes)
  ordered : entries.Pairwise fun first second => first.1 < second.1

namespace StringObject

def members (obj : StringObject) : List (Bytes × Json) :=
  obj.entries.map fun entry => (entry.1, .string entry.2)

def toJson (obj : StringObject) : Json := .object obj.members

theorem nodup_keys (obj : StringObject) : (obj.entries.map Prod.fst).Nodup := by
  rw [List.Nodup, List.pairwise_map]
  apply obj.ordered.imp
  intro first second hlt heq
  rw [heq] at hlt
  exact lt_irrefl _ hlt

end StringObject

/-- `insert` on the values that a map has. -/
def ValueMap.insert (range : Json) :
    ValueMap → Except (Json.TypeError ⊕ Json.InvalidIterator) ValueMap
  | .null => .error (.inl (.create 309 (lit "cannot use insert() with " ++ lit "null")))
  | .object members =>
      match range with
      | .object entries => .ok (.object (insertAll entries members))
      | _ => .error (.inr (.create 202 (lit "iterators first and last must point to objects")))

theorem ValueMap.toJson_insert (m : ValueMap) (range : Json) :
    m.toJson.insert range = (m.insert range).map ValueMap.toJson := by
  cases m with
  | null => rfl
  | object members => cases range <;> rfl

namespace Scope

def setExtras (s : Scope) (extras : Json) :
    Except (Json.TypeError ⊕ Json.InvalidIterator) Scope :=
  (s.extras.insert extras).map fun extras => { s with extras := extras }

def setTags (s : Scope) (tags : Json) :
    Except (Json.TypeError ⊕ Json.InvalidIterator) Scope :=
  (s.tags.insert tags).map fun tags => { s with tags := tags }

/-- `setExtra` for each of the entries. -/
def setExtraEach (s : Scope) (obj : StringObject) : Scope :=
  obj.entries.foldl (fun s entry => s.setExtra entry.1 entry.2) s

/-- `setTag` for each of the entries. -/
def setTagEach (s : Scope) (obj : StringObject) : Scope :=
  obj.entries.foldl (fun s entry => s.setTag entry.1 entry.2) s

end Scope

/-- `setValueMap` for each of the entries. -/
def setValues (entries : List (Bytes × Bytes)) (m : ValueMap) : ValueMap :=
  entries.foldl (fun m entry => Scope.setValueMap entry.1 entry.2 m) m

theorem setExtraEach_eq (s : Scope) (obj : StringObject) :
    s.setExtraEach obj = { s with extras := setValues obj.entries s.extras } := by
  unfold Scope.setExtraEach
  induction obj.entries generalizing s with
  | nil => rfl
  | cons entry entries ih => exact ih (s.setExtra entry.1 entry.2)

theorem setTagEach_eq (s : Scope) (obj : StringObject) :
    s.setTagEach obj = { s with tags := setValues obj.entries s.tags } := by
  unfold Scope.setTagEach
  induction obj.entries generalizing s with
  | nil => rfl
  | cons entry entries ih => exact ih (s.setTag entry.1 entry.2)

theorem get_setValues_of_notMem {entries : List (Bytes × Bytes)} {key : Bytes}
    (hkey : key ∉ entries.map Prod.fst) (m : ValueMap) :
    (setValues entries m).get key = m.get key := by
  induction entries generalizing m with
  | nil => rfl
  | cons entry entries ih =>
      rw [List.map_cons, List.mem_cons, not_or] at hkey
      rw [setValues, List.foldl_cons, ← setValues, ih hkey.2, Scope.get_setValueMap, if_neg hkey.1]

/-- An entry with an empty value leaves its key without a value. -/
theorem get_setValues_of_empty {entries : List (Bytes × Bytes)}
    (hnodup : (entries.map Prod.fst).Nodup) {key : Bytes} (hmem : (key, []) ∈ entries)
    (m : ValueMap) : (setValues entries m).get key = none := by
  induction entries generalizing m with
  | nil => cases hmem
  | cons entry entries ih =>
      obtain ⟨hfresh, hrest⟩ := List.nodup_cons.mp hnodup
      rw [setValues, List.foldl_cons, ← setValues]
      rcases List.mem_cons.mp hmem with rfl | htail
      · rw [get_setValues_of_notMem hfresh, Scope.get_setValueMap, if_pos rfl, if_pos rfl]
      · exact ih hrest htail _

/-- Values that are not empty go the same way through both setters. -/
theorem setValues_object {entries : List (Bytes × Bytes)}
    (hvalues : ∀ entry ∈ entries, entry.2 ≠ []) (members : List (Bytes × Json)) :
    setValues entries (.object members) =
      .object (insertAll (entries.map fun entry => (entry.1, .string entry.2)) members) := by
  induction entries generalizing members with
  | nil => rfl
  | cons entry entries ih =>
      obtain ⟨hvalue, hrest⟩ := List.forall_mem_cons.mp hvalues
      rw [setValues, List.foldl_cons, ← setValues, Scope.setValueMap, if_neg hvalue,
        ValueMap.emplace, ih hrest]
      rfl

/-- The range `insert` is `setValueMap` for each of the entries exactly on a
map that has been written, and for values that are not empty. -/
theorem insert_eq_setValues_iff (m : ValueMap) (obj : StringObject) :
    m.insert obj.toJson = .ok (setValues obj.entries m) ↔
      m ≠ .null ∧ ∀ entry ∈ obj.entries, entry.2 ≠ [] := by
  cases m with
  | null => simp [ValueMap.insert]
  | object members =>
      simp only [ValueMap.insert, StringObject.toJson, StringObject.members, ne_eq, reduceCtorEq,
        not_false_eq_true, true_and, Except.ok.injEq]
      constructor
      · intro hsame entry hentry hempty
        have hnone : (setValues obj.entries (.object members)).get entry.1 = none := by
          apply get_setValues_of_empty obj.nodup_keys
          rwa [← hempty]
        rw [← hsame, ValueMap.get, ValueMap.toJson, Json.find, lookup_insertAll,
          Option.or_eq_none_iff] at hnone
        exact Json.forall_ne_of_lookup_eq_none hnone.2 _ (List.mem_map_of_mem hentry) rfl
      · intro hvalues
        rw [setValues_object hvalues]

/-- Each bulk setter agrees with its single one on a map that has been written,
if no value is empty, and on nothing else. -/
theorem setTags_setExtras_iff (s : Scope) (obj : StringObject) :
    (s.setTags obj.toJson = .ok (s.setTagEach obj) ↔
      s.tags ≠ .null ∧ ∀ entry ∈ obj.entries, entry.2 ≠ []) ∧
    (s.setExtras obj.toJson = .ok (s.setExtraEach obj) ↔
      s.extras ≠ .null ∧ ∀ entry ∈ obj.entries, entry.2 ≠ []) := by
  rw [← insert_eq_setValues_iff, ← insert_eq_setValues_iff, Scope.setTags, Scope.setExtras,
    setTagEach_eq, setExtraEach_eq]
  constructor
  · cases s.tags.insert obj.toJson <;> simp [Except.map]
  · cases s.extras.insert obj.toJson <;> simp [Except.map]

/-- One extra for a scope that has none. -/
theorem setExtras_throws :
    ¬ ∀ (s : Scope) (obj : StringObject),
      s.setTags obj.toJson = .ok (s.setTagEach obj) ∧
        s.setExtras obj.toJson = .ok (s.setExtraEach obj) := by
  intro hall
  have hextras := (hall (Scope.new none none)
    ⟨[(lit "a", lit "b")], List.pairwise_singleton _ _⟩).2
  cases hextras

end Sentry
