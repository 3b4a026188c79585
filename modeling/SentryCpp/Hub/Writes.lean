import SentryCpp.Hub.Basic

/-!
Runs of `setTag` and `setExtra`. A map that assigns holds the last value of
each key. `setValueMap` inserts without assigning, so a key keeps the first
value it was given since it was last erased. `lastWriterWins_iff` says when
the two agree.
-/

namespace Sentry

open StdString

inductive Write where
  | tag (key value : Bytes)
  | extra (key value : Bytes)
  deriving DecidableEq, Repr

namespace Hub

def write (h : Hub) : Write → Hub
  | .tag key value => h.setTag key value
  | .extra key value => h.setExtra key value

def writeAll (h : Hub) (writes : List Write) : Hub := writes.foldl write h

end Hub

/-- The values written to a tag, in order. The key `release` is not a tag. -/
def tagWrites (key : Bytes) (writes : List Write) : List Bytes :=
  writes.filterMap fun
    | .tag k value => if k = key ∧ k ≠ lit "release" then some value else none
    | .extra .. => none

def extraWrites (key : Bytes) (writes : List Write) : List Bytes :=
  writes.filterMap fun
    | .tag .. => none
    | .extra k value => if k = key then some value else none

def releaseWrites (writes : List Write) : List Bytes :=
  writes.filterMap fun
    | .tag k value => if k = lit "release" then some value else none
    | .extra .. => none

/-- What a key holds after `values` were assigned to it, where the empty value
erases it. -/
def lastWriter (initial : Option Json) (values : List Bytes) : Option Json :=
  match values.getLast? with
  | none => initial
  | some [] => none
  | some value => some (.string value)

structure LastWriterWins (h : Hub) (writes : List Write) (t : Hub) : Prop where
  tags : ∀ key,
    t.scope.tags.get key = lastWriter (h.scope.tags.get key) (tagWrites key writes)
  extras : ∀ key,
    t.scope.extras.get key = lastWriter (h.scope.extras.get key) (extraWrites key writes)
  release : t.scope.release = (releaseWrites writes).getLast?.getD h.scope.release

/-- The values written since the key was last erased. -/
def sinceErase (values : List Bytes) : List Bytes :=
  (values.reverse.takeWhile fun value => value ≠ []).reverse

/-- The initial entry if the key was never erased, else the first value
written since. -/
def firstWriter (initial : Option Json) (values : List Bytes) : Option Json :=
  (if [] ∈ values then none else initial).or ((sinceErase values).head?.map .string)

/-- The last value, if it is not empty, is the one that the key has held since
its last erasure. -/
def Kept (initial : Option Json) (values : List Bytes) : Prop :=
  ∀ value, values.getLast? = some value → value ≠ [] →
    firstWriter initial values = some (.string value)

theorem firstWriter_nil (initial : Option Json) : firstWriter initial [] = initial := by
  simp [firstWriter, sinceErase]

theorem firstWriter_snoc (initial : Option Json) (values : List Bytes) (value : Bytes) :
    firstWriter initial (values ++ [value]) =
      if value = [] then none
      else some ((firstWriter initial values).getD (.string value)) := by
  by_cases hvalue : value = []
  · simp [firstWriter, sinceErase, hvalue]
  · have hsince : sinceErase (values ++ [value]) = sinceErase values ++ [value] := by
      simp [sinceErase, hvalue]
    have hmem : [] ∈ values ++ [value] ↔ [] ∈ values := by simp [Ne.symm hvalue]
    simp only [firstWriter, hsince, hmem, hvalue, if_false]
    cases sinceErase values <;> split <;> cases initial <;> simp

theorem firstWriter_eq_lastWriter_iff (initial : Option Json) (values : List Bytes) :
    firstWriter initial values = lastWriter initial values ↔ Kept initial values := by
  rcases List.eq_nil_or_concat values with rfl | ⟨earlier, value, rfl⟩
  · simp [firstWriter_nil, lastWriter, Kept]
  · simp only [Kept, lastWriter, List.concat_eq_append, List.getLast?_append,
      List.getLast?_singleton, Option.some_or, Option.some.injEq, forall_eq']
    cases value with
    | nil => simp [firstWriter_snoc]
    | cons b bs => simp

theorem Hub.writeAll_snoc (h : Hub) (writes : List Write) (w : Write) :
    h.writeAll (writes ++ [w]) = (h.writeAll writes).write w := by
  simp [Hub.writeAll]

/-- The run lemma: what the maps hold after any sequence of writes. -/
theorem get_tags_writeAll (h : Hub) (writes : List Write) (key : Bytes) :
    (h.writeAll writes).scope.tags.get key =
      firstWriter (h.scope.tags.get key) (tagWrites key writes) := by
  induction writes using List.reverseRecOn with
  | nil => exact (firstWriter_nil _).symm
  | append_singleton writes w ih =>
      rw [Hub.writeAll_snoc, tagWrites, List.filterMap_append, ← tagWrites]
      cases w with
      | tag k value =>
          by_cases hrelease : k = lit "release"
          · simp [Hub.write, Hub.setTag, hrelease, Scope.setRelease, ih]
          · simp only [Hub.write, Hub.setTag, hrelease, if_false, Scope.setTag,
              Scope.get_setValueMap]
            by_cases hkey : k = key
            · subst k
              simp [hrelease, firstWriter_snoc, ih]
            · simp [hkey, Ne.symm hkey, ih]
      | extra k value => simp [Hub.write, Hub.setExtra, Scope.setExtra, ih]

theorem get_extras_writeAll (h : Hub) (writes : List Write) (key : Bytes) :
    (h.writeAll writes).scope.extras.get key =
      firstWriter (h.scope.extras.get key) (extraWrites key writes) := by
  induction writes using List.reverseRecOn with
  | nil => exact (firstWriter_nil _).symm
  | append_singleton writes w ih =>
      rw [Hub.writeAll_snoc, extraWrites, List.filterMap_append, ← extraWrites]
      cases w with
      | tag k value =>
          simp only [Hub.write, Hub.setTag]
          split <;> simp [Scope.setRelease, Scope.setTag, ih]
      | extra k value =>
          simp only [Hub.write, Hub.setExtra, Scope.setExtra, Scope.get_setValueMap]
          by_cases hkey : k = key
          · subst k
            simp [firstWriter_snoc, ih]
          · simp [hkey, Ne.symm hkey, ih]

/-- The release is assigned. -/
theorem release_writeAll (h : Hub) (writes : List Write) :
    (h.writeAll writes).scope.release =
      (releaseWrites writes).getLast?.getD h.scope.release := by
  induction writes using List.reverseRecOn with
  | nil => rfl
  | append_singleton writes w ih =>
      rw [Hub.writeAll_snoc, releaseWrites, List.filterMap_append, ← releaseWrites]
      cases w with
      | tag k value =>
          by_cases hrelease : k = lit "release"
          · simp [Hub.write, Hub.setTag, hrelease, Scope.setRelease]
          · simp [Hub.write, Hub.setTag, hrelease, Scope.setTag, ih]
      | extra k value => simp [Hub.write, Hub.setExtra, Scope.setExtra, ih]

/-- The law of assignment holds if and only if the last value of each key is
the one that the key has held since it was last erased. -/
theorem lastWriterWins_iff (h : Hub) (writes : List Write) :
    LastWriterWins h writes (h.writeAll writes) ↔
      (∀ key, Kept (h.scope.tags.get key) (tagWrites key writes)) ∧
      ∀ key, Kept (h.scope.extras.get key) (extraWrites key writes) := by
  simp only [← firstWriter_eq_lastWriter_iff, ← get_tags_writeAll, ← get_extras_writeAll]
  constructor
  · intro hlaw
    exact ⟨hlaw.tags, hlaw.extras⟩
  · rintro ⟨htags, hextras⟩
    exact ⟨htags, hextras, release_writeAll h writes⟩

/-- A tag that is set twice keeps its first value. -/
theorem setTag_twice_keeps_first :
    ¬ ∀ (h : Hub) (writes : List Write), LastWriterWins h writes (h.writeAll writes) := by
  intro hall
  have htag := (hall (Hub.new none none)
    [.tag (lit "k") (lit "a"), .tag (lit "k") (lit "b")]).tags (lit "k")
  have hfirst : firstWriter ((Hub.new none none).scope.tags.get (lit "k"))
      (tagWrites (lit "k") [.tag (lit "k") (lit "a"), .tag (lit "k") (lit "b")]) =
      some (.string (lit "a")) := rfl
  have hlast : lastWriter ((Hub.new none none).scope.tags.get (lit "k"))
      (tagWrites (lit "k") [.tag (lit "k") (lit "a"), .tag (lit "k") (lit "b")]) =
      some (.string (lit "b")) := rfl
  rw [get_tags_writeAll, hfirst, hlast] at htag
  exact absurd (Json.string.inj (Option.some.inj htag)) (by decide)

end Sentry
