import Mathlib.Tactic

/-!
`std::multimap` as the sorted list of its entries. Equal keys stand next to
each other in the order of their insertion.

`sweep` is a loop over the entries that erases the key of each entry it finds
expired, where the loop goes on with the next entry still there. A key loses
all its entries if one of them is expired, which is `values_sweep`.
-/

structure Multimap (κ ν : Type*) [LinearOrder κ] where
  toList : List (κ × ν)
  sorted : toList.Pairwise fun a b => a.1 ≤ b.1

namespace Multimap

variable {κ ν : Type*} [LinearOrder κ]

def empty : Multimap κ ν := ⟨[], .nil⟩

def count (m : Multimap κ ν) (key : κ) : Nat := m.toList.countP fun entry => entry.1 = key

/-- The values of a key, in the order of their insertion. -/
def values (m : Multimap κ ν) (key : κ) : List ν :=
  (m.toList.filter fun entry => entry.1 = key).map Prod.snd

/-- Insertion behind the last entry whose key is not greater. -/
def insertUpper (key : κ) (value : ν) : List (κ × ν) → List (κ × ν)
  | [] => [(key, value)]
  | entry :: entries =>
      if key < entry.1 then (key, value) :: entry :: entries
      else entry :: insertUpper key value entries

theorem mem_insertUpper {key : κ} {value : ν} {entries : List (κ × ν)} {entry : κ × ν} :
    entry ∈ insertUpper key value entries ↔ entry = (key, value) ∨ entry ∈ entries := by
  induction entries with
  | nil => simp [insertUpper]
  | cons head entries ih =>
      rw [insertUpper]
      split
      · simp
      · simp only [List.mem_cons, ih]
        tauto

theorem sorted_insertUpper (key : κ) (value : ν) {entries : List (κ × ν)}
    (h : entries.Pairwise fun a b => a.1 ≤ b.1) :
    (insertUpper key value entries).Pairwise fun a b => a.1 ≤ b.1 := by
  induction entries with
  | nil => simp [insertUpper]
  | cons head entries ih =>
      obtain ⟨hhead, htail⟩ := List.pairwise_cons.mp h
      rw [insertUpper]
      split
      · rename_i hlt
        rw [List.pairwise_cons]
        refine ⟨?_, h⟩
        intro entry hentry
        rcases List.mem_cons.mp hentry with rfl | hmem
        · exact hlt.le
        · exact hlt.le.trans (hhead entry hmem)
      · rename_i hge
        rw [List.pairwise_cons]
        refine ⟨?_, ih htail⟩
        intro entry hentry
        rcases mem_insertUpper.mp hentry with rfl | hmem
        · exact not_lt.mp hge
        · exact hhead entry hmem

def emplace (m : Multimap κ ν) (key : κ) (value : ν) : Multimap κ ν :=
  ⟨insertUpper key value m.toList, sorted_insertUpper key value m.sorted⟩

/-- `erase(key)`. -/
def erase (m : Multimap κ ν) (key : κ) : Multimap κ ν :=
  ⟨m.toList.filter fun entry => entry.1 ≠ key, m.sorted.filter _⟩

/-- The rest of the loop, with the entries it would still visit. -/
def sweepFrom (expired : κ × ν → Bool) : List (κ × ν) → Multimap κ ν → Multimap κ ν
  | [], m => m
  | entry :: entries, m =>
      if m.count entry.1 = 0 then sweepFrom expired entries m
      else if expired entry then sweepFrom expired entries (m.erase entry.1)
      else sweepFrom expired entries m

def sweep (m : Multimap κ ν) (expired : κ × ν → Bool) : Multimap κ ν :=
  sweepFrom expired m.toList m

theorem count_eq_length_values (m : Multimap κ ν) (key : κ) :
    m.count key = (m.values key).length := by
  simp [count, values, List.countP_eq_length_filter]

theorem values_empty (key : κ) : (empty : Multimap κ ν).values key = [] := rfl

private theorem filter_insertUpper (key : κ) (value : ν) {entries : List (κ × ν)}
    (h : entries.Pairwise fun a b => a.1 ≤ b.1) (other : κ) :
    (insertUpper key value entries).filter (fun entry => entry.1 = other) =
      entries.filter (fun entry => entry.1 = other) ++
        if other = key then [(key, value)] else [] := by
  induction entries with
  | nil => by_cases hother : other = key <;> simp [insertUpper, hother, Ne.symm]
  | cons head entries ih =>
      obtain ⟨hhead, htail⟩ := List.pairwise_cons.mp h
      rw [insertUpper]
      split
      · rename_i hlt
        -- behind a greater key there is no entry with `key`
        have hnone : (head :: entries).filter (fun entry => entry.1 = key) = [] := by
          rw [List.filter_eq_nil_iff]
          intro entry hentry
          rcases List.mem_cons.mp hentry with rfl | hmem
          · simpa using hlt.ne'
          · simpa using (hlt.trans_le (hhead entry hmem)).ne'
        rw [List.filter_cons]
        by_cases hother : other = key
        · simp [hother, hnone]
        · simp [hother, Ne.symm hother]
      · rw [List.filter_cons, ih htail, List.filter_cons]
        split <;> rfl

theorem values_emplace (m : Multimap κ ν) (key : κ) (value : ν) (other : κ) :
    (m.emplace key value).values other =
      m.values other ++ if other = key then [value] else [] := by
  rw [values, emplace, filter_insertUpper key value m.sorted, List.map_append, values]
  split <;> rfl

theorem values_erase (m : Multimap κ ν) (key other : κ) :
    (m.erase key).values other = if other = key then [] else m.values other := by
  simp only [values, erase, List.filter_filter]
  split
  · rename_i heq
    simp [heq]
  · rename_i hne
    congr 1
    apply List.filter_congr
    intro entry _
    by_cases hentry : entry.1 = other <;> simp [hentry, hne]

private theorem values_sweepFrom (expired : κ × ν → Bool) (entries : List (κ × ν))
    (m : Multimap κ ν) (key : κ) :
    (sweepFrom expired entries m).values key =
      if entries.any fun entry => entry.1 = key && expired entry then [] else m.values key := by
  induction entries generalizing m with
  | nil => rfl
  | cons entry entries ih =>
      rw [sweepFrom, List.any_cons]
      split
      · -- the entry is gone, and with it its key
        rename_i hcount
        rw [ih]
        by_cases hkey : entry.1 = key
        · have hnil : m.values key = [] := by
            rw [← List.length_eq_zero_iff, ← count_eq_length_values, ← hkey, hcount]
          simp [hnil]
        · rw [decide_eq_false hkey, Bool.false_and, Bool.false_or]
      · split
        · rename_i hexpired
          rw [ih, values_erase, hexpired]
          by_cases hkey : entry.1 = key
          · simp [hkey]
          · rw [decide_eq_false hkey, if_neg (Ne.symm hkey), Bool.false_and, Bool.false_or]
        · rename_i hlive
          rw [ih, Bool.eq_false_iff.mpr hlive, Bool.and_false, Bool.false_or]

theorem sweepFrom_of_live {expired : κ × ν → Bool} {entries : List (κ × ν)}
    (h : ∀ entry ∈ entries, expired entry = false) (m : Multimap κ ν) :
    sweepFrom expired entries m = m := by
  induction entries with
  | nil => rfl
  | cons entry entries ih =>
      have hrest := ih fun other hother => h other (List.mem_cons_of_mem _ hother)
      have hentry : expired entry = false := h entry List.mem_cons_self
      rw [sweepFrom, hrest, hentry]
      simp

/-- A sweep that finds no expired entry changes nothing. -/
theorem sweep_of_live {m : Multimap κ ν} {expired : κ × ν → Bool}
    (h : ∀ entry ∈ m.toList, expired entry = false) : m.sweep expired = m :=
  sweepFrom_of_live h m

/-- A key keeps its values if none of them is expired, and loses all of them
otherwise. -/
theorem values_sweep (m : Multimap κ ν) (expired : κ × ν → Bool) (key : κ) :
    (m.sweep expired).values key =
      if (m.values key).any fun value => expired (key, value) then [] else m.values key := by
  rw [sweep, values_sweepFrom]
  congr 2
  rw [values, List.any_map, List.any_filter]
  congr 1
  funext entry
  by_cases hkey : entry.1 = key
  · subst key
    rfl
  · simp [hkey]

end Multimap
