import Mathlib.Tactic

/-!
Regular expressions with capture groups under greedy backtracking, as the
ECMAScript rules of `std::regex` prescribe it. `exec` is the backtracking
executor: it hands what it has captured, and the rest of the text, to a
continuation, and takes the next alternative when the continuation fails. So
the order of the alternatives is the order in which `exec` tries them.

A star prefers one more round over none, and a round must consume something. A
group inside a star keeps the text of the last round. A group that took no part
in the match has the empty text.

Two rules decide what a match is. `isSome_exec_iff` says that the executor
succeeds exactly where a word of the language is found in front of a text with
which the continuation succeeds: backtracking misses no match. And
`exec_group_star_iff` says that a greedy group takes the longest text with which
the rest of the expression matches.
-/

inductive Regex (α : Type*) where
  | one (test : α → Bool)
  | seq (r r' : Regex α)
  | star (r : Regex α)
  | group (index : Nat) (r : Regex α)

namespace Regex

variable {α β : Type*}

/-- The texts of the groups. -/
abbrev Captures (α : Type*) := Nat → List α

abbrev Cont (α β : Type*) := Captures α → List α → Option β

/-- The rounds of a star, at most `fuel` of them. -/
def rounds (body : Cont α β → Cont α β) (k : Cont α β) : Nat → Cont α β
  | 0, captures, s => k captures s
  | fuel + 1, captures, s =>
      (body (fun captures' rest =>
        if rest.length < s.length then rounds body k fuel captures' rest else none)
        captures s).or (k captures s)

def exec : Regex α → Cont α β → Cont α β
  | .one _, _, _, [] => none
  | .one test, k, captures, a :: s => if test a then k captures s else none
  | .seq r r', k, captures, s => exec r (exec r' k) captures s
  | .star r, k, captures, s => rounds (exec r) k s.length captures s
  | .group index r, k, captures, s =>
      exec r (fun captures' rest =>
        k (Function.update captures' index (s.take (s.length - rest.length))) rest) captures s

theorem rounds_succ (body : Cont α β → Cont α β) (k : Cont α β) (fuel : Nat)
    (captures : Captures α) (s : List α) :
    rounds body k (fuel + 1) captures s =
      (body (fun captures' rest =>
        if rest.length < s.length then rounds body k fuel captures' rest else none)
        captures s).or (k captures s) := rfl

@[simp]
theorem exec_one_cons (test : α → Bool) (k : Cont α β) (captures : Captures α) (a : α)
    (s : List α) :
    exec (.one test) k captures (a :: s) = if test a then k captures s else none := rfl

@[simp]
theorem exec_seq (r r' : Regex α) (k : Cont α β) (captures : Captures α) (s : List α) :
    exec (.seq r r') k captures s = exec r (exec r' k) captures s := rfl

theorem exec_star (r : Regex α) (k : Cont α β) (captures : Captures α) (s : List α) :
    exec (.star r) k captures s = rounds (exec r) k s.length captures s := rfl

theorem exec_group (index : Nat) (r : Regex α) (k : Cont α β) (captures : Captures α)
    (s : List α) :
    exec (.group index r) k captures s =
      exec r (fun captures' rest =>
        k (Function.update captures' index (s.take (s.length - rest.length))) rest) captures s :=
  rfl

/-- `regex_search`: the leftmost position from which there is a match. -/
def search (r : Regex α) (s : List α) : Option (Captures α) :=
  s.tails.findSome? fun t => exec r (fun captures _ => some captures) (fun _ => []) t

/-- The letters of `w`, and then `r`. -/
def text [DecidableEq α] (w : List α) (r : Regex α) : Regex α :=
  w.foldr (fun a r => .seq (.one (fun b => decide (b = a))) r) r

inductive Matches : Regex α → List α → Prop
  | one {test : α → Bool} {a : α} (h : test a = true) : Matches (.one test) [a]
  | seq {r r' : Regex α} {u v : List α} (h : Matches r u) (h' : Matches r' v) :
      Matches (.seq r r') (u ++ v)
  | done {r : Regex α} : Matches (.star r) []
  | round {r : Regex α} {u v : List α} (h : Matches r u) (h' : Matches (.star r) v) :
      Matches (.star r) (u ++ v)
  | group {index : Nat} {r : Regex α} {u : List α} (h : Matches r u) : Matches (.group index r) u

theorem matches_seq_iff {r r' : Regex α} {w : List α} :
    Matches (.seq r r') w ↔ ∃ u v, w = u ++ v ∧ Matches r u ∧ Matches r' v := by
  constructor
  · intro h
    cases h with
    | seq hu hv => exact ⟨_, _, rfl, hu, hv⟩
  · rintro ⟨u, v, rfl, hu, hv⟩
    exact .seq hu hv

theorem matches_group_iff {index : Nat} {r : Regex α} {u : List α} :
    Matches (.group index r) u ↔ Matches r u := by
  constructor
  · intro h
    cases h with
    | group hu => exact hu
  · exact .group

private theorem matches_of_rounds {r : Regex α} {body : Cont α β → Cont α β}
    (hbody : ∀ (k : Cont α β) captures s x, body k captures s = some x →
      ∃ u rest captures', s = u ++ rest ∧ Matches r u ∧ k captures' rest = some x)
    {k : Cont α β} {fuel : Nat} {captures : Captures α} {s : List α} {x : β}
    (h : rounds body k fuel captures s = some x) :
    ∃ u rest captures', s = u ++ rest ∧ Matches (.star r) u ∧ k captures' rest = some x := by
  induction fuel generalizing captures s with
  | zero => exact ⟨[], s, captures, rfl, .done, h⟩
  | succ fuel ih =>
      rw [rounds_succ, Option.or_eq_some_iff] at h
      rcases h with hround | ⟨-, hdone⟩
      · obtain ⟨u, rest, captures', rfl, hu, hnext⟩ := hbody _ _ _ _ hround
        split at hnext
        · obtain ⟨v, rest', captures'', rfl, hv, hk⟩ := ih hnext
          exact ⟨u ++ v, rest', captures'', by rw [List.append_assoc], .round hu hv, hk⟩
        · cases hnext
      · exact ⟨[], s, captures, rfl, .done, hdone⟩

/-- What the executor consumes is a word of the language. -/
theorem matches_of_exec {r : Regex α} {k : Cont α β} {captures : Captures α} {s : List α} {x : β}
    (h : exec r k captures s = some x) :
    ∃ u rest captures', s = u ++ rest ∧ Matches r u ∧ k captures' rest = some x := by
  induction r generalizing k captures s x with
  | one test =>
      cases s with
      | nil => cases h
      | cons a s =>
          rw [exec_one_cons] at h
          split at h
          · rename_i htest
            exact ⟨[a], s, captures, rfl, .one htest, h⟩
          · cases h
  | seq r r' ih ih' =>
      obtain ⟨u, rest, captures', rfl, hu, hnext⟩ := ih h
      obtain ⟨v, rest', captures'', rfl, hv, hk⟩ := ih' hnext
      exact ⟨u ++ v, rest', captures'', by rw [List.append_assoc], .seq hu hv, hk⟩
  | star r ih => exact matches_of_rounds (fun k captures s x => ih) h
  | group index r ih =>
      obtain ⟨u, rest, captures', hs, hu, hk⟩ := ih h
      exact ⟨u, rest, _, hs, .group hu, hk⟩

theorem exec_eq_none {r : Regex α} {k : Cont α β} {captures : Captures α} {s : List α}
    (h : ∀ u rest captures', s = u ++ rest → Matches r u → k captures' rest = none) :
    exec r k captures s = none := by
  rw [Option.eq_none_iff_forall_ne_some]
  intro x hx
  obtain ⟨u, rest, captures', hs, hu, hk⟩ := matches_of_exec hx
  simp [h u rest captures' hs hu] at hk

private theorem rounds_nil (r : Regex α) (k : Cont α β) (fuel : Nat) (captures : Captures α) :
    rounds (exec r) k fuel captures [] = k captures [] := by
  cases fuel with
  | zero => rfl
  | succ fuel => rw [rounds_succ, exec_eq_none (by simp), Option.none_or]

/-- A star never runs out of rounds. -/
private theorem rounds_eq_of_le {r : Regex α} {k : Cont α β} {fuel fuel' : Nat}
    {captures : Captures α} {s : List α} (h : s.length ≤ fuel) (h' : s.length ≤ fuel') :
    rounds (exec r) k fuel captures s = rounds (exec r) k fuel' captures s := by
  induction fuel generalizing fuel' captures s with
  | zero =>
      obtain rfl := List.length_eq_zero_iff.mp (Nat.le_zero.mp h)
      rw [rounds_nil, rounds_nil]
  | succ fuel ih =>
      cases fuel' with
      | zero =>
          obtain rfl := List.length_eq_zero_iff.mp (Nat.le_zero.mp h')
          rw [rounds_nil, rounds_nil]
      | succ fuel' =>
          rw [rounds_succ, rounds_succ]
          congr 2
          funext captures' rest
          split
          · exact ih (by omega) (by omega)
          · rfl

private theorem isSome_exec_round {r : Regex α} {k : Cont α β} {captures : Captures α}
    {u rest : List α} (hu : u ≠ [])
    (hround : ∀ k : Cont α β, (∀ captures, (k captures rest).isSome = true) →
      (exec r k captures (u ++ rest)).isSome = true)
    (hstar : ∀ captures, (exec (.star r) k captures rest).isSome = true) :
    (exec (.star r) k captures (u ++ rest)).isSome = true := by
  obtain ⟨a, u, rfl⟩ := List.exists_cons_of_ne_nil hu
  rw [exec_star, List.cons_append, List.length_cons, rounds_succ, Option.isSome_or, Bool.or_eq_true]
  refine Or.inl (hround _ ?_)
  intro captures'
  rw [if_pos (by simp), rounds_eq_of_le (by simp) le_rfl]
  exact hstar captures'

/-- Backtracking misses no match. -/
theorem isSome_exec_of_matches {r : Regex α} {u : List α} (h : Matches r u) {k : Cont α β}
    {rest : List α} (hk : ∀ captures, (k captures rest).isSome = true) (captures : Captures α) :
    (exec r k captures (u ++ rest)).isSome = true := by
  induction h generalizing k rest captures with
  | one htest => simpa [htest] using hk captures
  | seq _ _ ih ih' =>
      rw [List.append_assoc]
      exact ih (fun captures' => ih' hk captures') captures
  | done =>
      cases rest with
      | nil => exact hk captures
      | cons a rest => simp [exec_star, rounds_succ, hk]
  | @round r u v _ _ ih ih' =>
      rw [List.append_assoc]
      by_cases hu : u = []
      · rw [hu]
        exact ih' hk captures
      · exact isSome_exec_round hu (fun k hk' => ih hk' captures) (ih' hk)
  | group _ ih =>
      rw [exec_group]
      apply ih
      intro captures'
      exact hk _

/-- The success of a continuation does not depend on what has been captured. -/
def Uniform (k : Cont α β) : Prop :=
  ∀ captures captures' s, (k captures s).isSome = (k captures' s).isSome

/-- The executor succeeds where the language and the continuation do. -/
theorem isSome_exec_iff {k : Cont α β} (hk : Uniform k) {r : Regex α} {captures : Captures α}
    {s : List α} :
    (exec r k captures s).isSome = true ↔
      ∃ u rest, s = u ++ rest ∧ Matches r u ∧ (k captures rest).isSome = true := by
  constructor
  · intro h
    obtain ⟨x, hx⟩ := Option.isSome_iff_exists.mp h
    obtain ⟨u, rest, captures', hs, hu, hrest⟩ := matches_of_exec hx
    refine ⟨u, rest, hs, hu, ?_⟩
    rw [hk captures captures', hrest, Option.isSome_some]
  · rintro ⟨u, rest, rfl, hu, hrest⟩
    apply isSome_exec_of_matches hu
    intro captures'
    rwa [hk captures' captures]

theorem Uniform.exec {k : Cont α β} (hk : Uniform k) (r : Regex α) : Uniform (exec r k) := by
  intro captures captures' s
  rw [Bool.eq_iff_iff, isSome_exec_iff hk, isSome_exec_iff hk]
  simp only [hk captures captures']

theorem Uniform.exec_ne_none {k : Cont α β} (hk : Uniform k) {r : Regex α} {u rest : List α}
    (h : Matches r u) {captures : Captures α} {x : β} (hx : k captures rest = some x)
    (captures' : Captures α) : Regex.exec r k captures' (u ++ rest) ≠ none := by
  intro hnone
  have hsome : (Regex.exec r k captures' (u ++ rest)).isSome = true := by
    rw [isSome_exec_iff hk]
    exact ⟨u, rest, rfl, h, by rw [hk captures' captures, hx, Option.isSome_some]⟩
  rw [hnone] at hsome
  cases hsome

/-- A star takes no round where one or more would leave nothing for the rest. -/
theorem exec_star_of_none {r : Regex α} {k : Cont α β} {captures : Captures α} {s : List α}
    (h : ∀ u rest captures', s = u ++ rest → u ≠ [] → Matches (.star r) u →
      k captures' rest = none) :
    exec (.star r) k captures s = k captures s := by
  rw [exec_star]
  cases s with
  | nil => rfl
  | cons a s =>
      rw [List.length_cons, rounds_succ, exec_eq_none, Option.none_or]
      intro u rest captures' hs hu
      split
      · rename_i hshorter
        rw [Option.eq_none_iff_forall_ne_some]
        intro x hx
        obtain ⟨v, rest', captures'', rfl, hv, hk⟩ :=
          matches_of_rounds (fun k captures s x => matches_of_exec) hx
        have hne : u ++ v ≠ [] := by
          intro hnil
          rw [(List.append_eq_nil_iff.mp hnil).1, List.nil_append] at hs
          simp [hs, (List.append_eq_nil_iff.mp hnil).2] at hshorter
        rw [h (u ++ v) rest' captures'' (by rw [hs, List.append_assoc]) hne (.round hu hv)] at hk
        cases hk
      · rfl

/-- What holds of every letter of every round holds of every letter. -/
theorem all_of_matches_star {r : Regex α} {P : α → Prop}
    (hr : ∀ u, Matches r u → ∀ a ∈ u, P a) {u : List α} (h : Matches (.star r) u) :
    ∀ a ∈ u, P a := by
  generalize hs : Regex.star r = s at h
  induction h with
  | done => simp
  | @round r' u v hround _ _ ih =>
      cases hs
      intro a ha
      rcases List.mem_append.mp ha with hleft | hright
      · exact hr u hround a hleft
      · exact ih rfl a hright
  | _ => cases hs

/-- A text that is not empty starts with a round that is not. -/
theorem exists_round_of_matches_star {r : Regex α} {u : List α} (h : Matches (.star r) u)
    (hu : u ≠ []) : ∃ v w, u = v ++ w ∧ v ≠ [] ∧ Matches r v := by
  generalize hs : Regex.star r = s at h
  induction h with
  | done => exact absurd rfl hu
  | @round r' v w hround _ _ ih =>
      cases hs
      by_cases hv : v = []
      · rw [hv, List.nil_append] at hu ⊢
        exact ih hu rfl
      · exact ⟨v, w, rfl, hv, hround⟩
  | _ => cases hs

theorem matches_star_one_iff {test : α → Bool} {u : List α} :
    Matches (.star (.one test)) u ↔ ∀ a ∈ u, test a = true := by
  constructor
  · intro h
    have hone : ∀ v, Matches (.one test) v → ∀ a ∈ v, test a = true := by
      intro v hv a ha
      cases hv with
      | one htest => rwa [List.mem_singleton.mp ha]
    exact all_of_matches_star hone h
  · intro h
    induction u with
    | nil => exact .done
    | cons a u ih =>
        obtain ⟨ha, hu⟩ := List.forall_mem_cons.mp h
        exact .round (u := [a]) (.one ha) (ih hu)

section Text

variable [DecidableEq α]

theorem exec_text_append (w : List α) (r : Regex α) (k : Cont α β) (captures : Captures α)
    (s : List α) : exec (text w r) k captures (w ++ s) = exec r k captures s := by
  induction w with
  | nil => rfl
  | cons a w ih => simpa [text] using ih

theorem exec_text_eq_some_iff {w : List α} {r : Regex α} {k : Cont α β}
    {captures : Captures α} {s : List α} {x : β} :
    exec (text w r) k captures s = some x ↔ ∃ t, s = w ++ t ∧ exec r k captures t = some x := by
  constructor
  · intro h
    induction w generalizing s with
    | nil => exact ⟨s, rfl, h⟩
    | cons a w ih =>
        cases s with
        | nil => cases h
        | cons b s =>
            simp only [text, List.foldr_cons, exec_seq, exec_one_cons] at h
            split at h
            · rename_i hab
              obtain ⟨t, rfl, ht⟩ := ih h
              exact ⟨t, by rw [decide_eq_true_eq.mp hab]; rfl, ht⟩
            · cases h
  · rintro ⟨t, rfl, h⟩
    rwa [exec_text_append]

theorem matches_text {w : List α} {r : Regex α} {u : List α} (h : Matches (text w r) u) :
    ∃ v, u = w ++ v ∧ Matches r v := by
  induction w generalizing u with
  | nil => exact ⟨u, rfl, h⟩
  | cons a w ih =>
      cases h with
      | seq hone hrest =>
          cases hone with
          | one htest =>
              obtain ⟨v, rfl, hv⟩ := ih hrest
              rw [decide_eq_true_eq] at htest
              exact ⟨v, by rw [htest]; rfl, hv⟩

theorem matches_text_iff {w : List α} {r : Regex α} {u : List α} :
    Matches (text w r) u ↔ ∃ v, u = w ++ v ∧ Matches r v := by
  constructor
  · exact matches_text
  · rintro ⟨v, rfl, hv⟩
    induction w with
    | nil => exact hv
    | cons a w ih => exact .seq (u := [a]) (.one (by simp)) ih

end Text

theorem exec_star_one_cons (test : α → Bool) (k : Cont α β) (captures : Captures α) (a : α)
    (s : List α) :
    exec (.star (.one test)) k captures (a :: s) =
      (if test a then exec (.star (.one test)) k captures s else none).or
        (k captures (a :: s)) := by
  simp [exec_star, rounds_succ]

theorem exec_star_one_eq_none_iff {test : α → Bool} {k : Cont α β} {captures : Captures α}
    {s : List α} :
    exec (.star (.one test)) k captures s = none ↔
      ∀ u t, s = u ++ t → (∀ a ∈ u, test a = true) → k captures t = none := by
  induction s with
  | nil =>
      constructor
      · intro h u t hs _
        rwa [(List.append_eq_nil_iff.mp hs.symm).2]
      · intro h
        exact h [] [] rfl (by simp)
  | cons a s ih =>
      rw [exec_star_one_cons, Option.or_eq_none_iff]
      constructor
      · rintro ⟨hround, hdone⟩ u t hs hu
        cases u with
        | nil => rwa [← List.nil_append t, ← hs]
        | cons b u =>
            obtain ⟨rfl, rfl⟩ := List.cons.inj hs
            obtain ⟨ha, hu⟩ := List.forall_mem_cons.mp hu
            rw [if_pos ha] at hround
            exact ih.mp hround u t rfl hu
      · intro h
        refine ⟨?_, h [] (a :: s) rfl (by simp)⟩
        split
        · rename_i ha
          apply ih.mpr
          rintro u t rfl hu
          exact h (a :: u) t rfl (List.forall_mem_cons.mpr ⟨ha, hu⟩)
        · rfl

/-- A greedy star takes the longest text with which the rest matches. -/
theorem exec_star_one_iff {test : α → Bool} {k : Cont α β} {captures : Captures α}
    {s : List α} {x : β} :
    exec (.star (.one test)) k captures s = some x ↔
      ∃ u t, s = u ++ t ∧ (∀ a ∈ u, test a = true) ∧ k captures t = some x ∧
        ∀ v w, t = v ++ w → v ≠ [] → (∀ a ∈ v, test a = true) → k captures w = none := by
  induction s with
  | nil =>
      constructor
      · intro h
        refine ⟨[], [], rfl, by simp, h, ?_⟩
        intro v w hnil hv
        exact absurd (List.append_eq_nil_iff.mp hnil.symm).1 hv
      · rintro ⟨u, t, hs, -, hk, -⟩
        rwa [(List.append_eq_nil_iff.mp hs.symm).2] at hk
  | cons a s ih =>
      rw [exec_star_one_cons, Option.or_eq_some_iff]
      constructor
      · rintro (hround | ⟨hnone, hdone⟩)
        · rw [Option.ite_none_right_eq_some] at hround
          obtain ⟨u, t, rfl, hu, hk, hlonger⟩ := ih.mp hround.2
          exact ⟨a :: u, t, rfl, List.forall_mem_cons.mpr ⟨hround.1, hu⟩, hk, hlonger⟩
        · refine ⟨[], a :: s, rfl, by simp, hdone, ?_⟩
          intro v w hs hv hall
          obtain ⟨b, v, rfl⟩ := List.exists_cons_of_ne_nil hv
          obtain ⟨rfl, rfl⟩ := List.cons.inj hs
          obtain ⟨ha, hall⟩ := List.forall_mem_cons.mp hall
          rw [if_pos ha] at hnone
          exact exec_star_one_eq_none_iff.mp hnone v w rfl hall
      · rintro ⟨u, t, hs, hu, hk, hlonger⟩
        cases u with
        | nil =>
            rw [List.nil_append] at hs
            subst t
            refine Or.inr ⟨?_, hk⟩
            split
            · rename_i ha
              rw [exec_star_one_eq_none_iff]
              rintro v w rfl hv
              exact hlonger (a :: v) w rfl (List.cons_ne_nil a v)
                (List.forall_mem_cons.mpr ⟨ha, hv⟩)
            · rfl
        | cons b u =>
            obtain ⟨rfl, rfl⟩ := List.cons.inj hs
            obtain ⟨ha, hu⟩ := List.forall_mem_cons.mp hu
            rw [if_pos ha]
            exact Or.inl (ih.mpr ⟨u, t, rfl, hu, hk, hlonger⟩)

/-- The same for a group around the star. -/
theorem exec_group_star_iff {index : Nat} {test : α → Bool} {k : Cont α β}
    {captures : Captures α} {s : List α} {x : β} :
    exec (.group index (.star (.one test))) k captures s = some x ↔
      ∃ u t, s = u ++ t ∧ (∀ a ∈ u, test a = true) ∧
        k (Function.update captures index u) t = some x ∧
        ∀ v w, t = v ++ w → v ≠ [] → (∀ a ∈ v, test a = true) →
          k (Function.update captures index (u ++ v)) w = none := by
  have htake : ∀ u t : List α, (u ++ t).take ((u ++ t).length - t.length) = u := by simp
  rw [exec_group, exec_star_one_iff]
  constructor
  · rintro ⟨u, t, rfl, hu, hk, hlonger⟩
    rw [htake] at hk
    refine ⟨u, t, rfl, hu, hk, ?_⟩
    rintro v w rfl hv hall
    have hnone := hlonger v w rfl hv hall
    rwa [← List.append_assoc, htake] at hnone
  · rintro ⟨u, t, rfl, hu, hk, hlonger⟩
    refine ⟨u, t, rfl, hu, by rwa [htake], ?_⟩
    rintro v w rfl hv hall
    rw [← List.append_assoc, htake]
    exact hlonger v w rfl hv hall

/-- A greedy group takes a text, if no longer one will do. -/
theorem exec_group_star_of_greatest {index : Nat} {test : α → Bool} {k : Cont α β}
    {captures : Captures α} {u t : List α} {x : β} (hu : ∀ a ∈ u, test a = true)
    (hk : k (Function.update captures index u) t = some x)
    (hlonger : ∀ v w captures', t = v ++ w → v ≠ [] → k captures' w = none) :
    exec (.group index (.star (.one test))) k captures (u ++ t) = some x := by
  rw [exec_group_star_iff]
  refine ⟨u, t, rfl, hu, hk, ?_⟩
  intro v w ht hv _
  exact hlonger v w _ ht hv

/-- The match that begins with the text. -/
def matchHere (r : Regex α) (s : List α) : Option (Captures α) :=
  exec r (fun captures _ => some captures) (fun _ => []) s

theorem isSome_matchHere_iff {r : Regex α} {s : List α} :
    (matchHere r s).isSome = true ↔ ∃ u rest, s = u ++ rest ∧ Matches r u := by
  have huniform : Uniform (fun (captures : Captures α) (_ : List α) => some captures) :=
    fun _ _ _ => rfl
  rw [matchHere, isSome_exec_iff huniform]
  simp

theorem search_cons (r : Regex α) (a : α) (s : List α) :
    search r (a :: s) = (matchHere r (a :: s)).or (search r s) := by
  rw [search, List.tails, List.findSome?_cons]
  cases hhere : matchHere r (a :: s) with
  | none =>
      rw [matchHere] at hhere
      simp [hhere, search]
  | some captures =>
      rw [matchHere] at hhere
      simp [hhere]

/-- `regex_search` finds the leftmost match. -/
theorem search_eq_some_iff {r : Regex α} {s : List α} {captures : Captures α} :
    search r s = some captures ↔
      ∃ a t, s = a ++ t ∧ matchHere r t = some captures ∧
        ∀ a' t', s = a' ++ t' → a'.length < a.length → matchHere r t' = none := by
  induction s with
  | nil =>
      have hhere : search r [] = matchHere r [] := by
        cases h : matchHere r [] <;> (rw [matchHere] at h; simp [search, h])
      rw [hhere]
      constructor
      · intro h
        exact ⟨[], [], rfl, h, by simp⟩
      · rintro ⟨a, t, hs, h, -⟩
        rwa [(List.append_eq_nil_iff.mp hs.symm).2] at h
  | cons b s ih =>
      rw [search_cons, Option.or_eq_some_iff]
      constructor
      · rintro (hhere | ⟨hnone, hlater⟩)
        · exact ⟨[], b :: s, rfl, hhere, by simp⟩
        · obtain ⟨a, t, rfl, ht, hleft⟩ := ih.mp hlater
          refine ⟨b :: a, t, rfl, ht, ?_⟩
          intro a' t' hs hshorter
          cases a' with
          | nil => rwa [← List.nil_append t', ← hs]
          | cons c a' =>
              exact hleft a' t' (List.cons.inj hs).2 (by simpa using hshorter)
      · rintro ⟨a, t, hs, ht, hleft⟩
        cases a with
        | nil =>
            rw [hs]
            exact Or.inl ht
        | cons c a =>
            obtain ⟨rfl, rfl⟩ := List.cons.inj hs
            refine Or.inr ⟨hleft [] (b :: (a ++ t)) rfl (by simp), ih.mpr ⟨a, t, rfl, ht, ?_⟩⟩
            intro a' t' hs' hshorter
            exact hleft (b :: a') t' (by rw [hs']; rfl) (by simpa using hshorter)

/-- A search succeeds where the text has a word of the language in it. -/
theorem isSome_search_iff {r : Regex α} {s : List α} :
    (search r s).isSome = true ↔ ∃ a u b, s = a ++ (u ++ b) ∧ Matches r u := by
  rw [search, List.findSome?_isSome_iff]
  constructor
  · rintro ⟨t, ht, hsome⟩
    obtain ⟨a, rfl⟩ := (List.mem_tails _ _).mp ht
    obtain ⟨u, b, rfl, hu⟩ := isSome_matchHere_iff.mp hsome
    exact ⟨a, u, b, rfl, hu⟩
  · rintro ⟨a, u, b, rfl, hu⟩
    exact ⟨u ++ b, (List.mem_tails _ _).mpr ⟨a, rfl⟩, isSome_matchHere_iff.mpr ⟨u, b, rfl, hu⟩⟩

theorem search_of_exec {r : Regex α} {s : List α} {captures : Captures α}
    (h : exec r (fun captures _ => some captures) (fun _ => []) s = some captures) :
    search r s = some captures :=
  search_eq_some_iff.mpr ⟨[], s, rfl, h, by simp⟩

end Regex
