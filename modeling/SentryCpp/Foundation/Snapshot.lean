import SentryCpp.Foundation.Transition

/-!
One reader that takes the fields of a shared state one after the other, while
writers change the state. What it has taken is consistent if it shows one
state that was there during the run. A write that does not fit what was taken
so far is harmless as long as it leaves the fields that are still to be taken
alone: these, together with what was taken, are those of an earlier state.
`consistent_of_run` is the rule.
-/

namespace Snapshot

variable {σ ι ν α : Type*}

structure World (σ ι ν : Type*) where
  shared : σ
  unread : List ι
  taken : List (ι × ν)

inductive Action (α : Type*) where
  | read
  | write (a : α)

variable (view : σ → ι → ν) (apply : σ → α → σ)

def step (w : World σ ι ν) : Action α → Option (World σ ι ν)
  | .read =>
      match w.unread with
      | [] => none
      | i :: unread =>
          some { w with unread := unread, taken := w.taken ++ [(i, view w.shared i)] }
  | .write a => some { w with shared := apply w.shared a }

/-- What was taken is what this state has in these fields. -/
def Shows (s : σ) (taken : List (ι × ν)) : Prop := ∀ entry ∈ taken, entry.2 = view s entry.1

/-- The state was there in the run. -/
def Visited (w : World σ ι ν) (schedule : List (Action α)) (s : σ) : Prop :=
  ∃ before after v, schedule = before ++ after ∧
    Transition.run (step view apply) w before = some v ∧ v.shared = s

/-- A write that does not fit what was taken leaves the fields that are still
to be taken as they are. -/
def Fits (w : World σ ι ν) : Action α → Prop
  | .read => True
  | .write a => ¬ Shows view (apply w.shared a) w.taken →
      ∀ i ∈ w.unread, view (apply w.shared a) i = view w.shared i

/-- The state has what was taken, and what is still to be taken. -/
structure Pinned (s : σ) (w : World σ ι ν) : Prop where
  taken : Shows view s w.taken
  unread : ∀ i ∈ w.unread, view s i = view w.shared i

variable {view apply}

theorem visited_start (w : World σ ι ν) (schedule : List (Action α)) :
    Visited view apply w schedule w.shared :=
  ⟨[], schedule, w, rfl, rfl, rfl⟩

theorem Visited.cons {w v : World σ ι ν} {a : Action α} {schedule : List (Action α)} {s : σ}
    (hstep : step view apply w a = some v) (h : Visited view apply v schedule s) :
    Visited view apply w (a :: schedule) s := by
  obtain ⟨before, after, u, rfl, hrun, hu⟩ := h
  exact ⟨a :: before, after, u, rfl, Transition.run_cons_iff.mpr ⟨v, hstep, hrun⟩, hu⟩

/-- The step lemma: the pinned state stays pinned, or the new one can be. -/
theorem Pinned.step {s : σ} {w v : World σ ι ν} {a : Action α} (h : Pinned view s w)
    (hfits : Fits view apply w a) (hstep : Snapshot.step view apply w a = some v) :
    Pinned view s v ∨ Pinned view v.shared v := by
  cases a with
  | read =>
      cases hunread : w.unread with
      | nil => simp [Snapshot.step, hunread] at hstep
      | cons i unread =>
          simp only [Snapshot.step, hunread, Option.some.injEq] at hstep
          subst v
          refine Or.inl ⟨?_, ?_⟩
          · intro entry hentry
            rcases List.mem_append.mp hentry with hold | hnew
            · exact h.taken entry hold
            · rw [List.mem_singleton.mp hnew]
              exact (h.unread i (by simp [hunread])).symm
          · intro j hj
            exact h.unread j (by simp [hunread, hj])
  | write a =>
      cases hstep
      by_cases hshows : Shows view (apply w.shared a) w.taken
      · exact Or.inr ⟨hshows, fun _ _ => rfl⟩
      · refine Or.inl ⟨h.taken, ?_⟩
        intro i hi
        rw [h.unread i hi]
        exact (hfits hshows i hi).symm

/-- The run lemma: at the end some state is pinned that was there. -/
theorem pinned_of_run {s : σ} {w v : World σ ι ν} {schedule : List (Action α)}
    (h : Pinned view s w)
    (hfits : Transition.AllSteps (step view apply) (Fits view apply) w schedule)
    (hrun : Transition.run (step view apply) w schedule = some v) :
    ∃ s', Pinned view s' v ∧ (s' = s ∨ Visited view apply w schedule s') := by
  induction schedule generalizing s w with
  | nil =>
      cases hrun
      exact ⟨s, h, Or.inl rfl⟩
  | cons a schedule ih =>
      obtain ⟨u, hstep, hrun⟩ := Transition.run_cons_iff.mp hrun
      rcases h.step hfits.1 hstep with hkept | hnew
      · obtain ⟨s', hs', hseen⟩ := ih hkept (hfits.2 u hstep) hrun
        exact ⟨s', hs', hseen.imp_right fun hvisited => hvisited.cons hstep⟩
      · obtain ⟨s', hs', hseen⟩ := ih hnew (hfits.2 u hstep) hrun
        refine ⟨s', hs', Or.inr ?_⟩
        apply Visited.cons hstep
        rcases hseen with rfl | hvisited
        · exact visited_start u schedule
        · exact hvisited

/-- A reader that has taken nothing yet gets a consistent view from a run
whose writes fit. -/
theorem consistent_of_run {w v : World σ ι ν} {schedule : List (Action α)}
    (hstart : w.taken = [])
    (hfits : Transition.AllSteps (step view apply) (Fits view apply) w schedule)
    (hrun : Transition.run (step view apply) w schedule = some v) :
    ∃ s, Visited view apply w schedule s ∧ Shows view s v.taken := by
  have hpinned : Pinned view w.shared w := ⟨by simp [Shows, hstart], fun _ _ => rfl⟩
  obtain ⟨s, hs, rfl | hvisited⟩ := pinned_of_run hpinned hfits hrun
  · exact ⟨w.shared, visited_start w schedule, hs.taken⟩
  · exact ⟨s, hvisited, hs.taken⟩

/-- The fields are taken in their order, each of them once. -/
theorem fields_of_run {w v : World σ ι ν} {schedule : List (Action α)}
    (hrun : Transition.run (step view apply) w schedule = some v) :
    v.taken.map Prod.fst ++ v.unread = w.taken.map Prod.fst ++ w.unread := by
  induction schedule generalizing w with
  | nil =>
      cases hrun
      rfl
  | cons a schedule ih =>
      obtain ⟨u, hstep, hrun⟩ := Transition.run_cons_iff.mp hrun
      rw [ih hrun]
      cases a with
      | read =>
          cases hunread : w.unread with
          | nil => simp [step, hunread] at hstep
          | cons i unread =>
              simp only [step, hunread, Option.some.injEq] at hstep
              subst u
              simp
      | write a =>
          cases hstep
          rfl

end Snapshot
