import SentryCpp.Backtrace.Symbols

/-!
The indices that the loop of `createBacktraceSymbols` goes through.
`overFrames` is the loop with its body left open: with the body that makes a
frame it is `createBacktraceSymbols`, with a body that writes its index down
it is `frameIndices`.

What is subtracted and added again for `skip_front` cancels, also where it
wraps, so the first index is one below `nFrames - skip_back`. It is an index of
no frame when the stack is not longer than `skip_back`, and the test
`i >= skip_front` holds of every index when `skip_front` is zero.
-/

namespace Sentry.Backtrace

open StdString

variable {α ε : Type}

/-- One round of the loop, at the index `s.1`. -/
def indexed (body : Nat → α → Except ε α) (_ : Nat) (s : Nat × α) : Except ε (Nat × α) := do
  let a ← body s.1 s.2
  return (sizeSub s.1 1, a)

/-- The loop of `createBacktraceSymbols` around any body. -/
def overFrames (body : Nat → α → Except ε α) (nFrames skipFront skipBack fuel : Nat) (a : α) :
    Option (Except ε α) :=
  let numberOfFramesInOutput := sizeSub (sizeSub nFrames skipBack) skipFront
  (Loop.loop (fun s => decide (skipFront ≤ s.1)) (indexed body) fuel 0
    (sizeSub (sizeAdd numberOfFramesInOutput skipFront) 1, a)).map (Except.map Prod.snd)

/-- The body of `createBacktraceSymbols` at one index. -/
def Machine.frameAt (m : Machine) (addrList : List UInt64) (i : Nat) (output : Json) :
    Except Fault Json :=
  match addrList[i]? with
  | none => .error .invalidRead
  | some address => do
      let frame ← m.frameOf address
      pushFrame output frame

/-- The indices in the order in which the loop goes through them. -/
def frameIndices (nFrames skipFront skipBack fuel : Nat) : Option (Except Fault (List Nat)) :=
  overFrames (fun i indices => .ok (indices ++ [i])) nFrames skipFront skipBack fuel []

theorem createBacktraceSymbols_eq_overFrames (m : Machine) (stack : CallStack)
    (skipFront skipBack fuel : Nat) :
    createBacktraceSymbols m stack skipFront skipBack fuel =
      overFrames (m.frameAt stack.addresses) stack.addresses.length skipFront skipBack fuel
        .null := by
  have hround : m.round stack.addresses = indexed (m.frameAt stack.addresses) := by
    funext i s
    simp only [Machine.round, indexed, Machine.frameAt]
    cases stack.addresses[s.1]? with
    | none => rfl
    | some address =>
        simp only [bind, Except.bind]
        cases m.frameOf address <;> rfl
  rw [createBacktraceSymbols, hround]
  rfl

section Rounds

variable (body : Nat → α → Except ε α) {skipFront : Nat}

private theorem loop_eq_foldlM_of_lt {fuel i first last : Nat} {before after : List Nat}
    (hlt : first < skipFront)
    (h : Loop.loop (fun s => decide (skipFront ≤ s.1))
      (indexed fun i indices => (.ok (indices ++ [i]) : Except Fault (List Nat))) fuel i
        (first, before) = some (.ok (last, after))) :
    ∃ new, after = before ++ new ∧ ∀ a,
      (Loop.loop (fun s => decide (skipFront ≤ s.1)) (indexed body) fuel i (first, a)).map
          (Except.map Prod.snd) =
        some (new.foldlM (fun a i => body i a) a) := by
  have hcond : decide (skipFront ≤ first) = false := by
    rw [decide_eq_false_iff_not]
    omega
  rw [Loop.loop_of_not_cond (by exact hcond)] at h
  cases h
  refine ⟨[], (List.append_nil _).symm, ?_⟩
  intro a
  rw [Loop.loop_of_not_cond (by exact hcond)]
  rfl

/-- Where the loop over the indices ends, any body has been run on just these
indices, up to the first on which it throws. -/
theorem loop_eq_foldlM {fuel i first last : Nat} {before after : List Nat}
    (h : Loop.loop (fun s => decide (skipFront ≤ s.1))
      (indexed fun i indices => (.ok (indices ++ [i]) : Except Fault (List Nat))) fuel i
        (first, before) = some (.ok (last, after))) :
    ∃ new, after = before ++ new ∧ ∀ a,
      (Loop.loop (fun s => decide (skipFront ≤ s.1)) (indexed body) fuel i (first, a)).map
          (Except.map Prod.snd) =
        some (new.foldlM (fun a i => body i a) a) := by
  induction fuel generalizing i first before with
  | zero =>
      rcases Nat.lt_or_ge first skipFront with hlt | hge
      · exact loop_eq_foldlM_of_lt body hlt h
      · simp [Loop.loop, hge] at h
  | succ fuel ih =>
      rcases Nat.lt_or_ge first skipFront with hlt | hge
      · exact loop_eq_foldlM_of_lt body hlt h
      · simp only [Loop.loop, hge, decide_true, if_true, indexed, bind, Except.bind, pure,
          Except.pure] at h
        obtain ⟨new, hafter, hbody⟩ := ih h
        refine ⟨first :: new, by simp [hafter], ?_⟩
        intro a
        rw [List.foldlM_cons]
        simp only [Loop.loop, hge, decide_true, if_true, indexed, bind, Except.bind]
        cases hfirst : body first a with
        | error e => rfl
        | ok b => exact hbody b

end Rounds

/-- The loop runs its body on `frameIndices`, one after the other. -/
theorem overFrames_eq_foldlM (body : Nat → α → Except ε α)
    {nFrames skipFront skipBack fuel : Nat} {indices : List Nat}
    (h : frameIndices nFrames skipFront skipBack fuel = some (.ok indices)) (a : α) :
    overFrames body nFrames skipFront skipBack fuel a =
      some (indices.foldlM (fun a i => body i a) a) := by
  obtain ⟨result, hloop, hresult⟩ := Option.map_eq_some_iff.mp h
  cases result with
  | error e => cases hresult
  | ok s =>
      obtain ⟨new, hafter, hbody⟩ := loop_eq_foldlM body hloop
      cases hresult
      rw [hafter]
      exact hbody a

/-- The indices of the frames that are not skipped, outermost first. -/
def retainedIndices (nFrames skipFront skipBack : Nat) : List Nat :=
  (List.range' skipFront (nFrames - skipBack - skipFront)).reverse

/-- The loop ends, having gone through the frames that are not skipped and no
others. -/
def VisitsRetained (nFrames skipFront skipBack : Nat) : Prop :=
  ∃ fuel indices, frameIndices nFrames skipFront skipBack fuel = some (.ok indices) ∧
    indices = retainedIndices nFrames skipFront skipBack ∧
    (nFrames ≤ skipFront + skipBack → indices = []) ∧ ∀ i ∈ indices, i < nFrames

theorem lt_of_mem_retainedIndices {nFrames skipFront skipBack i : Nat}
    (h : i ∈ retainedIndices nFrames skipFront skipBack) : i < nFrames := by
  simp only [retainedIndices, List.mem_reverse, List.mem_range'_1] at h
  omega

theorem retainedIndices_eq_nil {nFrames skipFront skipBack : Nat}
    (h : nFrames ≤ skipFront + skipBack) : retainedIndices nFrames skipFront skipBack = [] := by
  have hcount : nFrames - skipBack - skipFront = 0 := by omega
  simp [retainedIndices, hcount]

theorem visitsRetained_of_frameIndices {nFrames skipFront skipBack : Nat} (fuel : Nat)
    (h : frameIndices nFrames skipFront skipBack fuel =
      some (.ok (retainedIndices nFrames skipFront skipBack))) :
    VisitsRetained nFrames skipFront skipBack :=
  ⟨fuel, _, h, rfl, retainedIndices_eq_nil, fun _ => lt_of_mem_retainedIndices⟩

/-- `skip_front` cancels in the first index. -/
theorem firstIndex_eq {nFrames skipFront skipBack : Nat} (hfront : skipFront < 2 ^ 64)
    (hback : skipBack < 2 ^ 64) :
    sizeSub (sizeAdd (sizeSub (sizeSub nFrames skipBack) skipFront) skipFront) 1 =
      sizeSub nFrames (skipBack + 1) := by
  simp only [sizeSub, sizeAdd]
  omega

/-- The loop of `frameIndices`, from the index `first` on. -/
def writesDown (skipFront fuel i first : Nat) (indices : List Nat) :
    Option (Except Fault (Nat × List Nat)) :=
  Loop.loop (fun s => decide (skipFront ≤ s.1))
    (indexed fun i indices => .ok (indices ++ [i])) fuel i (first, indices)

theorem frameIndices_eq {nFrames skipFront skipBack : Nat} (hfront : skipFront < 2 ^ 64)
    (hback : skipBack < 2 ^ 64) (fuel : Nat) :
    frameIndices nFrames skipFront skipBack fuel =
      (writesDown skipFront fuel 0 (sizeSub nFrames (skipBack + 1)) []).map
        (Except.map Prod.snd) := by
  rw [frameIndices, overFrames, firstIndex_eq hfront hback]
  rfl

/-- Indices that come out have been written down by the loop. -/
theorem exists_writesDown_of_frameIndices {nFrames skipFront skipBack fuel : Nat}
    {indices : List Nat} (hfront : skipFront < 2 ^ 64) (hback : skipBack < 2 ^ 64)
    (h : frameIndices nFrames skipFront skipBack fuel = some (.ok indices)) :
    ∃ last, writesDown skipFront fuel 0 (sizeSub nFrames (skipBack + 1)) [] =
      some (.ok (last, indices)) := by
  rw [frameIndices_eq hfront hback, Option.map_eq_some_iff] at h
  obtain ⟨result, hwrites, hresult⟩ := h
  cases result with
  | error e => cases hresult
  | ok s =>
      cases hresult
      exact ⟨s.1, hwrites⟩

theorem writesDown_of_lt {skipFront first : Nat} (h : first < skipFront) (fuel i : Nat)
    (indices : List Nat) :
    writesDown skipFront fuel i first indices = some (.ok (first, indices)) := by
  have hcond : decide (skipFront ≤ first) = false := by
    rw [decide_eq_false_iff_not]
    omega
  exact Loop.loop_of_not_cond hcond

theorem writesDown_succ {skipFront first : Nat} (h : skipFront ≤ first) (fuel i : Nat)
    (indices : List Nat) :
    writesDown skipFront (fuel + 1) i first indices =
      writesDown skipFront fuel (i + 1) (sizeSub first 1) (indices ++ [first]) := by
  simp [writesDown, Loop.loop, h, indexed, bind, Except.bind, pure, Except.pure]

/-- From an index of a frame the loop counts down to the last frame in front of
those skipped. -/
theorem writesDown_eq {skipFront k : Nat} (hfront : 1 ≤ skipFront) (hk : skipFront + k ≤ 2 ^ 64)
    (i : Nat) (indices : List Nat) :
    writesDown skipFront k i (skipFront + k - 1) indices =
      some (.ok (skipFront - 1, indices ++ (List.range' skipFront k).reverse)) := by
  induction k generalizing i indices with
  | zero => simpa using writesDown_of_lt (by omega) 0 i indices
  | succ k ih =>
      have hnext : sizeSub (skipFront + (k + 1) - 1) 1 = skipFront + k - 1 := by
        rw [sizeSub_of_le (by omega) (by omega)]
        omega
      have hrange : (List.range' skipFront (k + 1)).reverse =
          (skipFront + (k + 1) - 1) :: (List.range' skipFront k).reverse := by
        rw [List.range'_1_concat, List.reverse_append]
        rfl
      rw [writesDown_succ (by omega), hnext, ih (by omega), hrange]
      simp

/-- What is written down stays. -/
theorem writesDown_grows {skipFront fuel i first last : Nat} {before after : List Nat}
    (h : writesDown skipFront fuel i first before = some (.ok (last, after))) :
    before <+: after := by
  obtain ⟨new, hafter, -⟩ := loop_eq_foldlM (fun _ a => (.ok a : Except Fault Unit)) h
  exact ⟨new, hafter.symm⟩

/-- With a frame to go through, the loop does not end with none. -/
theorem ne_nil_of_writesDown {skipFront fuel i first last : Nat} {before after : List Nat}
    (hfirst : skipFront ≤ first)
    (h : writesDown skipFront fuel i first before = some (.ok (last, after))) : after ≠ [] := by
  cases fuel with
  | zero => simp [writesDown, Loop.loop, hfirst] at h
  | succ fuel =>
      rw [writesDown_succ hfirst] at h
      apply (writesDown_grows h).ne_nil
      simp

/-- The test with `skip_front` zero holds of every index. -/
theorem not_writesDown_zero (fuel i first : Nat) (before after : List Nat) (last : Nat) :
    writesDown 0 fuel i first before ≠ some (.ok (last, after)) := by
  intro h
  apply Loop.not_finishes_of_invariant (fun _ : Nat × List Nat => True) (fun s _ => ?_)
    (fun _ s _ => ⟨_, rfl, trivial⟩) trivial ⟨fuel, _, h⟩
  simp

/-- The loop goes through just the frames that are not skipped if and only if
`skip_front` is not zero and no frame index comes of a wrapped difference:
`skip_back` is below the number of frames, or so far above it that the first
index, wrapped, is still below `skip_front`. -/
theorem visitsRetained_iff {nFrames skipFront skipBack : Nat} (hframes : nFrames ≤ 128)
    (hfront : skipFront < 2 ^ 64) (hback : skipBack < 2 ^ 64) :
    VisitsRetained nFrames skipFront skipBack ↔
      1 ≤ skipFront ∧ (skipBack < nFrames ∨ nFrames + 2 ^ 64 ≤ skipFront + skipBack) := by
  constructor
  · rintro ⟨fuel, indices, hloop, -, hnone, -⟩
    obtain ⟨last, hwrites⟩ := exists_writesDown_of_frameIndices hfront hback hloop
    have hpos : 1 ≤ skipFront := by
      rcases Nat.eq_zero_or_pos skipFront with rfl | hpos
      · exact absurd hwrites (not_writesDown_zero _ _ _ _ _ _)
      · exact hpos
    refine ⟨hpos, ?_⟩
    rcases Nat.lt_or_ge skipBack nFrames with hlt | hge
    · exact .inl hlt
    · have hempty : indices = [] := hnone (by omega)
      have hfirst : ¬ skipFront ≤ sizeSub nFrames (skipBack + 1) := by
        intro hle
        exact ne_nil_of_writesDown hle hwrites hempty
      right
      simp only [sizeSub] at hfirst
      omega
  · rintro ⟨hpos, hcase⟩
    rcases Nat.lt_or_ge (sizeSub nFrames (skipBack + 1)) skipFront with hlt | hge
    · apply visitsRetained_of_frameIndices 0
      rw [frameIndices_eq hfront hback, writesDown_of_lt hlt, retainedIndices_eq_nil]
      · rfl
      · simp only [sizeSub] at hlt
        omega
    · have hlt : skipBack < nFrames := by
        simp only [sizeSub] at hge
        omega
      have hfirst : sizeSub nFrames (skipBack + 1) =
          skipFront + (nFrames - skipBack - skipFront) - 1 := by
        rw [sizeSub_of_le (by omega) (by omega)] at hge ⊢
        omega
      apply visitsRetained_of_frameIndices (nFrames - skipBack - skipFront)
      rw [frameIndices_eq hfront hback, hfirst, writesDown_eq hpos (by omega)]
      rfl

theorem visitsRetained_five_two : VisitsRetained 10 5 2 :=
  (visitsRetained_iff (by decide) (by decide) (by decide)).mpr (by decide)

/-- With the declared default arguments the loop of a stack of two frames does
not end. -/
theorem not_visitsRetained_default :
    ¬ ∀ nFrames skipFront skipBack : Nat, nFrames ≤ 128 → skipFront < 2 ^ 64 →
      skipBack < 2 ^ 64 → VisitsRetained nFrames skipFront skipBack := by
  intro hall
  obtain ⟨fuel, indices, hloop, -⟩ := hall 2 0 0 (by decide) (by decide) (by decide)
  obtain ⟨last, hwrites⟩ := exists_writesDown_of_frameIndices (by decide) (by decide) hloop
  exact not_writesDown_zero _ _ _ _ _ _ hwrites

end Sentry.Backtrace
