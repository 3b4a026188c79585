import SentryCpp.Transport.Pause

/-!
The back-off after a failed request and after a 429. A failure enters
`NO_CONNECTION` and stores its time; the worker leaves that state only when
`reconnectTimeoutReached` has seen ten seconds go by since then. A 429 enters
`DROP_EVENTS`, which is never left. A POST needs `SEND_EVENTS`, so with a clock
that does not run backwards none starts inside of either window, whatever is
queued and whether or not the transport is being stopped.
-/

namespace Sentry.Transport

open StdString SimpleWeb

/-- The reading of the clock in an action. -/
def Action.time : Action → Option Time
  | .work now | .answer _ now => some now
  | .call _ | .push _ | .stop => none

/-- The readings of a schedule do not decrease. -/
def NonDecreasing (schedule : List Action) : Prop :=
  (schedule.filterMap Action.time).Pairwise (· ≤ ·)

instance (schedule : List Action) : Decidable (NonDecreasing schedule) :=
  inferInstanceAs (Decidable (List.Pairwise _ _))

/-- When the reconnection may be tried after a failure at `failure`. -/
def reconnectAt (failure : Time) : Time :=
  failure + (reconnectionTimeoutMilliseconds : Int) * 1000000

/-- The worker makes a POST in this step. -/
def StartsPost (w v : World) : Prop :=
  v.transport.history.posts.length = w.transport.history.posts.length + 1

/-- At the reading `now` the window of a failure is over, or the worker waits
for its end. -/
def BackedOff (failure now : Time) (w : World) : Prop :=
  reconnectAt failure ≤ now ∨
    (w.transport.state = .noConnection ∧ w.transport.lastConnectionRequestTime = failure ∧
      w.worker.idle = true)

theorem le_of_le_durationMilliseconds {d wait : Int} (hwait : 0 < wait)
    (h : wait ≤ durationMilliseconds d) : wait * 1000000 ≤ d := by
  unfold durationMilliseconds at h
  have hd : 0 ≤ d := by
    by_contra hneg
    have hneg' : 0 ≤ (-d).tdiv 1000000 := Int.tdiv_nonneg (by omega) (by omega)
    rw [Int.neg_tdiv] at hneg'
    omega
  rw [Int.tdiv_eq_ediv_of_nonneg hd] at h
  omega

theorem reconnectAt_le_of_reached {t : Transport} {now : Time}
    (h : t.reconnectTimeoutReached now = true) :
    reconnectAt t.lastConnectionRequestTime ≤ now := by
  unfold reconnectTimeoutReached at h
  rw [decide_eq_true_eq] at h
  have helapsed := le_of_le_durationMilliseconds (by decide) h
  simp only [reconnectAt]
  linarith

theorem BackedOff.step {failure now later : Time} {w v : World} {a : Action}
    (h : BackedOff failure now w) (hnow : now ≤ later) (htime : ∀ reading ∈ a.time, reading = later)
    (hstep : Transport.step w a = some v) : BackedOff failure later v := by
  rcases h with hover | ⟨hstate, hlast, hidle⟩
  · exact Or.inl (hover.trans hnow)
  · cases move_of_step hstep with
    | refused | call | push | stop => exact Or.inr ⟨hstate, hlast, hidle⟩
    | test now' phase pc hworker hpc =>
        obtain ⟨phase', rfl | rfl⟩ := hpc <;> exact Or.inr ⟨hstate, hlast, rfl⟩
    | finish | idle => exact Or.inr ⟨hstate, hlast, rfl⟩
    | wait reading phase hworker hwait =>
        obtain rfl : reading = later := htime reading rfl
        simp only [performNoConnection]
        split
        · rename_i hreached
          have hend := reconnectAt_le_of_reached hreached
          rw [hlast] at hend
          exact Or.inl hend
        · exact Or.inr ⟨hstate, hlast, rfl⟩
    | enter now' phase hworker hsend => simp [hstate] at hsend
    | _ => simp_all [Pc.idle]

/-- The run lemma. `now` is the last reading in front of the schedule. -/
theorem backedOff_of_run {failure now : Time} {w v : World} {schedule : List Action}
    (h : BackedOff failure now w)
    (hclock : (now :: schedule.filterMap Action.time).Pairwise (· ≤ ·))
    (hrun : Transition.run step w schedule = some v) :
    BackedOff failure ((schedule.filterMap Action.time).getLastD now) v := by
  induction schedule generalizing w now with
  | nil =>
      cases hrun
      exact h
  | cons a schedule ih =>
      obtain ⟨u, hstep, hrun⟩ := Transition.run_cons_iff.mp hrun
      cases htime : a.time with
      | none =>
          simp only [List.filterMap_cons, htime] at hclock ⊢
          apply ih _ hclock hrun
          exact h.step le_rfl (by simp [htime]) hstep
      | some reading =>
          simp only [List.filterMap_cons, htime, List.getLastD_cons] at hclock ⊢
          obtain ⟨hfirst, hrest⟩ := List.pairwise_cons.mp hclock
          apply ih _ hrest hrun
          exact h.step (hfirst reading List.mem_cons_self) (by simp [htime]) hstep

theorem not_idle_of_startsPost {w v : World} {a : Action} (hstep : step w a = some v)
    (hstarts : StartsPost w v) : w.worker.idle = false ∧ w.worker ≠ .terminated := by
  unfold StartsPost at hstarts
  cases move_of_step hstep with
  | post now phase task post' hworker hpost => simp [hworker, Pc.idle]
  | push | requeue => simp [Transport.push, RetryQueue.Attempt.retryJob] at hstarts
  | wait =>
      simp only [performNoConnection, changeState] at hstarts
      split at hstarts <;> simp at hstarts
  | disconnect => simp [connectionLost, changeState, recordOutcome] at hstarts
  | settle | limit | reject | terminate => simp [recordOutcome] at hstarts
  | _ => simp at hstarts

theorem terminated_of_run {w v : World} {schedule : List Action}
    (h : w.worker = .terminated) (hrun : Transition.run step w schedule = some v) :
    v.worker = .terminated := by
  have hstep : ∀ (w : World) (a : Action) (v : World), w.worker = .terminated →
      step w a = some v → v.worker = .terminated := by
    intro w a v hterminated hstep
    cases move_of_step hstep with
    | refused | call | push | stop => exact hterminated
    | terminate => rfl
    | _ => simp_all
  exact Transition.run_invariant hstep h hrun

/-- An error code enters `NO_CONNECTION`. -/
theorem backedOff_of_failure {w v : World} {outcome : Outcome} {failure : Time}
    (hfail : request outcome = .error .systemError)
    (hstep : step w (.answer outcome failure) = some v) : BackedOff failure failure v := by
  have hfailed : failed outcome = true := by simp [failed, hfail, Except.isOk, Except.toBool]
  have hescapes : escapes outcome = false := by
    rcases request_cases outcome with ⟨rfl, -⟩ | ⟨r, -, -, hok⟩ | ⟨r, e, -, -, hne, herror⟩
    · rfl
    · simp [hok] at hfail
    · simp [herror, hne] at hfail
  cases move_of_step hstep with
  | disconnect => exact Or.inr ⟨rfl, rfl, rfl⟩
  | settle _ _ _ _ _ _ _ hnot | limit _ _ _ _ _ _ _ _ hnot | reject _ _ _ _ _ _ _ hnot =>
      simp [hfailed] at hnot
  | terminate _ _ _ _ _ _ _ _ hesc => simp [hescapes] at hesc

/-- A 429 ends the sending. -/
theorem silent_of_limited {w v : World} {outcome : Outcome} {now : Time}
    (hlimited : limited outcome = true) (hstep : step w (.answer outcome now) = some v) :
    Paused v ∨ v.worker = .terminated := by
  cases move_of_step hstep with
  | limit => exact Or.inl ⟨rfl, rfl⟩
  | terminate => exact Or.inr rfl
  | settle _ _ _ _ _ _ hnot | reject _ _ _ _ _ _ hnot | disconnect _ _ _ _ _ _ hnot =>
      simp [hlimited] at hnot

/-- No POST starts in the ten seconds after a failed one, and none in the time
that a 429 has asked for. -/
theorem post_after_backOff {w v u x : World} {outcome : Outcome} {failure start : Time}
    {between : List Action} (hanswer : step w (.answer outcome failure) = some v)
    (hbetween : Transition.run step v between = some u)
    (hpost : step u (.work start) = some x) (hstarts : StartsPost u x)
    (hclock : NonDecreasing (.answer outcome failure :: between ++ [.work start])) :
    (request outcome = .error .systemError → reconnectAt failure ≤ start) ∧
    (limited outcome = true → pauseEnd v failure ≤ start) := by
  obtain ⟨hbusy, halive⟩ := not_idle_of_startsPost hpost hstarts
  constructor
  · intro hfail
    have hreadings : ((failure :: between.filterMap Action.time) ++ [start]).Pairwise (· ≤ ·) := by
      simpa [NonDecreasing, Action.time] using hclock
    obtain ⟨hmiddle, -, hlast⟩ := List.pairwise_append.mp hreadings
    have hend : (between.filterMap Action.time).getLastD failure ≤ start := by
      apply hlast _ _ start List.mem_cons_self
      exact List.getLastD_mem_cons
    rcases backedOff_of_run (backedOff_of_failure hfail hanswer) hmiddle hbetween with
      hover | ⟨-, -, hidle⟩
    · exact hover.trans hend
    · simp [hidle] at hbusy
  · intro hlimited
    rcases silent_of_limited hlimited hanswer with hpaused | hterminated
    · have hidle := (paused_of_run hpaused hbetween).idle
      simp [hidle] at hbusy
    · exact absurd (terminated_of_run hterminated hbetween) halive

/-- Two events. The server is not there for the first one. -/
def unreachable : List Action :=
  [.call (lit "a"), .push 0, .call (lit "b"), .push 0, .work 0, .work 10000000000,
    .work 10000000000, .work 10000000000, .work 10000000000, .work 10000000000]

/-- Nine seconds later the worker still waits, ten seconds later it goes on
with the second event. -/
def reconnection : List Action :=
  [.work 19000000000, .work 19000000000, .work 20000000000, .work 20000000000,
    .work 20000000000, .work 20000000000, .work 20000000000]

theorem post_after_backOff_reconnection :
    ∃ w v u x, Transition.run step localWorld unreachable = some w ∧
      step w (.answer .errorCode 10000000000) = some v ∧
      Transition.run step v reconnection = some u ∧ step u (.work 20000000000) = some x ∧
      reconnectAt 10000000000 ≤ 20000000000 := by
  have hposts : (Transition.run step localWorld
      (unreachable ++ .answer .errorCode 10000000000 :: reconnection)).bind
      (fun u => (step u (.work 20000000000)).map fun x =>
        (u.transport.history.posts.length, x.transport.history.posts.length)) =
      some (1, 2) := by decide
  obtain ⟨u, hrun, hposts⟩ := Option.bind_eq_some_iff.mp hposts
  obtain ⟨x, hpost, hlengths⟩ := Option.map_eq_some_iff.mp hposts
  obtain ⟨w, hw, hrun⟩ := Transition.run_append_iff.mp hrun
  obtain ⟨v, hv, hu⟩ := Transition.run_cons_iff.mp hrun
  obtain ⟨hbefore, hafter⟩ := Prod.mk.inj hlengths
  have hstarts : StartsPost u x := by simp [StartsPost, hbefore, hafter]
  exact ⟨w, v, u, x, hw, hv, hu, hpost,
    (post_after_backOff hv hu hpost hstarts (by decide)).1 rfl⟩

end Sentry.Transport
