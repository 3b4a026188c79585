import SentryCpp.Transport.Exit

/-!
Nobody waits for ever. While the server answers, with whatever it answers short
of a 429 and of what no handler can read, the worker works the queue off from its
front. An event with `k`
others in front of it is sent behind `7 * k + 11` actions of the worker at the
latest, however many events the callers push in the meantime and whether or not
`stop` is called. Lost connections are no exception if the clock has gone past
the ten seconds whenever the worker looks at it.
-/

namespace Sentry.Transport

open StdString SimpleWeb

/-- The server answers with something that leaves the worker its work, and a
worker without a connection has waited long enough. -/
def serves (w : World) : Action → Bool
  | .work now =>
      match w.worker, w.transport.state with
      | .dispatch _, .noConnection => w.transport.reconnectTimeoutReached now
      | _, _ => true
  | .answer outcome _ => !limited outcome && !escapes outcome
  | _ => true

/-- An action of the worker. -/
def Action.isWorkers : Action → Bool
  | .work _ | .answer _ _ => true
  | _ => false

/-- How many actions of the worker there are until it takes the task at the
front, not counting those for a change of its state or its loop. -/
def Pc.untilTake : Pc → Nat
  | .execute .. => 7
  | .awaiting .. => 6
  | .retryTest .. => 5
  | .retryPush .. => 4
  | .loopTest _ => 3
  | .dispatch _ => 2
  | .lockQueue _ => 1
  | .returned | .aborted | .terminated => 0

/-- The action of leaving the first loop of `run`. -/
def Phase.untilDraining : Phase → Nat
  | .serving => 1
  | .draining => 0

def Pc.untilDraining : Pc → Nat
  | .loopTest phase | .dispatch phase | .lockQueue phase | .execute phase _ | .awaiting phase _
  | .retryTest phase _ | .retryPush phase _ => phase.untilDraining
  | .returned | .aborted | .terminated => 0

/-- The two actions for the way from `NO_CONNECTION` to `SEND_EVENTS`. -/
def State.untilSending : State → Nat
  | .noConnection => 2
  | .sendEvents | .dropEvents => 0

/-- How long the event at place `k` of the queue waits at most. -/
def queueWait (w : World) (k : Nat) : Nat :=
  7 * k + w.worker.untilTake + w.worker.untilDraining + w.transport.state.untilSending

/-- The task of the event is in the queue or in the worker's hands, and will be
sent behind `n` further actions of the worker at the latest. -/
inductive Due (event : Nat) (n : Nat) (w : World) : Prop where
  | queued (k : Nat) (task : Task) (htask : w.transport.tasks[k]? = some task)
      (hevent : task.event = event) (hstate : w.transport.state ≠ .dropEvents)
      (hn : queueWait w k ≤ n)
  | taken (phase : Phase) (task : Task) (hworker : w.worker = .execute phase task)
      (hevent : task.event = event)

/-- A POST for the event behind the first `made` ones. -/
def SentSince (made event : Nat) (w : World) : Prop :=
  ∃ i post, made ≤ i ∧ w.transport.history.posts[i]? = some post ∧ post.event = event

/-- The event is due, in a world with a client that has made these POSTs. -/
structure Waits (made event n : Nat) (w : World) : Prop where
  hasClient : w.transport.httpClient.isSome = true
  made : made ≤ w.transport.history.posts.length
  due : Due event n w

theorem posts_step {w v : World} {a : Action} (hstep : step w a = some v) :
    w.transport.history.posts <+: v.transport.history.posts := by
  cases move_of_step hstep with
  | post now phase task post => exact List.prefix_append _ _
  | wait =>
      simp only [performNoConnection]
      split <;> exact List.prefix_refl _
  | _ => exact List.prefix_refl _

theorem SentSince.step {made event : Nat} {w v : World} {a : Action} (h : SentSince made event w)
    (hstep : Transport.step w a = some v) : SentSince made event v := by
  obtain ⟨i, post, hmade, hpost, hevent⟩ := h
  obtain ⟨more, hmore⟩ := posts_step hstep
  refine ⟨i, post, hmade, ?_, hevent⟩
  rw [← hmore, List.getElem?_append_left (List.getElem?_eq_some_iff.mp hpost).1, hpost]

theorem sentSince_post {made : Nat} {w : World} (hmade : made ≤ w.transport.history.posts.length)
    (post : Post) (pc : Pc) :
    SentSince made post.event { w with transport := w.transport.recordPost post, worker := pc } :=
  ⟨w.transport.history.posts.length, post, hmade, List.getElem?_concat_length, rfl⟩

theorem event_of_postOf {t : Transport} {task : Task} {now : Time} {post : Post}
    (h : postOf t task now = some post) : post.event = task.event := by
  cases task with
  | first event contents =>
      obtain ⟨client, -, rfl⟩ := Option.map_eq_some_iff.mp h
      rfl
  | retry event contents header =>
      cases h
      rfl

theorem postOf_isSome {t : Transport} (hclient : t.httpClient.isSome = true) (task : Task)
    (now : Time) : (postOf t task now).isSome = true := by
  cases task with
  | first event contents => rw [postOf, Option.isSome_map, hclient]
  | retry event contents header => rfl

/-- The step lemma for a task in the worker's hands: the next action of the
worker is its POST. -/
theorem due_of_taken {made event : Nat} {w v : World} {a : Action} {phase : Phase} {task : Task}
    (hclient : w.transport.httpClient.isSome = true)
    (hmade : made ≤ w.transport.history.posts.length)
    (hworker : w.worker = .execute phase task) (hevent : task.event = event)
    (hstep : step w a = some v) :
    SentSince made event v ∨ a.isWorkers = false ∧ v.worker = .execute phase task := by
  cases move_of_step hstep with
  | refused | call | push | stop => exact Or.inr ⟨rfl, hworker⟩
  | post now phase' task' post hworker' hpost =>
      rw [hworker] at hworker'
      cases hworker'
      rw [← hevent, ← event_of_postOf hpost]
      exact Or.inl (sentSince_post hmade post _)
  | discard now phase' task' hworker' hpost =>
      have hsome := postOf_isSome hclient task' now
      rw [hpost] at hsome
      cases hsome
  | _ => simp_all

theorem queueWait_dispatch {w v : World} {phase : Phase} {now : Time} (k : Nat)
    (hworker : w.worker = .dispatch phase) (htasks : w.transport.tasks ≠ [])
    (hstate : w.transport.state ≠ .dropEvents) (hserves : serves w (.work now) = true)
    (hstep : workStep w now = some v) :
    v.transport.tasks = w.transport.tasks ∧ v.transport.state ≠ .dropEvents ∧
      queueWait v k < queueWait w k := by
  cases hw : w.transport.state with
  | dropEvents => exact absurd hw hstate
  | sendEvents =>
      simp only [workStep, hworker, hw, List.isEmpty_iff, htasks, if_false,
        Option.some.injEq] at hstep
      subst v
      simp [queueWait, hworker, hw, Pc.untilTake, Pc.untilDraining]
  | noConnection =>
      have hreached : w.transport.reconnectTimeoutReached now = true := by
        simpa [serves, hworker, hw] using hserves
      simp only [workStep, hworker, hw, performNoConnection, hreached, if_true,
        Option.some.injEq] at hstep
      subst v
      simp only [queueWait, hworker, hw, changeState, Pc.untilTake, Pc.untilDraining,
        State.untilSending]
      exact ⟨trivial, by simp, by omega⟩

/-- The worker's own steps, from anywhere but the lock of the queue: the queue
stays as it is, or gets a retry at its end, and each wait gets shorter. -/
theorem queueWait_work {w v : World} {now : Time} (k : Nat) (htasks : w.transport.tasks ≠ [])
    (hstate : w.transport.state ≠ .dropEvents) (hserves : serves w (.work now) = true)
    (hlock : ∀ phase, w.worker ≠ .lockQueue phase) (hstep : workStep w now = some v) :
    w.transport.tasks <+: v.transport.tasks ∧ v.transport.state ≠ .dropEvents ∧
      queueWait v k < queueWait w k := by
  cases hworker : w.worker with
  | loopTest phase =>
      rcases workStep_loopTest hworker hstep with ⟨rfl, -⟩ | ⟨rfl, -, rfl⟩ | ⟨-, hempty, -⟩
      · simp [queueWait, hworker, Pc.untilTake, Pc.untilDraining, hstate]
      · simp [queueWait, hworker, Pc.untilTake, Pc.untilDraining, Phase.untilDraining, hstate]
      · exact absurd hempty htasks
  | dispatch phase =>
      obtain ⟨hsame, hafter, hless⟩ := queueWait_dispatch k hworker htasks hstate hserves hstep
      exact ⟨hsame ▸ List.prefix_refl _, hafter, hless⟩
  | lockQueue phase => exact absurd hworker (hlock phase)
  | execute phase task =>
      simp only [workStep, hworker] at hstep
      cases hpost : postOf w.transport task now with
      | none =>
          rw [hpost] at hstep
          cases hstep
          simp [queueWait, hworker, Pc.untilTake, Pc.untilDraining, hstate]
      | some post =>
          rw [hpost] at hstep
          cases hstep
          simp [queueWait, hworker, Pc.untilTake, Pc.untilDraining, hstate, recordPost]
  | retryTest phase post =>
      simp only [workStep, hworker, Option.some.injEq] at hstep
      subst v
      cases w.transport.shouldStop <;>
        simp [queueWait, hworker, Pc.untilTake, Pc.untilDraining, hstate]
  | retryPush phase post =>
      simp only [workStep, hworker, Option.some.injEq] at hstep
      subst v
      simp [queueWait, hworker, Pc.untilTake, Pc.untilDraining, hstate, push]
  | awaiting | returned | aborted | terminated => simp [workStep, hworker] at hstep

/-- An answer that is no 429 lets the worker go on. -/
theorem queueWait_answer {w v : World} {outcome : Outcome} {now : Time} (k : Nat)
    (hstate : w.transport.state ≠ .dropEvents)
    (hserves : serves w (.answer outcome now) = true)
    (hstep : step w (.answer outcome now) = some v) :
    v.transport.tasks = w.transport.tasks ∧ v.transport.state ≠ .dropEvents ∧
      queueWait v k < queueWait w k := by
  simp only [serves, Bool.and_eq_true, Bool.not_eq_true'] at hserves
  cases move_of_step hstep with
  | settle _ _ phase post hworker =>
      simp [queueWait, hworker, recordOutcome, Pc.untilTake, Pc.untilDraining, hstate]
  | limit _ _ _ _ _ _ _ hlimited =>
      rw [hserves.1] at hlimited
      cases hlimited
  | reject _ _ phase post hworker =>
      cases post.isRetrying <;>
        simp [queueWait, hworker, recordOutcome, Pc.untilTake, Pc.untilDraining, hstate]
  | disconnect _ _ phase post hworker =>
      simp only [queueWait, hworker, recordOutcome, connectionLost, changeState, Pc.untilTake,
        Pc.untilDraining, State.untilSending]
      exact ⟨trivial, by simp, by omega⟩
  | terminate _ _ _ _ _ _ _ _ hescapes =>
      rw [hserves.2] at hescapes
      cases hescapes

/-- The worker takes the task at the front; the others move up. -/
theorem due_of_lockQueue {event : Nat} {w v : World} {phase : Phase} {now : Time} {k : Nat}
    {task : Task} (hworker : w.worker = .lockQueue phase)
    (htask : w.transport.tasks[k]? = some task) (hevent : task.event = event)
    (hstate : w.transport.state ≠ .dropEvents) (hstep : workStep w now = some v) :
    ∃ m, Due event m v ∧ m < queueWait w k := by
  cases htasks : w.transport.tasks with
  | nil => simp [htasks] at htask
  | cons front rest =>
      simp only [workStep, hworker, htasks, Option.some.injEq] at hstep
      subst v
      rw [htasks] at htask
      cases k with
      | zero =>
          obtain rfl : front = task := by simpa using htask
          refine ⟨0, .taken phase front rfl hevent, ?_⟩
          simp [queueWait, hworker, Pc.untilTake]
      | succ k =>
          refine ⟨_, .queued k task (by simpa using htask) hevent hstate (Nat.le_refl _), ?_⟩
          simp only [queueWait, hworker, Pc.untilTake, Pc.untilDraining]
          omega

/-- The step lemma for a task in the queue. -/
theorem due_of_queued {event : Nat} {w v : World} {a : Action} {k : Nat} {task : Task}
    (htask : w.transport.tasks[k]? = some task) (hevent : task.event = event)
    (hstate : w.transport.state ≠ .dropEvents) (hserves : serves w a = true)
    (hstep : step w a = some v) :
    ∃ m, Due event m v ∧ m + (if a.isWorkers then 1 else 0) ≤ queueWait w k := by
  have hk := (List.getElem?_eq_some_iff.mp htask).1
  have hlater {tasks : List Task} (hinitial : w.transport.tasks <+: tasks) :
      tasks[k]? = some task := by
    obtain ⟨more, rfl⟩ := hinitial
    rw [List.getElem?_append_left hk, htask]
  cases a with
  | call contents =>
      have hsame : v.transport = w.transport ∧ v.worker = w.worker := by
        cases move_of_step hstep <;> exact ⟨rfl, rfl⟩
      refine ⟨_, .queued k task (hsame.1 ▸ htask) hevent (hsame.1 ▸ hstate) (Nat.le_refl _), ?_⟩
      simp [queueWait, hsame.1, hsame.2, Action.isWorkers]
  | push caller =>
      cases move_of_step hstep with
      | push _ contents =>
          exact ⟨_, .queued k task (hlater (List.prefix_append _ _)) hevent hstate
            (Nat.le_refl _), Nat.le_refl _⟩
  | stop =>
      cases move_of_step hstep
      exact ⟨_, .queued k task htask hevent hstate (Nat.le_refl _), Nat.le_refl _⟩
  | work now =>
      have hnonempty : w.transport.tasks ≠ [] := List.ne_nil_of_length_pos (by omega)
      rcases Classical.em (∃ phase, w.worker = .lockQueue phase) with ⟨phase, hworker⟩ | hlock
      · exact due_of_lockQueue hworker htask hevent hstate hstep
      · obtain ⟨htasks, hafter, hless⟩ := queueWait_work k hnonempty hstate hserves
          (not_exists.mp hlock) hstep
        exact ⟨_, .queued k task (hlater htasks) hevent hafter (Nat.le_refl _), hless⟩
  | answer outcome now =>
      obtain ⟨htasks, hafter, hless⟩ := queueWait_answer k hstate hserves hstep
      exact ⟨_, .queued k task (htasks ▸ htask) hevent hafter (Nat.le_refl _), hless⟩

theorem Waits.step {made event n : Nat} {w v : World} {a : Action} (h : Waits made event n w)
    (hserves : serves w a = true) (hstep : Transport.step w a = some v) :
    SentSince made event v ∨
      ∃ m, Waits made event m v ∧ m + (if a.isWorkers then 1 else 0) ≤ n := by
  have hclient : v.transport.httpClient.isSome = true := httpClient_step hstep ▸ h.hasClient
  have hmade : made ≤ v.transport.history.posts.length :=
    h.made.trans (posts_step hstep).length_le
  cases h.due with
  | queued k task htask hevent hstate hn =>
      obtain ⟨m, hdue, hm⟩ := due_of_queued htask hevent hstate hserves hstep
      exact Or.inr ⟨m, ⟨hclient, hmade, hdue⟩, hm.trans hn⟩
  | taken phase task hworker hevent =>
      rcases due_of_taken h.hasClient h.made hworker hevent hstep with hsent | ⟨hother, hsame⟩
      · exact Or.inl hsent
      · refine Or.inr ⟨n, ⟨hclient, hmade, .taken phase task hsame hevent⟩, ?_⟩
        simp [hother]

theorem queueWait_le (w : World) (k : Nat) : queueWait w k ≤ 7 * k + 10 := by
  have htake : w.worker.untilTake ≤ 7 := by
    cases w.worker <;> simp [Pc.untilTake]
  have hphase (phase : Phase) : phase.untilDraining ≤ 1 := by
    cases phase <;> simp [Phase.untilDraining]
  have hdraining : w.worker.untilDraining ≤ 1 := by
    cases w.worker <;> simp [Pc.untilDraining, hphase]
  have hsending : w.transport.state.untilSending ≤ 2 := by
    cases w.transport.state <;> simp [State.untilSending]
  simp only [queueWait]
  omega

/-- Whatever the callers do, an event with `k` others in front of it is sent
within `7 * k + 11` actions of the worker. -/
theorem sent_within {uninitialised : UInt64} {dsn : SentryDSN} {client : Client}
    {before schedule : List Action} {w v : World}
    (hbefore : Transition.run step (World.start uninitialised dsn (some client)) before = some w)
    {k : Nat} {task : Task} (htask : w.transport.tasks[k]? = some task)
    (hstate : w.transport.state ≠ .dropEvents)
    (hserves : Transition.AllSteps step (fun w a => serves w a = true) w schedule)
    (hrun : Transition.run step w schedule = some v)
    (hlong : 7 * k + 10 < schedule.countP Action.isWorkers) :
    SentSince w.transport.history.posts.length task.event v := by
  have hconnected : Connected w := Transition.run_invariant (fun _ _ _ h hstep => h.step hstep)
    (connected_start uninitialised dsn client) hbefore
  have hwaits : Waits w.transport.history.posts.length task.event (queueWait w k) w :=
    ⟨hconnected.hasClient, Nat.le_refl _, .queued k task htask rfl hstate (Nat.le_refl _)⟩
  exact Transition.bounded_wait (fun _ _ _ _ h hserves hstep => h.step hserves hstep)
    (fun _ _ _ h hstep => h.step hstep) hwaits hserves hrun
    (Nat.lt_of_le_of_lt (queueWait_le w k) hlong)

/-- Two events. -/
def twoPushed : List Action := [.call (lit "a"), .push 0, .call (lit "b"), .push 0]

/-- The server is busy with the first event and takes the second one. -/
def busyAtFirst : List Action :=
  [.work 0, .work 10000000000, .work 0, .work 0, .work 0, .work 0,
    .answer (answerWith "503 Service Unavailable") 0, .work 0, .work 0, .work 0, .work 0, .work 0,
    .work 0, .answer (answerWith "200 OK") 0, .work 0, .work 0, .work 0, .work 0]

theorem sent_within_busyAtFirst :
    ∃ w v, Transition.run step localWorld twoPushed = some w ∧
      Transition.run step w busyAtFirst = some v ∧
      SentSince w.transport.history.posts.length 1 v := by
  have hboth : (Transition.run step localWorld twoPushed).bind (fun w =>
      (Transition.run step w busyAtFirst).map fun _ =>
        (w.transport.tasks[1]?.map fun task => task.event, w.transport.state,
          decide (Transition.AllSteps step (fun w a => serves w a = true) w busyAtFirst))) =
      some (some 1, .noConnection, true) := by decide
  obtain ⟨w, hw, hboth⟩ := Option.bind_eq_some_iff.mp hboth
  obtain ⟨v, hv, hw'⟩ := Option.map_eq_some_iff.mp hboth
  obtain ⟨hevent, hstate, hserves⟩ : _ ∧ _ ∧ _ := by simpa only [Prod.mk.injEq] using hw'
  obtain ⟨task, htask, hone⟩ := Option.map_eq_some_iff.mp hevent
  have hsent := sent_within hw htask (by simp [hstate]) (of_decide_eq_true hserves) hv (by decide)
  exact ⟨w, v, hw, hv, hone ▸ hsent⟩

end Sentry.Transport
