import SentryCpp.Foundation.Loop
import SentryCpp.Transport.Answer

/-!
The second loop of `run`, which is to empty the queue after `stop`. It goes on
calling `perform`, and `perform` does nothing in the state `DROP_EVENTS`. So
the loop ends only if the worker is not in that state and does not enter it
before the queue is empty, which is `drains_iff`.

`clock i` are the readings of the `i`-th iteration, `server k` is the outcome
of the `k`-th POST that the transport makes.
-/

namespace Sentry.Transport

open StdString SimpleWeb RetryQueue

def drainTest (t : Transport) : Bool := !t.tasks.isEmpty

def drainBody (clock : Nat → Readings) (server : Nat → Outcome) (i : Nat) (t : Transport) :
    Except Thrown Transport :=
  t.perform (clock i) (server t.history.posts.length)

/-- The second loop of `run` comes to its end. -/
def Drains (clock : Nat → Readings) (server : Nat → Outcome) (t : Transport) : Prop :=
  Loop.Finishes drainTest (drainBody clock server) 0 t

/-- A transport with a client after `stop` has set the flag. -/
structure Stopped (t : Transport) : Prop where
  shouldStop : t.shouldStop = true
  hasClient : t.httpClient.isSome = true

/-- The next `n` POSTs return, and all but the last of them without a 429. -/
def Drainable (server : Nat → Outcome) (t : Transport) : Prop :=
  ∀ i < t.tasks.length,
    escapes (server (t.history.posts.length + i)) = false ∧
      (i + 1 < t.tasks.length → limited (server (t.history.posts.length + i)) = false)

theorem durationMilliseconds_ge {d : Int} {ms : Nat} (h : (ms : Int) * 1000000 ≤ d) :
    (ms : Int) ≤ durationMilliseconds d := by
  have hnonneg : 0 ≤ d := by omega
  rw [durationMilliseconds, Int.tdiv_eq_ediv_of_nonneg hnonneg]
  omega

/-- Without a connection the loop waits, and from the first iteration that
finds the deadline passed it sends. -/
theorem iterates_to_sendEvents {clock : Nat → Readings} {server : Nat → Outcome}
    (hclock : ∀ (deadline : Time) (i : Nat), ∃ j, i ≤ j ∧ deadline ≤ (clock j).now)
    {t : Transport} (hstate : t.state = .noConnection) (htasks : t.tasks ≠ []) (i : Nat) :
    ∃ n, Loop.Iterates drainTest (drainBody clock server) i t n
      { t with state := .sendEvents } := by
  have hcond : drainTest t = true := by simp [drainTest, htasks]
  obtain ⟨j, hij, hj⟩ := hclock
    (t.lastConnectionRequestTime + (reconnectionTimeoutMilliseconds : Int) * 1000000) i
  have hreached : t.reconnectTimeoutReached (clock j).now = true := by
    simp only [reconnectTimeoutReached, decide_eq_true_eq]
    apply durationMilliseconds_ge
    exact Int.le_sub_left_of_add_le hj
  obtain ⟨d, rfl⟩ := Nat.exists_eq_add_of_le hij
  clear hij hj
  induction d generalizing i with
  | zero =>
      refine ⟨1, .step hcond ?_ (.refl _ _)⟩
      simp only [Nat.add_zero] at hreached
      simp [drainBody, perform, hstate, performNoConnection, hreached, changeState]
  | succ d ih =>
      by_cases hnow : t.reconnectTimeoutReached (clock i).now = true
      · refine ⟨1, .step hcond ?_ (.refl _ _)⟩
        simp [drainBody, perform, hstate, performNoConnection, hnow, changeState]
      · obtain ⟨n, hn⟩ := ih (i + 1) (by rwa [Nat.add_assoc, Nat.add_comm 1 d])
        refine ⟨n + 1, .step hcond ?_ hn⟩
        simp [drainBody, perform, hstate, performNoConnection, hnow]

/-- After `stop` a POST leaves the queue as it is, whatever its outcome: no
retry comes back. -/
theorem sendPost_of_stopped {t : Transport} (hstopped : t.Stopped)
    (hstate : t.state = .sendEvents) (post : Post) (outcome : Outcome) (now : Time) :
    (escapes outcome = true ∧ ∃ e, t.sendPost post outcome now = .error e) ∨
    (escapes outcome = false ∧ ∃ u, t.sendPost post outcome now = .ok u ∧ u.Stopped ∧
      u.tasks = t.tasks ∧ u.history.posts.length = t.history.posts.length + 1 ∧
      (u.state = .dropEvents ↔ limited outcome = true)) := by
  obtain ⟨s, hs⟩ : ∃ s, s = (t.recordPost post).recordOutcome outcome := ⟨_, rfl⟩
  have hstop : s.Stopped := by
    subst s
    exact ⟨hstopped.shouldStop, hstopped.hasClient⟩
  have htasks : s.tasks = t.tasks := by subst s; rfl
  have hposts : s.history.posts.length = t.history.posts.length + 1 := by
    subst s
    simp [recordOutcome, recordPost]
  have hsend : s.state = .sendEvents := by subst s; exact hstate
  simp only [sendPost, ← hs]
  rcases exchange_cases s outcome with
    ⟨_, hlim, _, hesc, h⟩ | ⟨_, hlim, _, hesc, wait, h⟩ | ⟨_, hlim, _, hesc, h⟩ |
    ⟨_, hlim, _, hesc, h⟩ | ⟨_, _, hesc, thrown, _, hne, h⟩
  · exact Or.inr ⟨hesc, s, by simp [h], hstop, htasks, hposts, by simp [hsend, hlim]⟩
  · exact Or.inr ⟨hesc, { s with retryAfterMilliseconds := wait, state := .dropEvents },
      by simp [h], ⟨hstop.shouldStop, hstop.hasClient⟩, htasks, hposts, by simp [hlim]⟩
  · have hretry : s.sendEventRetry post.event post.content post.header = s := by
      simp [sendEventRetry, addActionToQueue, hstop.shouldStop]
    exact Or.inr ⟨hesc, s, by simp [h, hretry], hstop, htasks, hposts, by simp [hsend, hlim]⟩
  · exact Or.inr ⟨hesc, s.connectionLost now, by simp [h],
      ⟨hstop.shouldStop, hstop.hasClient⟩, htasks, hposts,
      by simp [connectionLost, changeState, hlim]⟩
  · exact Or.inl ⟨hesc, thrown, by simp [h, hne]⟩

/-- One iteration in the state `SEND_EVENTS` takes the task at the front and
makes its POST. -/
theorem drainBody_sendEvents {t : Transport} (hstopped : t.Stopped)
    (hstate : t.state = .sendEvents) {front : Task} {rest : List Task}
    (htasks : t.tasks = front :: rest) (clock : Nat → Readings) (server : Nat → Outcome)
    (i : Nat) :
    (escapes (server t.history.posts.length) = true ∧
      ∃ e, drainBody clock server i t = .error e) ∨
    (escapes (server t.history.posts.length) = false ∧
      ∃ u, drainBody clock server i t = .ok u ∧ u.Stopped ∧ u.tasks = rest ∧
        u.history.posts.length = t.history.posts.length + 1 ∧
        (u.state = .dropEvents ↔ limited (server t.history.posts.length) = true)) := by
  obtain ⟨client, hclient⟩ := Option.isSome_iff_exists.mp hstopped.hasClient
  have hbody : ∃ post, drainBody clock server i t =
      { t with tasks := rest }.sendPost post (server t.history.posts.length)
        (clock i).failed := by
    simp only [drainBody, perform, hstate, performSendEvents, htasks]
    cases front with
    | first event contents =>
        simp only [runTask, sendPostContent, hclient]
        exact ⟨_, rfl⟩
    | retry event contents header =>
        simp only [runTask]
        exact ⟨_, rfl⟩
  obtain ⟨post, hbody⟩ := hbody
  rw [hbody]
  exact sendPost_of_stopped (t := { t with tasks := rest })
    ⟨hstopped.shouldStop, hstopped.hasClient⟩ hstate post _ _

/-- Nothing happens in the state `DROP_EVENTS`. -/
theorem not_drains_in_dropEvents {clock : Nat → Readings} {server : Nat → Outcome}
    {t : Transport} (hstate : t.state = .dropEvents) (htasks : t.tasks ≠ []) (i : Nat) :
    ¬ Loop.Finishes drainTest (drainBody clock server) i t := by
  refine Loop.not_finishes_of_invariant
    (fun u : Transport => u.state = .dropEvents ∧ u.tasks ≠ []) ?_ ?_ ⟨hstate, htasks⟩
  · rintro u ⟨_, hne⟩
    simp [drainTest, hne]
  · rintro j u ⟨hdrop, hne⟩
    exact ⟨u, by simp [drainBody, perform, hdrop], hdrop, hne⟩

theorem drainable_cons {server : Nat → Outcome} {t u : Transport} {front : Task}
    {rest : List Task} (htasks : t.tasks = front :: rest) (hrest : u.tasks = rest)
    (hposts : u.history.posts.length = t.history.posts.length + 1) :
    Drainable server t ↔
      (escapes (server t.history.posts.length) = false ∧
        (rest ≠ [] → limited (server t.history.posts.length) = false)) ∧
      Drainable server u := by
  have hne : rest ≠ [] ↔ 0 + 1 < (front :: rest).length := by
    simp [List.length_pos_iff_ne_nil]
  simp only [Drainable, htasks, hrest, hposts, hne]
  constructor
  · intro h
    refine ⟨h 0 (by simp), ?_⟩
    intro i hi
    have hnext := h (i + 1) (by simpa using hi)
    rw [Nat.add_assoc, Nat.add_comm 1 i]
    refine ⟨hnext.1, ?_⟩
    intro hlt
    exact hnext.2 (by simpa using hlt)
  · rintro ⟨hzero, hsucc⟩ i hi
    cases i with
    | zero => exact hzero
    | succ i =>
        have hnext := hsucc i (by simpa using hi)
        rw [Nat.add_assoc, Nat.add_comm 1 i] at hnext
        refine ⟨hnext.1, ?_⟩
        intro hlt
        exact hnext.2 (by simpa using hlt)

/-- The statement of `drains_iff` from any iteration on. The induction is on
the length of the queue: each POST takes one task off it. -/
private theorem finishes_iff {clock : Nat → Readings} {server : Nat → Outcome}
    (hclock : ∀ (deadline : Time) (i : Nat), ∃ j, i ≤ j ∧ deadline ≤ (clock j).now)
    {t : Transport} (hstopped : t.Stopped) (i : Nat) :
    Loop.Finishes drainTest (drainBody clock server) i t ↔
      t.tasks = [] ∨ t.state ≠ .dropEvents ∧ Drainable server t := by
  obtain ⟨tasks, htasks⟩ : ∃ tasks, tasks = t.tasks := ⟨_, rfl⟩
  induction tasks generalizing t i with
  | nil => simp [← htasks, Loop.finishes_of_not_cond, drainTest]
  | cons front rest ih =>
      -- what the loop does from the state `SEND_EVENTS` on
      have hsend (s : Transport) (hs : s.Stopped) (hstate : s.state = .sendEvents)
          (hqueue : s.tasks = front :: rest) (k : Nat) :
          Loop.Finishes drainTest (drainBody clock server) k s ↔ Drainable server s := by
        have hcond : drainTest s = true := by simp [drainTest, hqueue]
        rcases drainBody_sendEvents hs hstate hqueue clock server k with
          ⟨hesc, e, hbody⟩ | ⟨hesc, u, hbody, hu, hrest, hposts, hdrop⟩
        · apply iff_of_false (Loop.not_finishes_of_body_error hcond hbody)
          intro h
          have hzero := (h 0 (by simp [hqueue])).1
          simp [hesc] at hzero
        · have hempty : u.tasks = [] → Drainable server u := by
            intro hnil
            simp [Drainable, hnil]
          rw [Loop.finishes_iff_of_body_ok hcond hbody, ih hu (k + 1) hrest.symm,
            drainable_cons hqueue hrest hposts, hesc, ← hrest, Ne, hdrop]
          by_cases hnil : u.tasks = []
          · simp [hnil, hempty hnil]
          · simp [hnil]
      rw [← htasks]
      simp only [reduceCtorEq, false_or]
      cases hstate : t.state with
      | noConnection =>
          obtain ⟨n, hn⟩ : ∃ n, Loop.Iterates drainTest (drainBody clock server) i t n
              { t with state := .sendEvents } :=
            iterates_to_sendEvents hclock hstate (by simp [← htasks]) i
          rw [Loop.finishes_iff_of_iterates hn, hsend { t with state := .sendEvents }
            ⟨hstopped.shouldStop, hstopped.hasClient⟩ rfl htasks.symm]
          simp [Drainable]
      | sendEvents => simp [hsend t hstopped hstate htasks.symm]
      | dropEvents =>
          simp [not_drains_in_dropEvents hstate (by simp [← htasks]) i]

/-- The loop ends exactly when the queue is empty from the start, or the
worker is not in `DROP_EVENTS` and no POST but the last is answered by a 429
and none throws past the handler. -/
theorem drains_iff {clock : Nat → Readings} {server : Nat → Outcome}
    (hclock : ∀ (deadline : Time) (i : Nat), ∃ j, i ≤ j ∧ deadline ≤ (clock j).now)
    {t : Transport} (hstopped : t.Stopped) :
    Drains clock server t ↔ t.tasks = [] ∨ t.state ≠ .dropEvents ∧ Drainable server t :=
  finishes_iff hclock hstopped 0

/-- The transport after `stop`, with one event still in the queue. -/
def stoppedWith (state : State) : Transport :=
  { new 0 with
    tasks := [.first 0 (lit "{}")]
    shouldStop := true
    httpClient := some ⟨lit "localhost", 80⟩
    state := state }

/-- A clock that shows one nanosecond more at each iteration. -/
def ticking (i : Nat) : Readings := ⟨i, i⟩

private theorem ticking_reaches (deadline : Time) (i : Nat) :
    ∃ j, i ≤ j ∧ deadline ≤ (ticking j).now := by
  refine ⟨max i deadline.toNat, le_max_left _ _, ?_⟩
  exact (Int.self_le_toNat deadline).trans (Int.ofNat_le.mpr (le_max_right _ _))

/-- Without a connection and with a server that is not there, the one event is
attempted and the queue is empty. -/
theorem drains_stoppedWith_noConnection :
    Drains ticking (fun _ => .errorCode) (stoppedWith .noConnection) :=
  (drains_iff ticking_reaches ⟨rfl, rfl⟩).mpr (by
    refine Or.inr ⟨by decide, ?_⟩
    intro i hi
    have hzero : i = 0 := by simpa [stoppedWith] using hi
    subst i
    decide)

/-- In the state `DROP_EVENTS` the same queue is never emptied. -/
theorem not_drains_stoppedWith_dropEvents :
    ¬ ∀ (clock : Nat → Readings) (server : Nat → Outcome) (t : Transport),
      (∀ (deadline : Time) (i : Nat), ∃ j, i ≤ j ∧ deadline ≤ (clock j).now) →
      (∀ k thrown, request (server k) = .error thrown → thrown = .systemError) →
      t.Stopped → Drains clock server t := by
  intro h
  have hdrains := h ticking (fun _ => .errorCode) (stoppedWith .dropEvents) ticking_reaches
    (by simp [request, eq_comm]) ⟨rfl, rfl⟩
  exact not_drains_in_dropEvents rfl (by simp [stoppedWith]) 0 hdrains

end Sentry.Transport
