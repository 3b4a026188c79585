import SentryCpp.Transport.Worker

/-!
What becomes of the events over whole runs. `view` shows a world as the box of
a retry queue, and with a client each step of the world is a step of that queue
or does not move the box. The order and the multiplicity of the POSTs, and the
conservation of the events, are then results about retry queues.

Without a client the worker throws the closures away and makes no POST.
-/

namespace Sentry.Transport

open StdString SimpleWeb RetryQueue

/-- What the worker holds at the point where it stands. -/
def Pc.hand : Pc → Hand Bytes Header
  | .execute _ task => .taken task
  | .awaiting _ post => .inFlight post
  | .retryTest _ post | .retryPush _ post => .returning post
  | .loopTest _ | .dispatch _ | .lockQueue _ | .returned | .aborted | .terminated => .empty

def World.view (w : World) : Box Bytes Header Outcome where
  pushed := w.transport.history.pushed
  queue := w.transport.tasks
  hand := w.worker.hand
  attempts := w.transport.history.posts
  answers := w.transport.history.outcomes

theorem view_start (uninitialised : UInt64) (dsn : SentryDSN) (client : Option Client) :
    (World.start uninitialised dsn client).view = Box.initial := rfl

theorem hand_view {w : World} {pc : Pc} (hworker : w.worker = pc) : w.view.hand = pc.hand :=
  congrArg Pc.hand hworker

/-- A step with a client is a step of the retry queue, or it does not concern
the queue. -/
theorem view_step {w v : World} {a : Action} (hclient : w.transport.httpClient.isSome = true)
    (hstep : step w a = some v) :
    v.view = w.view ∨
      RetryQueue.Step verdict (w.transport.shouldStop = true) w.view v.view := by
  cases move_of_step hstep with
  | refused | call | stop => exact Or.inl rfl
  | push caller contents hcaller => exact Or.inr (.push contents)
  | test now phase pc hworker hpc =>
      refine Or.inl ?_
      obtain ⟨phase', rfl | rfl⟩ := hpc <;> simp [World.view, hworker, Pc.hand]
  | finish now hworker => exact Or.inl (by simp [World.view, hworker, Pc.hand])
  | wait now phase hworker hstate =>
      refine Or.inl ?_
      simp only [World.view, hworker, Pc.hand, performNoConnection]
      split <;> rfl
  | idle now phase hworker | enter now phase hworker hstate htasks
  | abort now phase hworker htasks => exact Or.inl (by simp [World.view, hworker, Pc.hand])
  | take now phase front rest hworker htasks =>
      exact Or.inr (.take front rest (hand_view hworker) htasks)
  | discard now phase task hworker hpost =>
      obtain ⟨client, hsome⟩ := Option.isSome_iff_exists.mp hclient
      cases task <;> simp [postOf, hsome] at hpost
  | post now phase task post hworker hpost =>
      obtain ⟨client, hsome⟩ := Option.isSome_iff_exists.mp hclient
      cases task with
      | first event contents =>
          obtain rfl : ⟨event, false, contents, w.transport.createHeader now⟩ = post := by
            simpa [postOf, hsome] using hpost
          exact Or.inr (.attempt event contents _ (hand_view hworker))
      | retry event contents header =>
          obtain rfl : ⟨event, true, contents, header⟩ = post := by
            simpa [postOf] using hpost
          exact Or.inr (.attemptAgain event contents header
            (hand_view hworker))
  | retry now phase post hworker hstop =>
      exact Or.inl (by simp [World.view, hworker, Pc.hand])
  | giveUp now phase post hworker hstop =>
      exact Or.inr (.giveUp post (hand_view hworker) hstop)
  | requeue now phase post hworker =>
      exact Or.inr (.requeue post (hand_view hworker))
  | settle outcome now phase post hworker hacc hlim hfail hesc =>
      have hverdict : verdict outcome ≠ .rejected := by
        simp [verdict_eq_rejected_iff, rejected, hacc]
      exact Or.inr (.close post outcome (hand_view hworker)
        (Or.inl hverdict))
  | limit outcome now phase post retryAfter hworker hacc hlim hfail hesc =>
      have hverdict : verdict outcome ≠ .rejected := by
        simp [verdict_eq_rejected_iff, rejected, hlim]
      exact Or.inr (.close post outcome (hand_view hworker)
        (Or.inl hverdict))
  | reject outcome now phase post hworker hacc hlim hfail hesc =>
      have hverdict : verdict outcome = .rejected := by
        simp [verdict_eq_rejected_iff, rejected, hacc, hlim, hfail]
      cases hretrying : post.isRetrying with
      | true =>
          exact Or.inr (.close post outcome (hand_view hworker)
            (Or.inr hretrying))
      | false =>
          exact Or.inr (.reject post outcome (hand_view hworker)
            hverdict hretrying)
  | disconnect outcome now phase post hworker hacc hlim hfail hesc =>
      have hverdict : verdict outcome ≠ .rejected := by
        simp [verdict_eq_rejected_iff, rejected, hfail]
      exact Or.inr (.close post outcome (hand_view hworker)
        (Or.inl hverdict))
  | terminate outcome now phase post retryAfter hworker hacc hrej hesc =>
      have hverdict : verdict outcome ≠ .rejected := by
        simp [verdict_eq_rejected_iff, hrej]
      exact Or.inr (.close post outcome (hand_view hworker)
        (Or.inl hverdict))

theorem httpClient_step {w v : World} {a : Action} (hstep : step w a = some v) :
    v.transport.httpClient = w.transport.httpClient := by
  cases move_of_step hstep with
  | wait =>
      simp only [performNoConnection]
      split <;> rfl
  | _ => rfl

/-- The queue was seen non-empty in front of the lock, and the worker is the
only one to pop. -/
structure Guarded (w : World) : Prop where
  nonempty : ∀ phase, w.worker = .lockQueue phase → w.transport.tasks ≠ []
  alive : w.worker ≠ .aborted

theorem Guarded.step {w v : World} {a : Action} (h : Guarded w)
    (hstep : Transport.step w a = some v) : Guarded v := by
  obtain ⟨hnonempty, halive⟩ := h
  cases move_of_step hstep with
  | refused | call | stop => exact ⟨hnonempty, halive⟩
  | push caller contents hcaller => exact ⟨fun _ _ => by simp [Transport.push], halive⟩
  | test now phase pc hworker hpc =>
      obtain ⟨phase', rfl | rfl⟩ := hpc <;> exact ⟨by simp, by simp⟩
  | enter now phase hworker hstate htasks => exact ⟨fun _ _ => htasks, by simp⟩
  | abort now phase hworker htasks => exact (hnonempty phase hworker htasks).elim
  | reject outcome now phase post => constructor <;> (cases post.isRetrying <;> simp)
  | _ => exact ⟨by simp, by simp⟩

/-- Without a client there are no POSTs, and no retries in the queue. -/
structure Unconnected (w : World) : Prop where
  client : w.transport.httpClient = none
  posts : w.transport.history.posts = []
  tasks : ∀ task ∈ w.transport.tasks, ∃ event contents, task = .first event contents
  hand : w.worker.hand = .empty ∨ ∃ event contents, w.worker.hand = .taken (.first event contents)

theorem Unconnected.step {w v : World} {a : Action} (h : Unconnected w)
    (hstep : Transport.step w a = some v) : Unconnected v := by
  obtain ⟨hclient, hposts, htasks, hhand⟩ := h
  cases move_of_step hstep with
  | refused | call | stop => exact ⟨hclient, hposts, htasks, hhand⟩
  | push caller contents hcaller =>
      refine ⟨hclient, hposts, ?_, hhand⟩
      intro task htask
      rcases List.mem_append.mp htask with hold | hnew
      · exact htasks task hold
      · exact ⟨_, _, List.mem_singleton.mp hnew⟩
  | test now phase pc hworker hpc =>
      obtain ⟨phase', rfl | rfl⟩ := hpc <;> exact ⟨hclient, hposts, htasks, Or.inl rfl⟩
  | wait now phase hworker hstate =>
      refine ⟨?_, ?_, ?_, Or.inl rfl⟩ <;> simp only [performNoConnection] <;> split <;> assumption
  | take now phase front rest hworker hqueue =>
      obtain ⟨event, contents, rfl⟩ := htasks front (by simp [hqueue])
      refine ⟨hclient, hposts, ?_, Or.inr ⟨event, contents, rfl⟩⟩
      intro task htask
      exact htasks task (by simp [hqueue, htask])
  | post now phase task post hworker hpost =>
      simp only [hworker, Pc.hand, reduceCtorEq, Hand.taken.injEq, false_or] at hhand
      obtain ⟨event, contents, rfl⟩ := hhand
      simp [postOf, hclient] at hpost
  | retry now phase post hworker | giveUp now phase post hworker
  | requeue now phase post hworker => simp [hworker, Pc.hand] at hhand
  | settle outcome now phase post hworker | limit outcome now phase post retryAfter hworker
  | reject outcome now phase post hworker | disconnect outcome now phase post hworker
  | terminate outcome now phase post retryAfter hworker => simp [hworker, Pc.hand] at hhand
  | _ => exact ⟨hclient, hposts, htasks, Or.inl rfl⟩

/-- The POSTs of a history, as a server sees them. The numbers of the first
attempts are those of the pushes, and a retry repeats a first attempt that was
rejected before. -/
structure InOrder (h : History) : Prop where
  contents : (firstAttempts h.posts).map (fun post => post.content) <+: h.pushed
  numbered : (firstAttempts h.posts).map (fun post => (post.content, post.event)) <+:
    h.pushed.zipIdx
  retriedOnce : ∀ event,
    (h.posts.filter fun post => post.isRetrying && post.event = event).length ≤ 1
  retryCaused : ∀ (j : Nat) (post : Post), h.posts[j]? = some post → post.isRetrying = true →
    ∃ i outcome, i < j ∧ h.posts[i]? = some { post with isRetrying := false } ∧
      h.outcomes[i]? = some outcome ∧ rejected outcome = true

theorem inOrder_of_inv {w : World} (h : Inv verdict w.view) : InOrder w.transport.history where
  contents := h.firsts_prefix
  numbered := ⟨_, h.numbered.symm⟩
  retriedOnce := h.retried_once
  retryCaused := fun j post hpost hretrying => by
    obtain ⟨i, outcome, hij, hfirst, houtcome, hverdict⟩ := h.caused j post hpost hretrying
    exact ⟨i, outcome, hij, hfirst, houtcome, (verdict_eq_rejected_iff outcome).mp hverdict⟩

theorem inOrder_of_no_posts {h : History} (hposts : h.posts = []) : InOrder h where
  contents := by simp [hposts, firstAttempts]
  numbered := by simp [hposts, firstAttempts]
  retriedOnce := by simp [hposts]
  retryCaused := by simp [hposts]

/-- The invariant of the runs with a client. -/
structure Connected (w : World) : Prop where
  hasClient : w.transport.httpClient.isSome = true
  inv : Inv verdict w.view

theorem Connected.step {w v : World} {a : Action} (h : Connected w)
    (hstep : Transport.step w a = some v) : Connected v := by
  refine ⟨httpClient_step hstep ▸ h.hasClient, ?_⟩
  rcases view_step h.hasClient hstep with heq | hqueue
  · exact heq ▸ h.inv
  · exact h.inv.step hqueue

theorem connected_start (uninitialised : UInt64) (dsn : SentryDSN) (client : Client) :
    Connected (World.start uninitialised dsn (some client)) :=
  ⟨rfl, view_start uninitialised dsn (some client) ▸ inv_initial verdict⟩

theorem guarded_start (uninitialised : UInt64) (dsn : SentryDSN) (client : Option Client) :
    Guarded (World.start uninitialised dsn client) :=
  ⟨by simp [World.start], by simp [World.start]⟩

theorem unconnected_start (uninitialised : UInt64) (dsn : SentryDSN) :
    Unconnected (World.start uninitialised dsn none) :=
  ⟨rfl, rfl, by simp [World.start, new], Or.inl rfl⟩

/-- Whatever the threads and the server do, the POSTs are in order and the
assertion in front of the pop holds. -/
theorem posts_inOrder {uninitialised : UInt64} {dsn : SentryDSN} {client : Option Client}
    {schedule : List Action} {w : World}
    (hrun : Transition.run step (World.start uninitialised dsn client) schedule = some w) :
    InOrder w.transport.history ∧ w.worker ≠ .aborted := by
  refine ⟨?_, ?_⟩
  · cases client with
    | none =>
        have hnone : Unconnected w := Transition.run_invariant
          (fun _ _ _ h hstep => h.step hstep) (unconnected_start uninitialised dsn) hrun
        exact inOrder_of_no_posts hnone.posts
    | some client =>
        have hconnected : Connected w := Transition.run_invariant
          (fun _ _ _ h hstep => h.step hstep) (connected_start uninitialised dsn client) hrun
        exact inOrder_of_inv hconnected.inv
  · have hguarded : Guarded w := Transition.run_invariant
      (fun _ _ _ h hstep => h.step hstep) (guarded_start uninitialised dsn client) hrun
    exact hguarded.alive

/-- A transport connected to a local server. -/
def localWorld : World :=
  World.start 0 ⟨lit "http", lit "key", [], lit "localhost", lit "1", [], [], []⟩
    (some ⟨lit "localhost", 80⟩)

def answerWith (line : String) : Outcome := .response ⟨lit "1.1", lit line, []⟩

/-- Two events, pushed in the order in which their callers get the lock. The
first is rejected and comes back behind the second. -/
def rejectedOnce : List Action :=
  [.call (lit "a"), .call (lit "b"), .push 1, .push 0,
    .work 0, .work 10000000000, .work 0, .work 0, .work 0, .work 0,
    .answer (answerWith "500 Internal Server Error") 0, .work 0, .work 0,
    .work 0, .work 0, .work 0, .work 0, .answer (answerWith "200 OK") 0,
    .work 0, .work 0, .work 0, .work 0]

/-- After `rejectedOnce` three POSTs were made, the last one as a retry. -/
theorem posts_inOrder_rejectedOnce :
    ∃ w, Transition.run step localWorld rejectedOnce = some w ∧
      w.transport.history.posts.map (fun post => (post.isRetrying, post.content)) =
        [(false, lit "b"), (false, lit "a"), (true, lit "b")] ∧
      InOrder w.transport.history ∧ w.worker ≠ .aborted := by
  have hposts : (Transition.run step localWorld rejectedOnce).map
      (fun w => w.transport.history.posts.map fun post => (post.isRetrying, post.content)) =
      some [(false, lit "b"), (false, lit "a"), (true, lit "b")] := by decide
  obtain ⟨w, hrun, hposts⟩ := Option.map_eq_some_iff.mp hposts
  exact ⟨w, hrun, hposts, posts_inOrder hrun⟩

end Sentry.Transport
