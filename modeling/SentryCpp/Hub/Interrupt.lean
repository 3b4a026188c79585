import SentryCpp.Hub.Atomicity
import SentryCpp.Hub.LifeCycle
import SentryCpp.Hub.Traces

/-!
A signal on the thread that is in the middle of an operation.
`signalsHandler` records a breadcrumb, may push its event, and waits for the
worker in `stop`. So it is safe if and only if its report throws, or the
thread is not the worker and holds neither the mutex of the scope nor, while
the transport runs, that of the queue. The mutex of the limiter does no harm,
since the event of the handler has no message.
-/

namespace Sentry.Interrupt

open StdString SimpleWeb Locks LifeCycle

variable (p : Platform)

/-- What a thread can be doing when the signal comes: a call of a program, or
`perform` on the worker. The hub and the transport are as the call finds
them. -/
inductive Operation where
  | request (h : Hub) (r : Api.Request)
  | perform (t : Transport) (clock : Transport.Readings) (outcome : Outcome)

namespace Operation

def trace : Operation → Trace
  | .request h r => requestTrace p h r
  | .perform t clock outcome => performTrace t clock outcome

def runner : Operation → Runner
  | .request .. => .application
  | .perform .. => .worker

end Operation

/-- The worker may ask for the mutex. -/
def NeededByWorker (m : Mutex) : Prop :=
  ∃ t clock outcome, Instr.lock m ∈ performTrace t clock outcome

/-- `std::thread` does not let the worker wait for itself. A thread that has
been joined is not waited for. -/
def CanWait (runner : Runner) (h : Hub) (held : List Mutex) : Prop :=
  runner = .application ∧ (h.stopped = some true ∨ ∀ m ∈ held, ¬ NeededByWorker m)

theorem lock_of_addActionToQueueTrace {t : Transport} {m : Mutex}
    (hm : Instr.lock m ∈ addActionToQueueTrace t) : m = .tasksQueue := by
  unfold addActionToQueueTrace at hm
  split at hm
  · simpa using hm
  · cases hm

theorem lock_of_exchangeTrace {t : Transport} {outcome : Outcome} {m : Mutex}
    (hm : Instr.lock m ∈ exchangeTrace t outcome) : m = .state := by
  unfold exchangeTrace checkResponseTrace changeStateTrace at hm
  split at hm
  · simp at hm
  · split at hm
    · simp at hm
    · split at hm
      · simpa using hm
      · simp at hm

theorem lock_of_sendPostTrace {t : Transport} {post : Transport.Post} {outcome : Outcome}
    {m : Mutex} (hm : Instr.lock m ∈ sendPostTrace t post outcome) :
    m = .tasksQueue ∨ m = .state := by
  rcases List.mem_append.mp hm with hexchange | hrest
  · exact Or.inr (lock_of_exchangeTrace hexchange)
  · split at hrest
    · split at hrest
      · exact Or.inl (lock_of_addActionToQueueTrace hrest)
      · cases hrest
    · split at hrest
      · exact Or.inr (by simpa [changeStateTrace] using hrest)
      · cases hrest

/-- The worker takes no lock of the hub. -/
theorem lock_of_performTrace {t : Transport} {clock : Transport.Readings} {outcome : Outcome}
    {m : Mutex} (hm : Instr.lock m ∈ performTrace t clock outcome) :
    m = .tasksQueue ∨ m = .state := by
  simp only [performTrace, List.mem_append, List.mem_singleton, reduceCtorEq, false_or] at hm
  split at hm
  · split at hm
    · exact Or.inr (by simpa [changeStateTrace] using hm)
    · cases hm
  · unfold performSendEventsTrace at hm
    split at hm
    · cases hm
    · rcases List.mem_append.mp hm with htake | hrun
      · exact Or.inl (by simpa using htake)
      · unfold runTaskTrace at hrun
        split at hrun
        · split at hrun
          · cases hrun
          · exact lock_of_sendPostTrace hrun
        · exact lock_of_sendPostTrace hrun
  · cases hm

theorem neededByWorker_tasksQueue : NeededByWorker .tasksQueue :=
  ⟨{ Transport.new 0 with state := .sendEvents, tasks := [.first 0 []] }, ⟨0, 0⟩, .errorCode,
    by decide⟩

theorem lock_of_sendSampledTrace {h : Hub} {now : Nat} {m : Mutex}
    (hm : Instr.lock m ∈ sendSampledTrace p h now) : m = .tasksQueue := by
  unfold sendSampledTrace at hm
  split at hm
  · cases hclient : h.httpClient with
    | none => simp [hclient] at hm
    | some t =>
        rw [hclient, Option.elim_some] at hm
        exact lock_of_addActionToQueueTrace hm
  · cases hm

theorem lock_of_captureEventTrace {h : Hub} {c : Call} {m : Mutex}
    (hm : Instr.lock m ∈ captureEventTrace p h c) : m ≠ .state := by
  have hlimit : Instr.lock m ∈ limitTrace c.event → m = .lastEventsList := by
    unfold limitTrace checkIfEventTooOftenTrace
    split <;> simp
  have hcrumb : Instr.lock m ∈ addBreadcrumbTrace → m = .scope := by
    simp [addBreadcrumbTrace]
  have hne : m = .lastEventsList ∨ m = .tasksQueue ∨ m = .scope → m ≠ .state := by
    rintro (rfl | rfl | rfl) <;> simp
  simp only [captureEventTrace, List.mem_append, List.mem_singleton, reduceCtorEq, false_or] at hm
  apply hne
  rcases hm with hbefore | hbehind
  · exact Or.inl (hlimit hbefore)
  · refine Or.inr ?_
    split at hbehind
    · cases hbehind
    · cases hbehind
    · simp only [List.mem_append, List.mem_singleton, reduceCtorEq, false_or] at hbehind
      split at hbehind
      · cases hbehind
      · exact (List.mem_append.mp hbehind).imp (lock_of_sendSampledTrace p) hcrumb

/-- No call of a program takes the lock of the state. -/
theorem lock_of_requestTrace {h : Hub} {r : Api.Request} {m : Mutex}
    (hm : Instr.lock m ∈ requestTrace p h r) : m ≠ .state := by
  have hscope : Instr.lock m ∈ [.work] ++ withLock Mutex.scope [.work] → m ≠ .state := by
    intro hlock
    simp at hlock
    simp [hlock]
  unfold requestTrace at hm
  split at hm
  · simp at hm
  · cases r with
    | setTag key value | setExtra key value => exact hscope hm
    | addBreadcrumb crumb now => exact hscope ((List.mem_cons.mp hm).resolve_left (by simp))
    | captureEvent call =>
        exact lock_of_captureEventTrace p ((List.mem_cons.mp hm).resolve_left (by simp))
    | log level message uuid clock =>
        have hm := (List.mem_cons.mp hm).resolve_left (by simp)
        simp only at hm
        split at hm
        · exact lock_of_captureEventTrace p hm
        · exact hscope hm

/-- The event of the handler is not seen by the limiter. -/
theorem find_message_signalEvent (sigName : Bytes) (frames : Json) :
    (signalEvent sigName frames).find (lit "message") = none := by
  simp only [signalEvent, exceptionInterface, Json.find, Json.lookup_insertOrAssign,
    Json.lookup_cons, Json.lookup_nil]
  rw [if_neg (by decide), if_neg (by decide)]

theorem captureEventTrace_of_no_message {h : Hub} {c : Call}
    (hmessage : c.event.find (lit "message") = none) :
    captureEventTrace p h c = [.work] ++ ([.work] ++
      if h.returns p c then sendSampledTrace p h c.clock.seed ++ addBreadcrumbTrace else []) := by
  have hreturns : h.returns p c = (h.contents c).isOk := by
    simp [Hub.returns, contents_isOk, messageOk, tooOften, hmessage]
  have hpassed : (messageOk c.event && !tooOften p h.lastUniqueEvents c) = true := by
    simp [messageOk, tooOften, hmessage]
  rw [captureEventTrace_eq, hpassed, hreturns, limitTrace, hmessage]
  rfl

theorem balanced_addActionToQueueTrace (t : Transport) : Balanced (addActionToQueueTrace t) := by
  unfold addActionToQueueTrace
  split
  · exact balanced_work.withLock _
  · exact balanced_nil

theorem balanced_sendSampledTrace (h : Hub) (now : Nat) : Balanced (sendSampledTrace p h now) := by
  unfold sendSampledTrace
  split
  · cases h.httpClient with
    | none => exact balanced_nil
    | some t => exact balanced_addActionToQueueTrace t
  · exact balanced_nil

/-- The event is pushed under the lock of the queue, and not at all when the
transport has been stopped. -/
theorem safe_sendSampledTrace {h : Hub} {held : List Mutex} (canWait : List Mutex → Prop)
    (hfree : h.stopped = some true ∨ .tasksQueue ∉ held) (now : Nat) :
    Safe canWait held (sendSampledTrace p h now) := by
  unfold sendSampledTrace
  split
  · cases hclient : h.httpClient with
    | none => trivial
    | some t =>
        rw [Option.elim_some, addActionToQueueTrace]
        split
        · rename_i hrunning
          rw [safe_withLock_work]
          apply hfree.resolve_left
          simpa [Hub.stopped, hclient] using hrunning
        · trivial
  · trivial

theorem closeHttpConnectionTrace_eq {h : Hub} (hclient : h.stopped.isSome = true) :
    closeHttpConnectionTrace h = [.work, .wait] := by
  obtain ⟨t, ht⟩ := Option.isSome_iff_exists.mp ((isSome_stopped h).symm.trans hclient)
  rw [closeHttpConnectionTrace, ht, Option.elim_some]

/-- The locks of a handler whose report returns, in their order: that of the
queue for the event, that of the scope for the breadcrumb, and then the
worker is waited for. -/
theorem safe_signalsHandlerTrace_iff {h : Hub} (hclient : h.stopped.isSome = true)
    (sig : Signal) (c : Circumstances) (canWait : List Mutex → Prop) (held : List Mutex) :
    Safe canWait held (signalsHandlerTrace p h sig c) ↔
      h.signalReports p sig c = false ∨
        (Safe canWait held (sendSampledTrace p h c.clock.seed) ∧ .scope ∉ held ∧
          canWait held) := by
  have hreport : (h.signalReport p sig c).1 = h.signalReports p sig c := report_fst p h _ c
  have hclose : closeHttpConnectionTrace (h.signalReport p sig c).2 = [.work, .wait] := by
    apply closeHttpConnectionTrace_eq
    rw [Hub.signalReport, stopped_report, hclient]
  unfold signalsHandlerTrace
  rw [hreport, hclose, balanced_work.safe_append_iff]
  cases hframes : c.frames with
  | none => simp [Safe, Hub.signalReports, Hub.reports, hframes]
  | some frames =>
      have hreturns : h.signalReports p sig c =
          h.returns p ⟨signalEvent sig.name frames, c.uuid, c.clock⟩ := by
        rw [Hub.signalReports, Hub.reports, hframes, Option.any_some]
      simp only
      rw [captureEventTrace_of_no_message p (find_message_signalEvent _ _), hreturns]
      cases h.returns p ⟨signalEvent sig.name frames, c.uuid, c.clock⟩ with
      | false => simp [Safe]
      | true =>
          have hsampled := balanced_sendSampledTrace p h c.clock.seed
          have hcrumb : Balanced addBreadcrumbTrace :=
            balanced_work.append (balanced_work.withLock _)
          have hcapture := balanced_work.append (balanced_work.append (hsampled.append hcrumb))
          simp only [if_true]
          rw [hcapture.safe_append_iff, balanced_work.safe_append_iff,
            balanced_work.safe_append_iff, hsampled.safe_append_iff, addBreadcrumbTrace,
            balanced_work.safe_append_iff, safe_withLock_work]
          simp [Safe, and_assoc]

/-- The handler is safe on the thread it interrupts, at a point of an
operation, if and only if its report throws, or the thread is not the worker,
does not hold the mutex of the scope, and holds that of the queue only if the
transport has been stopped. -/
theorem signalsHandler_safe_iff {op : Operation} {before after : Trace}
    (hpoint : op.trace p = before ++ after) {h : Hub} (hclient : h.httpClient.isSome = true)
    (sig : Signal) (c : Circumstances) :
    Safe (CanWait op.runner h) (heldAfter [] before) (signalsHandlerTrace p h sig c) ↔
      h.signalReports p sig c = false ∨
        (op.runner = .application ∧ .scope ∉ heldAfter [] before ∧
          (h.stopped = some true ∨ .tasksQueue ∉ heldAfter [] before)) := by
  have hstopped : h.stopped.isSome = true := by rw [isSome_stopped, hclient]
  rw [safe_signalsHandlerTrace_iff p hstopped]
  apply or_congr_right
  constructor
  · rintro ⟨-, hscope, hrunner, hfree⟩
    refine ⟨hrunner, hscope, hfree.imp_right ?_⟩
    intro hneeds hheld
    exact hneeds .tasksQueue hheld neededByWorker_tasksQueue
  · rintro ⟨hrunner, hscope, hfree⟩
    refine ⟨safe_sendSampledTrace p _ hfree c.clock.seed, hscope, hrunner, hfree.imp_right ?_⟩
    rintro hqueue m hheld ⟨t, clock, outcome, hneeds⟩
    rcases lock_of_performTrace hneeds with rfl | rfl
    · exact hqueue hheld
    · have hlock : Instr.lock Mutex.state ∈ op.trace p := by
        rw [hpoint]
        exact List.mem_append_left _ ((lock_mem_of_mem_heldAfter hheld).resolve_left (by simp))
      cases op with
      | request h' r => exact lock_of_requestTrace p hlock rfl
      | perform t' clock' outcome' => cases hrunner

/-- A call that sets a tag. -/
def taggingCall : Operation := .request freshHub (.setTag (lit "k") (lit "v"))

theorem signalsHandler_safe_beforeLock :
    Safe (CanWait .application freshHub) (heldAfter [] [.work])
      (signalsHandlerTrace (platformOf []) freshHub .segv noFrames) :=
  (signalsHandler_safe_iff (platformOf [])
    (show taggingCall.trace (platformOf []) = [.work] ++ setTagTrace by decide)
    rfl .segv noFrames).mpr (Or.inr ⟨rfl, by decide, Or.inr (by decide)⟩)

/-- A signal while `setTag` holds the mutex of the scope: the handler locks it
again for its breadcrumb. -/
theorem signalsHandler_deadlocks_in_setTag :
    ¬ ∀ (p : Platform) (op : Operation) (before after : Trace) (h : Hub) (sig : Signal)
      (c : Circumstances), op.trace p = before ++ after → h.httpClient.isSome = true →
      Safe (CanWait op.runner h) (heldAfter [] before) (signalsHandlerTrace p h sig c) := by
  intro hall
  have hsafe := hall (platformOf []) taggingCall [.work, .lock .scope] [.work, .unlock .scope]
    freshHub .segv noFrames (by decide) rfl
  rw [safe_signalsHandlerTrace_iff (platformOf []) rfl] at hsafe
  rcases hsafe with hthrows | ⟨-, hscope, -⟩
  · exact absurd hthrows (by decide)
  · exact absurd hscope (by decide)

end Sentry.Interrupt
