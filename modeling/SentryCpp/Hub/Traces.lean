import SentryCpp.Foundation.Locks
import SentryCpp.Hub.Handlers
import SentryCpp.Transport.Answer

/-!
The mutexes that the functions take. The trace of a function follows its
definition: it makes the same tests, and has the locks that the function takes
in between. What a call changes of the scope, of the table of the last events
and of the queue it changes under the lock for it (`guarded_serve`), and so
does the worker with the queue and the state (`guarded_perform`). The id of
the last event has no lock.
-/

namespace Sentry.Interrupt

open StdString SimpleWeb Locks

inductive Mutex where
  | scope
  | lastEventsList
  | tasksQueue
  | state
  deriving DecidableEq, Repr

abbrev Trace := Locks.Trace Mutex

section Transport

def changeStateTrace : Trace := withLock .state [.work]

def addActionToQueueTrace (t : Transport) : Trace :=
  if !t.shouldStop then withLock .tasksQueue [.work] else []

/-- The fields of the answer are read before the state changes. -/
def checkResponseTrace (t : Transport) (response : Response) : Trace :=
  match (t.checkResponse response).1 with
  | .error _ => []
  | .ok _ =>
      if SimpleWeb.statusCode response.statusCode = .clientErrorTooManyRequests then
        changeStateTrace
      else []

/-- The `try` block of `sendPost`. -/
def exchangeTrace (t : Transport) (outcome : Outcome) : Trace :=
  match request outcome with
  | .error _ => [.work]
  | .ok response => [.work] ++ checkResponseTrace t response

def sendPostTrace (t : Transport) (post : Transport.Post) (outcome : Outcome) : Trace :=
  exchangeTrace t outcome ++
    match t.exchange outcome with
    | (.ok ok, t) => if !ok && !post.isRetrying then addActionToQueueTrace t else []
    | (.error thrown, _) => if thrown = .systemError then changeStateTrace ++ [.work] else []

def runTaskTrace (t : Transport) (task : Transport.Task) (clock : Transport.Readings)
    (outcome : Outcome) : Trace :=
  match task with
  | .first event contents =>
      match t.httpClient with
      | none => []
      | some _ => sendPostTrace t ⟨event, false, contents, t.createHeader clock.now⟩ outcome
  | .retry event contents header => sendPostTrace t ⟨event, true, contents, header⟩ outcome

def performSendEventsTrace (t : Transport) (clock : Transport.Readings) (outcome : Outcome) :
    Trace :=
  match t.tasks with
  | [] => []
  | front :: rest =>
      withLock .tasksQueue [.work] ++ runTaskTrace { t with tasks := rest } front clock outcome

def performTrace (t : Transport) (clock : Transport.Readings) (outcome : Outcome) : Trace :=
  [.work] ++
    match t.state with
    | .noConnection => if t.reconnectTimeoutReached clock.now then changeStateTrace else []
    | .sendEvents => performSendEventsTrace t clock outcome
    | .dropEvents => []

end Transport

variable (p : Platform)

section Hub

def setTagTrace : Trace := withLock .scope [.work]

def setExtraTrace : Trace := withLock .scope [.work]

def addBreadcrumbTrace : Trace := [.work] ++ withLock .scope [.work]

def checkIfEventTooOftenTrace : Trace :=
  [.work] ++ withLock .lastEventsList [.work] ++ withLock .lastEventsList [.work]

def limitTrace (event : Json) : Trace :=
  match event.find (lit "message") with
  | some _ => checkIfEventTooOftenTrace
  | none => []

def sendSampledTrace (h : Hub) (now : Nat) : Trace :=
  if ((p.rand (UInt32.ofNat now) % 100 : Nat) : Int) < h.sampleRate then
    h.httpClient.elim [] addActionToQueueTrace
  else []

def captureEventTrace (h : Hub) (c : Call) : Trace :=
  [.work] ++ limitTrace c.event ++
    match h.limit p c.event c.clock with
    | (.error _, _) => []
    | (.ok true, _) => []
    | (.ok false, h) =>
        [.work] ++
          match h.contents c with
          | .error _ => []
          | .ok _ => sendSampledTrace p h c.clock.seed ++ addBreadcrumbTrace

def closeHttpConnectionTrace (h : Hub) : Trace := h.httpClient.elim [] fun _ => [.work, .wait]

/-- The function that a program calls tests `m_initialised` first. -/
def requestTrace (h : Hub) (request : Api.Request) : Trace :=
  if !h.isInitialised then [.work]
  else [.work] ++
    match request with
    | .captureEvent call => captureEventTrace p h call
    | .addBreadcrumb .. => addBreadcrumbTrace
    | .setTag .. => setTagTrace
    | .setExtra .. => setExtraTrace
    | .log level message uuid clock =>
        if Api.isReported level then captureEventTrace p h ⟨Api.logEvent level message, uuid, clock⟩
        else addBreadcrumbTrace

def signalsHandlerTrace (h : Hub) (sig : Signal) (c : Circumstances) : Trace :=
  [.work] ++
    match c.frames with
    | none => []
    | some frames =>
        captureEventTrace p h ⟨signalEvent sig.name frames, c.uuid, c.clock⟩ ++
          if (h.signalReport p sig c).1 then closeHttpConnectionTrace (h.signalReport p sig c).2
          else []

end Hub

/-- The trace of `captureEvent` in the terms of `captureEvent_cases`. -/
theorem captureEventTrace_eq (h : Hub) (c : Call) :
    captureEventTrace p h c = [.work] ++ limitTrace c.event ++
      if messageOk c.event && !tooOften p h.lastUniqueEvents c then
        [.work] ++
          if (h.contents c).isOk then sendSampledTrace p h c.clock.seed ++ addBreadcrumbTrace
          else []
      else [] := by
  unfold captureEventTrace
  rcases limit_cases p h c with ⟨hmessage, e, hlimit⟩ | ⟨hmessage, hlimit⟩
  · simp only [hlimit, hmessage]
    rfl
  · simp only [hlimit, hmessage]
    cases tooOften p h.lastUniqueEvents c with
    | true => rfl
    | false =>
        simp only [Bool.not_false, Bool.and_true, if_true]
        have hcontents : ({ h with
            lastUniqueEvents := (tableStep p h.lastUniqueEvents c).1 } : Hub).contents c =
          h.contents c := rfl
        rw [hcontents]
        cases h.contents c <;> rfl

/-- The locks that are missing from the trace of a call, and what the call
leaves alone then. `m_lastEventId` is not under a lock. -/
structure Guarded (h h' : Hub) (t : Trace) : Prop where
  scope : .lock .scope ∉ t → h'.scope = h.scope
  lastUniqueEvents : .lock .lastEventsList ∉ t → h'.lastUniqueEvents = h.lastUniqueEvents
  httpClient : .lock .tasksQueue ∉ t → h'.httpClient = h.httpClient

theorem httpClient_sendSampled {h : Hub} {contents : Bytes} {now : Nat}
    (hfree : .lock .tasksQueue ∉ sendSampledTrace p h now) :
    (h.sendSampled p contents now).httpClient = h.httpClient := by
  unfold Hub.sendSampled
  split
  · rename_i hsampled
    rw [sendSampledTrace, if_pos hsampled] at hfree
    cases hclient : h.httpClient with
    | none => rfl
    | some t =>
        rw [hclient, Option.elim_some, addActionToQueueTrace] at hfree
        cases hstop : t.shouldStop with
        | true => simp [Transport.sendEvent, Transport.addActionToQueue, hstop]
        | false => simp [hstop] at hfree
  · rfl

theorem guarded_captureEvent (h : Hub) (c : Call) :
    Guarded h (h.captureEvent p c.event c.uuid c.clock).2 (captureEventTrace p h c) := by
  have htable : .lock .lastEventsList ∉ captureEventTrace p h c →
      (h.entered p c).lastUniqueEvents = h.lastUniqueEvents := by
    intro hfree
    cases hmessage : c.event.find (lit "message") with
    | none => simp [Hub.entered, tableStep, hmessage]
    | some message =>
        simp [captureEventTrace_eq, limitTrace, hmessage, checkIfEventTooOftenTrace] at hfree
  rcases captureEvent_cases p h c with ⟨-, e, hcapture⟩ | ⟨-, -, hcapture⟩ |
    ⟨-, -, e, -, hcapture⟩ | ⟨hmessage, htoo, contents, hcontents, hcapture⟩
  · rw [hcapture]
    exact ⟨fun _ => rfl, htable, fun _ => rfl⟩
  · rw [hcapture]
    exact ⟨fun _ => rfl, htable, fun _ => rfl⟩
  · rw [hcapture]
    exact ⟨fun _ => rfl, htable, fun _ => rfl⟩
  · have htrace : captureEventTrace p h c = [.work] ++ limitTrace c.event ++ ([.work] ++
        (sendSampledTrace p h c.clock.seed ++ addBreadcrumbTrace)) := by
      rw [captureEventTrace_eq, hmessage, htoo, hcontents]
      rfl
    rw [hcapture]
    refine ⟨?_, ?_, ?_⟩
    · intro hfree
      simp [htrace, addBreadcrumbTrace] at hfree
    · intro hfree
      rw [sendSampled_eq]
      exact htable hfree
    · intro hfree
      have hsend : .lock .tasksQueue ∉ sendSampledTrace p (h.entered p c) c.clock.seed := by
        intro hlock
        apply hfree
        rw [htrace]
        exact List.mem_append_right _ (List.mem_append_right _ (List.mem_append_left _ hlock))
      exact httpClient_sendSampled p hsend

theorem Guarded.work {h h' : Hub} {t : Trace} (hg : Guarded h h' t) :
    Guarded h h' ([.work] ++ t) := by
  have hbehind (m : Mutex) (hfree : .lock m ∉ [.work] ++ t) : .lock m ∉ t :=
    fun hlock => hfree (List.mem_append_right _ hlock)
  exact ⟨fun hfree => hg.scope (hbehind _ hfree),
    fun hfree => hg.lastUniqueEvents (hbehind _ hfree),
    fun hfree => hg.httpClient (hbehind _ hfree)⟩

/-- A function that changes the scope and has the lock for it. -/
theorem guarded_of_scope (h : Hub) (s : Scope) :
    Guarded h { h with scope := s } (withLock .scope [.work]) :=
  ⟨fun hfree => absurd (by simp) hfree, fun _ => rfl, fun _ => rfl⟩

/-- Whatever a call changes, but for the last id, it changes under the
lock. -/
theorem guarded_serve (h : Hub) (r : Api.Request) :
    Guarded h (Api.serve p h r) (requestTrace p h r) := by
  have htrace {t : Trace} {h' : Hub} (hg : Guarded h h' t)
      (heq : requestTrace p h r = [.work] ++ t) : Guarded h h' (requestTrace p h r) := by
    rw [heq]
    exact hg.work
  generalize hserve : Api.serve p h r = h'
  cases Api.served_of_serve p hserve with
  | refused => exact ⟨fun _ => rfl, fun _ => rfl, fun _ => rfl⟩
  | captureEvent c hin =>
      refine htrace (guarded_captureEvent p h c) ?_
      simp [requestTrace, Hub.isInitialised, hin]
  | addBreadcrumb crumb now hin =>
      refine htrace (guarded_of_scope h _).work ?_
      simp [requestTrace, Hub.isInitialised, hin, addBreadcrumbTrace]
  | setTag key value hin =>
      rw [setTag_eq]
      refine htrace (guarded_of_scope h _) ?_
      simp [requestTrace, Hub.isInitialised, hin, setTagTrace]
  | setExtra key value hin =>
      refine htrace (guarded_of_scope h _) ?_
      simp [requestTrace, Hub.isInitialised, hin, setExtraTrace]
  | reported level message uuid clock hin hlevel =>
      refine htrace (guarded_captureEvent p h ⟨Api.logEvent level message, uuid, clock⟩) ?_
      simp [requestTrace, Hub.isInitialised, hin, hlevel]
  | logged level message uuid clock hin hlevel =>
      refine htrace (guarded_of_scope h _).work ?_
      simp [requestTrace, Hub.isInitialised, hin, hlevel, addBreadcrumbTrace]

theorem state_sendEventRetry (t : Transport) (event : Nat) (contents : Bytes) (header : Header) :
    (t.sendEventRetry event contents header).state = t.state := by
  unfold Transport.sendEventRetry Transport.addActionToQueue
  split <;> rfl

/-- The state changes for a 429 and for an error code. -/
theorem state_sendPost {t t' : Transport} {post : Transport.Post} {outcome : Outcome}
    {now : Time} (hsend : t.sendPost post outcome now = .ok t')
    (hfree : .lock .state ∉ sendPostTrace t post outcome) : t'.state = t.state := by
  unfold Transport.sendPost Transport.exchange at hsend
  unfold sendPostTrace exchangeTrace Transport.exchange checkResponseTrace at hfree
  cases hrequest : request outcome with
  | error thrown =>
      simp only [hrequest] at hsend hfree
      split at hsend
      · rename_i hsystem
        simp [hsystem, changeStateTrace] at hfree
      · cases hsend
  | ok response =>
      simp only [hrequest, Transport.checkResponse, Transport.handleTooManyRequests]
        at hsend hfree
      rcases Decidable.em (SimpleWeb.statusCode response.statusCode = .successOk) with h200 | h200
      · simp only [h200, if_true, Bool.not_true, Bool.false_and, Bool.false_eq_true, if_false,
          Except.ok.injEq] at hsend
        rw [← hsend]
        rfl
      rcases Decidable.em
        (SimpleWeb.statusCode response.statusCode = .clientErrorTooManyRequests) with h429 | h429
      · rcases Transport.retryAfterOf_cases
          (UInt64.ofNat reconnectionTimeoutMilliseconds) response.header with
          ⟨-, wait, hwait⟩ | ⟨-, e, wait, hwait⟩
        · simp [h429, hwait, changeStateTrace] at hfree
        · simp [h429, hwait] at hsend
      · simp only [if_neg h200, if_neg h429, Bool.not_false, Bool.true_and] at hsend
        split at hsend
        · rw [← Except.ok.inj hsend]
          exact state_sendEventRetry ..
        · rw [← Except.ok.inj hsend]
          rfl

/-- Whatever `perform` changes of the queue and of the state, it changes under
the lock. -/
theorem guarded_perform {t t' : Transport} {clock : Transport.Readings} {outcome : Outcome}
    (hperform : t.perform clock outcome = .ok t') :
    (.lock .tasksQueue ∉ performTrace t clock outcome → t'.tasks = t.tasks) ∧
    (.lock .state ∉ performTrace t clock outcome → t'.state = t.state) := by
  unfold Transport.perform at hperform
  unfold performTrace
  cases hstate : t.state with
  | noConnection =>
      simp only [hstate, Except.ok.injEq] at hperform
      subst t'
      cases hreached : t.reconnectTimeoutReached clock.now with
      | true =>
          simp [Transport.performNoConnection, Transport.changeState, changeStateTrace, hreached]
      | false => simp [Transport.performNoConnection, hreached, hstate]
  | dropEvents =>
      simp only [hstate, Except.ok.injEq] at hperform
      subst t'
      simp [hstate]
  | sendEvents =>
      simp only [hstate] at hperform
      unfold Transport.performSendEvents at hperform
      unfold performSendEventsTrace
      cases htasks : t.tasks with
      | nil =>
          simp only [htasks, Except.ok.injEq] at hperform
          subst t'
          simp [htasks, hstate]
      | cons front rest =>
          simp only [htasks] at hperform
          refine ⟨by simp, ?_⟩
          intro hfree
          have hrun : .lock .state ∉ runTaskTrace { t with tasks := rest } front clock outcome :=
            fun hlock => hfree (List.mem_append_right _ (List.mem_append_right _ hlock))
          have htaken : ({ t with tasks := rest } : Transport).state = .sendEvents := hstate
          rw [← htaken]
          unfold Transport.runTask Transport.sendPostContent at hperform
          unfold runTaskTrace at hrun
          cases front with
          | first event contents =>
              simp only at hperform hrun
              cases hclient : t.httpClient with
              | none =>
                  simp only [hclient, Except.ok.injEq] at hperform
                  rw [← hperform]
              | some client =>
                  simp only [hclient] at hperform hrun
                  exact state_sendPost hperform hrun
          | retry event contents header => exact state_sendPost hperform hrun

end Sentry.Interrupt
