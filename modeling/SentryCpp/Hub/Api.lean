import SentryCpp.Hub.Limiter

/-!
The functions that a program calls. Each of them does nothing before `init`.
`log` reports an event from `LEVEL_ERROR` on and records a breadcrumb below.
`served_of_serve` lists what a call can do.
-/

namespace Sentry.Api

open StdString

variable (p : Platform)

def captureEvent (h : Hub) (c : Call) : Except Json.TypeError Bytes × Hub :=
  if !h.isInitialised then (.ok [], h)
  else h.captureEvent p c.event c.uuid c.clock

def addBreadcrumb (h : Hub) (crumb : Json) (now : Nat) : Hub :=
  if !h.isInitialised then h else h.addBreadcrumb crumb now

def setTag (h : Hub) (key value : Bytes) : Hub :=
  if !h.isInitialised then h else h.setTag key value

def setExtra (h : Hub) (key value : Bytes) : Hub :=
  if !h.isInitialised then h else h.setExtra key value

def lastEventId (h : Hub) : Bytes :=
  if !h.isInitialised then [] else h.lastEventId

/-- The event that `log` reports. -/
def logEvent (level : EventLevel) (message : Bytes) : Json :=
  .object [(lit "level", .string (levelToString level)), (lit "message", .string message)]

/-- The breadcrumb that `log` records. -/
def logBreadcrumb (level : EventLevel) (message : Bytes) : Json :=
  .object [(lit "category", .string (lit "log")), (lit "level", .string (levelToString level)),
    (lit "message", .string message)]

/-- `log` reports an event of this level. -/
def isReported (level : EventLevel) : Bool := EventLevel.error.toInt ≤ level.toInt

/-- Without an exception there is no result. The readings of the clock are
those of the call that `log` makes. -/
def log (h : Hub) (level : EventLevel) (message : Bytes) (uuid : Uuid) (clock : Clock) :
    Except Json.TypeError Unit × Hub :=
  if !h.isInitialised then (.ok (), h)
  else if isReported level then
    let (result, h) := captureEvent p h ⟨logEvent level message, uuid, clock⟩
    (result.map fun _ => (), h)
  else (.ok (), addBreadcrumb h (logBreadcrumb level message) clock.crumb)

/-- One call of a program. -/
inductive Request where
  | captureEvent (call : Call)
  | addBreadcrumb (crumb : Json) (now : Nat)
  | setTag (key value : Bytes)
  | setExtra (key value : Bytes)
  | log (level : EventLevel) (message : Bytes) (uuid : Uuid) (clock : Clock)

/-- The event that a request reports. -/
def Request.call? : Request → Option Call
  | .captureEvent c => some c
  | .log level message uuid clock =>
      if isReported level then some ⟨logEvent level message, uuid, clock⟩ else none
  | .addBreadcrumb .. | .setTag .. | .setExtra .. => none

/-- The hub after the call, which may have thrown. -/
def serve (h : Hub) : Request → Hub
  | .captureEvent call => (captureEvent p h call).2
  | .addBreadcrumb crumb now => addBreadcrumb h crumb now
  | .setTag key value => setTag h key value
  | .setExtra key value => setExtra h key value
  | .log level message uuid clock => (log p h level message uuid clock).2

theorem captureEvent_of_initialised {h : Hub} (hin : h.initialised = true) (c : Call) :
    captureEvent p h c = h.captureEvent p c.event c.uuid c.clock := by
  rw [captureEvent, if_neg (by simp [Hub.isInitialised, hin])]

/-- What a call can do. -/
inductive Served (h : Hub) : Request → Hub → Prop where
  | refused (request : Request) (hnot : h.initialised = false) : Served h request h
  | captureEvent (c : Call) (hin : h.initialised = true) :
      Served h (.captureEvent c) (h.captureEvent p c.event c.uuid c.clock).2
  | addBreadcrumb (crumb : Json) (now : Nat) (hin : h.initialised = true) :
      Served h (.addBreadcrumb crumb now) (h.addBreadcrumb crumb now)
  | setTag (key value : Bytes) (hin : h.initialised = true) :
      Served h (.setTag key value) (h.setTag key value)
  | setExtra (key value : Bytes) (hin : h.initialised = true) :
      Served h (.setExtra key value) (h.setExtra key value)
  | reported (level : EventLevel) (message : Bytes) (uuid : Uuid) (clock : Clock)
      (hin : h.initialised = true) (hlevel : isReported level = true) :
      Served h (.log level message uuid clock)
        (h.captureEvent p (logEvent level message) uuid clock).2
  | logged (level : EventLevel) (message : Bytes) (uuid : Uuid) (clock : Clock)
      (hin : h.initialised = true) (hlevel : isReported level = false) :
      Served h (.log level message uuid clock)
        (h.addBreadcrumb (logBreadcrumb level message) clock.crumb)

theorem served_of_serve {h h' : Hub} {request : Request} (hserve : serve p h request = h') :
    Served p h request h' := by
  subst h'
  cases hin : h.initialised with
  | false =>
      have hidle : serve p h request = h := by
        cases request <;>
          simp [serve, captureEvent, addBreadcrumb, setTag, setExtra, log, Hub.isInitialised, hin]
      rw [hidle]
      exact .refused request hin
  | true =>
      cases request with
      | captureEvent c =>
          simp only [serve, captureEvent, Hub.isInitialised, hin]
          exact .captureEvent c hin
      | addBreadcrumb crumb now =>
          simp only [serve, addBreadcrumb, Hub.isInitialised, hin]
          exact .addBreadcrumb crumb now hin
      | setTag key value =>
          simp only [serve, setTag, Hub.isInitialised, hin]
          exact .setTag key value hin
      | setExtra key value =>
          simp only [serve, setExtra, Hub.isInitialised, hin]
          exact .setExtra key value hin
      | log level message uuid clock =>
          cases hlevel : isReported level with
          | true =>
              simp only [serve, log, captureEvent, Hub.isInitialised, hin, hlevel]
              exact .reported level message uuid clock hin hlevel
          | false =>
              simp only [serve, log, addBreadcrumb, Hub.isInitialised, hin, hlevel]
              exact .logged level message uuid clock hin hlevel

/-- What the functions of the hub keep, every call keeps. -/
theorem serve_keeps {α : Type*} {f : Hub → α}
    (hcapture : ∀ h (c : Call), f (h.captureEvent p c.event c.uuid c.clock).2 = f h)
    (hcrumb : ∀ h crumb now, f (h.addBreadcrumb crumb now) = f h)
    (htag : ∀ h key value, f (h.setTag key value) = f h)
    (hextra : ∀ h key value, f (h.setExtra key value) = f h) (h : Hub) (request : Request) :
    f (serve p h request) = f h := by
  generalize hserve : serve p h request = h'
  cases served_of_serve p hserve with
  | refused => rfl
  | captureEvent c => exact hcapture h c
  | addBreadcrumb crumb now => exact hcrumb h crumb now
  | setTag key value => exact htag h key value
  | setExtra key value => exact hextra h key value
  | reported level message uuid clock => exact hcapture h ⟨logEvent level message, uuid, clock⟩
  | logged level message uuid clock =>
      exact hcrumb h (logBreadcrumb level message) clock.crumb

def serveAll (h : Hub) (requests : List Request) : Hub := requests.foldl (serve p) h

end Sentry.Api

namespace Sentry

variable (p : Platform)

/-- `none` without a transport, or else whether it has been stopped. -/
def Hub.stopped (h : Hub) : Option Bool := h.httpClient.map Transport.shouldStop

theorem isSome_stopped (h : Hub) : h.stopped.isSome = h.httpClient.isSome := Option.isSome_map

theorem stopped_sendSampled (h : Hub) (contents : Bytes) (now : Nat) :
    (h.sendSampled p contents now).stopped = h.stopped := by
  have hsend (t : Transport) : (t.sendEvent contents).shouldStop = t.shouldStop := by
    unfold Transport.sendEvent Transport.addActionToQueue
    split <;> rfl
  unfold Hub.sendSampled
  split
  · simp only [Hub.stopped, Option.map_map]
    congr 1
    exact funext hsend
  · rfl

theorem initialised_sendSampled (h : Hub) (contents : Bytes) (now : Nat) :
    (h.sendSampled p contents now).initialised = h.initialised := by
  rw [sendSampled_eq]

/-- A tag is a change of the scope. -/
theorem setTag_eq (h : Hub) (key value : Bytes) :
    h.setTag key value = { h with scope := (h.setTag key value).scope } := by
  unfold Hub.setTag
  split <;> rfl

/-- No event starts or stops a transport. -/
theorem stopped_captureEvent (h : Hub) (c : Call) :
    (h.captureEvent p c.event c.uuid c.clock).2.stopped = h.stopped :=
  captureEvent_keeps p (fun _ _ => rfl) (stopped_sendSampled p) (fun _ _ _ => rfl) h c

theorem stopped_serve (h : Hub) (request : Api.Request) :
    (Api.serve p h request).stopped = h.stopped := by
  have htag (h : Hub) (key value : Bytes) : (h.setTag key value).stopped = h.stopped := by
    rw [setTag_eq, Hub.stopped, Hub.stopped]
  exact Api.serve_keeps p (stopped_captureEvent p) (fun _ _ _ => rfl) htag (fun _ _ _ => rfl) h
    request

theorem initialised_captureEvent (h : Hub) (c : Call) :
    (h.captureEvent p c.event c.uuid c.clock).2.initialised = h.initialised :=
  captureEvent_keeps p (fun _ _ => rfl) (initialised_sendSampled p) (fun _ _ _ => rfl) h c

theorem initialised_serve (h : Hub) (request : Api.Request) :
    (Api.serve p h request).initialised = h.initialised := by
  have htag (h : Hub) (key value : Bytes) : (h.setTag key value).initialised = h.initialised := by
    rw [setTag_eq]
  exact Api.serve_keeps p (initialised_captureEvent p) (fun _ _ _ => rfl) htag (fun _ _ _ => rfl) h
    request

end Sentry
