import SentryCpp.Foundation.Calendar
import SentryCpp.Foundation.Multimap
import SentryCpp.Hub.Scope
import SentryCpp.Transport.Basic

/-!
The hub: the scope, the repetition limiter and the transport behind one
`captureEvent`. A call returns its result together with the hub, also when the
result is an exception: what was changed before the throw stays changed.

What the hub takes from its surroundings comes as arguments: the readings of
the clock in seconds, the random bytes of `uuid_generate_random`, and the
`Platform`, whose functions depend on the time zone of the process, on
uninitialised memory and on the C library.
-/

namespace Sentry

open StdString Number Calendar

structure Platform where
  /-- `isTimeDiffGreaterThan(timestamp1, timestamp2, diffInSeconds)`. -/
  isTimeDiffGreaterThan : Bytes → Bytes → Nat → Bool
  /-- The first `std::rand()` after `std::srand(seed)`. -/
  rand : UInt32 → Nat

/-- The bytes of a `uuid_t`. -/
structure Uuid where
  bytes : List Byte
  length_eq : bytes.length = 16

def zeroUuid : Uuid := ⟨List.replicate 16 0, rfl⟩

/-- The readings of the clock in one call of `captureEvent`, in the order of
their use: the timestamp of the event, the time of the sweep, the seed, and
the timestamp of the breadcrumb. -/
structure Clock where
  timestamp : Nat
  currTime : Nat
  seed : Nat
  crumb : Nat
  deriving DecidableEq, Repr

structure Hub where
  initialised : Bool
  sampleRate : Int
  lastEventId : Bytes
  /-- Message and timestamp of the last events. -/
  lastUniqueEvents : Multimap Bytes Bytes
  httpClient : Option Transport
  scope : Scope
  isSourceAvailable : Bool

namespace Hub

def maxEventsPerInterval : Nat := 3

def maxEventsRepetitionIntervalInSeconds : Nat := 3600

/-- The constructor. -/
def new (userLogin hostName : Option Bytes) : Hub where
  initialised := false
  sampleRate := 100
  lastEventId := []
  lastUniqueEvents := .empty
  httpClient := none
  scope := Scope.new userLogin hostName
  isSourceAvailable := false

def isInitialised (h : Hub) : Bool := h.initialised

def setTag (h : Hub) (key value : Bytes) : Hub :=
  if key = lit "release" then { h with scope := h.scope.setRelease value }
  else { h with scope := h.scope.setTag key value }

def setExtra (h : Hub) (key value : Bytes) : Hub :=
  { h with scope := h.scope.setExtra key value }

/-- Two hexadecimal digits for each byte. -/
def generateUuid (uuid : Uuid) : Bytes :=
  uuid.bytes.flatMap fun b => [digitChar (b.toNat / 16), digitChar (b.toNat % 16)]

/-- `if (attributes has key) breadcrumb[key] = attributes[key]`. -/
def copyField (attributes : Json) (key : Bytes) (breadcrumb : List (Bytes × Json)) :
    List (Bytes × Json) :=
  match attributes.find key with
  | some value => Json.insertOrAssign key value breadcrumb
  | none => breadcrumb

/-- The members of the breadcrumb that `addBreadcrumb` records. -/
def breadcrumbOf (attributes : Json) (timestamp : Bytes) : List (Bytes × Json) :=
  let breadcrumb :=
    [(lit "level", Json.string (lit "info")), (lit "timestamp", .string timestamp),
      (lit "type", .string (lit "default"))]
  let breadcrumb := copyField attributes (lit "type") breadcrumb
  let breadcrumb := copyField attributes (lit "level") breadcrumb
  let breadcrumb := copyField attributes (lit "category") breadcrumb
  let breadcrumb := copyField attributes (lit "data") breadcrumb
  let breadcrumb := copyField attributes (lit "message") breadcrumb
  -- always the same as level
  Json.insertOrAssign (lit "category")
    ((Json.lookup (lit "level") breadcrumb).getD .null) breadcrumb

def addBreadcrumb (h : Hub) (attributes : Json) (now : Nat) : Hub :=
  { h with
    scope := h.scope.addBreadcrumb (.object (breadcrumbOf attributes (iso8601 now))) }

variable (p : Platform)

/-- The test of `removeOldEventsFromList`. -/
def oldEnoughToRemove (currTime : Nat) (entry : Bytes × Bytes) : Bool :=
  p.isTimeDiffGreaterThan entry.2 (iso8601 currTime) maxEventsRepetitionIntervalInSeconds

def removeOldEventsFromList (h : Hub) (currTime : Nat) : Hub :=
  { h with lastUniqueEvents := h.lastUniqueEvents.sweep (oldEnoughToRemove p currTime) }

/-- `checkIfEventTooOften` behind its call of `removeOldEventsFromList`. -/
def countEvent (h : Hub) (message : Json) (timestamp : Bytes) :
    Except Json.TypeError Bool × Hub :=
  match message.getString with
  | .error e => (.error e, h)
  | .ok message =>
      if maxEventsPerInterval ≤ h.lastUniqueEvents.count message then (.ok true, h)
      else
        (.ok false,
          { h with lastUniqueEvents := h.lastUniqueEvents.emplace message timestamp })

/-- `checkIfEventTooOften` for an event whose member `message` is given. -/
def checkIfEventTooOften (h : Hub) (message : Json) (timestamp : Bytes) (currTime : Nat) :
    Except Json.TypeError Bool × Hub :=
  (h.removeOldEventsFromList p currTime).countEvent message timestamp

/-- The part of `captureEvent` that may drop the event. -/
def limit (h : Hub) (event : Json) (clock : Clock) : Except Json.TypeError Bool × Hub :=
  match event.find (lit "message") with
  | some message =>
      h.checkIfEventTooOften p message (iso8601 clock.timestamp) clock.currTime
  | none => (.ok false, h)

/-- The payload, from the copy of the event to the call of `applyToEvent`. -/
def payload (scope : Scope) (event : Json) (eventId timestamp : Bytes) :
    Except Json.TypeError Json := do
  let payload ← event.assign (lit "event_id") (.string eventId)
  let payload ← payload.assign (lit "timestamp") (.string timestamp)
  let payload ← payload.assign (lit "platform") (.string (lit "other"))
  scope.applyToEvent payload

/-- Event sampling. Without a transport the call has no defined behaviour;
`init` sets the transport before it sets `m_initialised`. -/
def sendSampled (h : Hub) (contentsToSend : Bytes) (now : Nat) : Hub :=
  if ((p.rand (UInt32.ofNat now) % 100 : Nat) : Int) < h.sampleRate then
    { h with httpClient := h.httpClient.map fun t => t.sendEvent contentsToSend }
  else h

/-- `captureEvent` behind the part that may drop the event. -/
def captureLimited (limited : Except Json.TypeError Bool × Hub) (event : Json) (uuid : Uuid)
    (clock : Clock) : Except Json.TypeError Bytes × Hub :=
  match limited with
  | (.error e, h) => (.error e, h)
  | (.ok true, h) => (.ok [], h)
  | (.ok false, h) =>
      let eventId := generateUuid uuid
      match payload h.scope event eventId (iso8601 clock.timestamp) >>= Json.dump with
      | .error e => (.error e, h)
      | .ok contentsToSend =>
          (.ok eventId, (h.sendSampled p contentsToSend clock.seed).addBreadcrumb event clock.crumb)

def captureEvent (h : Hub) (event : Json) (uuid : Uuid) (clock : Clock) :
    Except Json.TypeError Bytes × Hub :=
  captureLimited p ({ h with lastEventId := generateUuid uuid }.limit p event clock) event uuid
    clock

end Hub

end Sentry
