import SentryCpp.Foundation.Transition
import SentryCpp.Hub.Basic

/-!
The repetition limiter, and `captureEvent` seen from it. `tableStep` is all
that a call does to the table of the last events, and `captureEvent_cases` is
the inversion lemma of `captureEvent`: a message that is no string, an event
dropped by the limiter, a payload that is not built or not dumped, and an event
that is sent.
-/

namespace Sentry

open StdString Calendar

abbrev EventTable := Multimap Bytes Bytes

/-- The arguments and the surroundings of one call of `captureEvent`. -/
structure Call where
  event : Json
  uuid : Uuid
  clock : Clock

/-- An event that `checkIfEventTooOften` has let pass. -/
structure Admission where
  message : Bytes
  timestamp : Nat
  currTime : Nat
  deriving DecidableEq, Repr

variable (p : Platform)

/-- The table after a call and the admission that the call makes. -/
def tableStep (table : EventTable) (c : Call) : EventTable × Option Admission :=
  match c.event.find (lit "message") with
  | none => (table, none)
  | some (.string message) =>
      let table := table.sweep (Hub.oldEnoughToRemove p c.clock.currTime)
      if Hub.maxEventsPerInterval ≤ table.count message then (table, none)
      else
        (table.emplace message (iso8601 c.clock.timestamp),
          some ⟨message, c.clock.timestamp, c.clock.currTime⟩)
  | some _ => (table.sweep (Hub.oldEnoughToRemove p c.clock.currTime), none)

/-- The event has no message, or one that is a string. -/
def messageOk (event : Json) : Bool :=
  match event.find (lit "message") with
  | none | some (.string _) => true
  | some _ => false

/-- The limiter drops the event. -/
def tooOften (table : EventTable) (c : Call) : Bool :=
  match c.event.find (lit "message") with
  | some (.string message) =>
      Hub.maxEventsPerInterval ≤
        (table.sweep (Hub.oldEnoughToRemove p c.clock.currTime)).count message
  | _ => false

theorem limit_cases (h : Hub) (c : Call) :
    (messageOk c.event = false ∧ ∃ e, h.limit p c.event c.clock = (.error e, { h with
      lastUniqueEvents := (tableStep p h.lastUniqueEvents c).1 })) ∨
    (messageOk c.event = true ∧ h.limit p c.event c.clock =
      (.ok (tooOften p h.lastUniqueEvents c), { h with
        lastUniqueEvents := (tableStep p h.lastUniqueEvents c).1 })) := by
  unfold Hub.limit messageOk tooOften tableStep
  cases hfind : c.event.find (lit "message") with
  | none => exact Or.inr ⟨rfl, rfl⟩
  | some message =>
      cases message with
      | string message =>
          refine Or.inr ⟨rfl, ?_⟩
          simp only [Hub.checkIfEventTooOften, Hub.countEvent, Json.getString,
            Hub.removeOldEventsFromList]
          split
          · rename_i hcount
            simp [hcount]
          · rename_i hcount
            simp [hcount]
      | _ => exact Or.inl ⟨rfl, _, rfl⟩

/-- The hub when the limiter is through with a call. -/
def Hub.entered (h : Hub) (c : Call) : Hub :=
  { h with
    lastEventId := generateUuid c.uuid
    lastUniqueEvents := (tableStep p h.lastUniqueEvents c).1 }

/-- The text that `captureEvent` sends. -/
def Hub.contents (h : Hub) (c : Call) : Except Json.TypeError Bytes :=
  payload h.scope c.event (generateUuid c.uuid) (iso8601 c.clock.timestamp) >>= Json.dump

theorem generateUuid_ne_nil (uuid : Uuid) : Hub.generateUuid uuid ≠ [] := by
  intro hnil
  have hlength : (Hub.generateUuid uuid).length = 32 := by
    simp [Hub.generateUuid, List.length_flatMap, uuid.length_eq]
  simp [hnil] at hlength

/-- All that `captureEvent` can do. -/
theorem captureEvent_cases (h : Hub) (c : Call) :
    (messageOk c.event = false ∧ ∃ e,
      h.captureEvent p c.event c.uuid c.clock = (.error e, h.entered p c)) ∨
    (messageOk c.event = true ∧ tooOften p h.lastUniqueEvents c = true ∧
      h.captureEvent p c.event c.uuid c.clock = (.ok [], h.entered p c)) ∨
    (messageOk c.event = true ∧ tooOften p h.lastUniqueEvents c = false ∧
      ∃ e, h.contents c = .error e ∧
        h.captureEvent p c.event c.uuid c.clock = (.error e, h.entered p c)) ∨
    (messageOk c.event = true ∧ tooOften p h.lastUniqueEvents c = false ∧
      ∃ contents, h.contents c = .ok contents ∧
        h.captureEvent p c.event c.uuid c.clock = (.ok (Hub.generateUuid c.uuid),
          ((h.entered p c).sendSampled p contents c.clock.seed).addBreadcrumb c.event
            c.clock.crumb)) := by
  simp only [Hub.captureEvent, Hub.captureLimited, Hub.contents]
  rcases limit_cases p { h with lastEventId := Hub.generateUuid c.uuid } c with
    ⟨hmessage, e, hlimit⟩ | ⟨hmessage, hlimit⟩
  · exact Or.inl ⟨hmessage, e, by rw [hlimit]; rfl⟩
  · refine Or.inr ?_
    rw [hlimit]
    cases htoo : tooOften p h.lastUniqueEvents c with
    | true => exact Or.inl ⟨hmessage, rfl, rfl⟩
    | false =>
        refine Or.inr ?_
        simp only
        cases hdump : Hub.payload h.scope c.event (Hub.generateUuid c.uuid)
            (iso8601 c.clock.timestamp) >>= Json.dump with
        | error e => exact Or.inl ⟨hmessage, trivial, e, rfl, rfl⟩
        | ok contents => exact Or.inr ⟨hmessage, trivial, contents, rfl, rfl⟩

/-- Sending changes the transport and nothing else. -/
theorem sendSampled_eq (h : Hub) (contents : Bytes) (now : Nat) :
    h.sendSampled p contents now =
      { h with httpClient := (h.sendSampled p contents now).httpClient } := by
  unfold Hub.sendSampled
  split <;> rfl

/-- What the parts of `captureEvent` keep, it keeps. -/
theorem captureEvent_keeps {α : Type*} {f : Hub → α}
    (hentered : ∀ h c, f (h.entered p c) = f h)
    (hsend : ∀ h contents now, f (h.sendSampled p contents now) = f h)
    (hcrumb : ∀ h crumb now, f (h.addBreadcrumb crumb now) = f h) (h : Hub) (c : Call) :
    f (h.captureEvent p c.event c.uuid c.clock).2 = f h := by
  rcases captureEvent_cases p h c with ⟨-, e, hcapture⟩ | ⟨-, -, hcapture⟩ |
    ⟨-, -, e, -, hcapture⟩ | ⟨-, -, contents, -, hcapture⟩
  · rw [hcapture, hentered]
  · rw [hcapture, hentered]
  · rw [hcapture, hentered]
  · rw [hcapture, hcrumb, hsend, hentered]

/-- Behind the limiter no part of `captureEvent` touches the table. -/
theorem table_captureEvent (h : Hub) (c : Call) :
    (h.captureEvent p c.event c.uuid c.clock).2.lastUniqueEvents =
      (tableStep p h.lastUniqueEvents c).1 := by
  rcases captureEvent_cases p h c with ⟨_, e, hcapture⟩ | ⟨_, _, hcapture⟩ |
    ⟨_, _, e, _, hcapture⟩ | ⟨_, _, contents, _, hcapture⟩
  · rw [hcapture, Hub.entered]
  · rw [hcapture, Hub.entered]
  · rw [hcapture, Hub.entered]
  · rw [hcapture, sendSampled_eq]
    rfl

end Sentry
