import SentryCpp.Hub.Payload
import SentryCpp.Hub.Window

/-!
What a `captureEvent` that throws leaves behind. The id of the event is stored
before anything can throw, and the limiter has counted the event when the dump
throws. So a call that throws has changed the hub, except when the random
bytes repeat the last id and the limiter had nothing to count.
-/

namespace Sentry

open StdString

variable (p : Platform)

/-- The table after the sweep that the call makes, if it makes one. -/
def Hub.swept (h : Hub) (c : Call) : EventTable :=
  match c.event.find (lit "message") with
  | none => h.lastUniqueEvents
  | some _ => h.lastUniqueEvents.sweep (oldEnoughToRemove p c.clock.currTime)

/-- The state of the hub is as before the call, up to the sweep. -/
structure Hub.Unchanged (h : Hub) (c : Call) (h' : Hub) : Prop where
  lastEventId : h'.lastEventId = h.lastEventId
  lastUniqueEvents : h'.lastUniqueEvents = h.swept p c
  breadcrumbs : h'.scope.breadcrumbs = h.scope.breadcrumbs
  httpClient : h'.httpClient = h.httpClient

/-- If the call throws, it leaves the hub as it was. -/
def Hub.Atomic (h : Hub) (c : Call) : Prop :=
  ∀ e h', h.captureEvent p c.event c.uuid c.clock = (.error e, h') → h.Unchanged p c h'

/-- The event has a string as its message and the limiter lets it pass. -/
def Hub.counts (h : Hub) (c : Call) : Bool :=
  match c.event.find (lit "message") with
  | some (.string _) => !tooOften p h.lastUniqueEvents c
  | _ => false

theorem table_eq_swept_iff (h : Hub) (c : Call) :
    (tableStep p h.lastUniqueEvents c).1 = h.swept p c ↔ h.counts p c = false := by
  unfold tableStep Hub.swept Hub.counts tooOften
  cases hfind : c.event.find (lit "message") with
  | none => simp
  | some message =>
      cases message with
      | string text =>
          by_cases hcount : Hub.maxEventsPerInterval ≤
              (h.lastUniqueEvents.sweep (Hub.oldEnoughToRemove p c.clock.currTime)).count text
          · simp [hcount]
          · simp only [hcount, if_false, decide_false, Bool.not_false, Bool.true_eq_false,
              iff_false]
            intro heq
            have hvalues := congrArg (fun table => (table.values text).length) heq
            simp [Multimap.values_emplace] at hvalues
      | _ => simp

/-- A call that throws leaves the hub in the state `entered`. -/
theorem eq_entered_of_throws {h h' : Hub} {c : Call} {e : Json.TypeError}
    (hthrow : h.captureEvent p c.event c.uuid c.clock = (.error e, h')) : h' = h.entered p c := by
  rcases captureEvent_cases p h c with ⟨_, e', hcapture⟩ | ⟨_, _, hcapture⟩ |
    ⟨_, _, e', _, hcapture⟩ | ⟨_, _, contents, _, hcapture⟩
  · rw [hcapture] at hthrow
    exact (Prod.mk.inj hthrow).2.symm
  · rw [hcapture] at hthrow
    cases (Prod.mk.inj hthrow).1
  · rw [hcapture] at hthrow
    exact (Prod.mk.inj hthrow).2.symm
  · rw [hcapture] at hthrow
    cases (Prod.mk.inj hthrow).1

theorem exists_throw {h : Hub} {c : Call} (hreturns : h.returns p c = false) :
    ∃ e, h.captureEvent p c.event c.uuid c.clock = (.error e, h.entered p c) := by
  have hisOk := captureEvent_isOk p h c
  rw [hreturns] at hisOk
  cases hcapture : h.captureEvent p c.event c.uuid c.clock with
  | mk result h' =>
      rw [hcapture] at hisOk
      cases result with
      | error e => exact ⟨e, by rw [eq_entered_of_throws p hcapture]⟩
      | ok id => cases hisOk

/-- A call is atomic if and only if it does not throw, or has nothing to
change: the random bytes repeat the last id and the event is not counted. -/
theorem atomic_iff (h : Hub) (c : Call) :
    h.Atomic p c ↔
      h.returns p c = true ∨
        (Hub.generateUuid c.uuid = h.lastEventId ∧ h.counts p c = false) := by
  cases hreturns : h.returns p c with
  | true =>
      apply iff_of_true _ (Or.inl rfl)
      intro e h' hthrow
      have hisOk := captureEvent_isOk p h c
      rw [hthrow, hreturns] at hisOk
      cases hisOk
  | false =>
      obtain ⟨e, hthrow⟩ := exists_throw p hreturns
      rw [← table_eq_swept_iff]
      constructor
      · intro hatomic
        have hunchanged := hatomic e _ hthrow
        exact Or.inr ⟨hunchanged.lastEventId, hunchanged.lastUniqueEvents⟩
      · rintro (hok | ⟨hid, htable⟩)
        · cases hok
        · intro e' h' hthrow'
          rw [eq_entered_of_throws p hthrow']
          exact ⟨hid, htable, rfl, rfl⟩

/-- A hub after `init`, without events so far. -/
def freshHub : Hub := { Hub.new none none with
  initialised := true
  httpClient := some (Transport.new 0) }

/-- An event whose message is not UTF-8. -/
def brokenReport : Call := { reportAt 0 with
  event := .object [(lit "message", .string [0xFF])] }

/-- `brokenReport` is not sent, and its id is the last id. -/
theorem brokenReport_not_atomic :
    ¬ ∀ (p : Platform) (h : Hub) (c : Call), h.initialised = true → h.Atomic p c := by
  intro hall
  obtain ⟨e, hthrow⟩ :=
    exists_throw (platformOf []) (show freshHub.returns (platformOf []) brokenReport = false by
      decide)
  have hunchanged := hall (platformOf []) freshHub brokenReport rfl e _ hthrow
  exact absurd hunchanged.lastEventId (by decide)

end Sentry
