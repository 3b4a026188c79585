import SentryCpp.Hub.Api
import SentryCpp.Hub.Expiry

/-!
The public calls as the program makes them, with the loop of the sweep in the place
of what it should do. A call that gives the limiter a message goes through the table
with its iterator, and has no defined behaviour if an entry is old enough to be
removed. Such a call comes to no result, and a run ends at it.

Where the table lies in memory does not matter: `sweeps` tells from its entries
whether a call is defined, and then the call is that of `Hub.captureEvent`.
-/

namespace Sentry

open StdString Calendar

variable (p : Platform)

namespace Hub

/-- `captureEvent` with the loop of its sweep over the nodes of the table. -/
def captureEventLoop (h : Hub) (table : NodeMap Bytes Bytes) (c : Call) (fuel : Nat) :
    Option (Except IteratorFault (Except Json.TypeError Bytes × Hub)) :=
  let h := { h with lastEventId := generateUuid c.uuid }
  match c.event.find (lit "message") with
  | none => some (.ok (captureLimited p (.ok false, h) c.event c.uuid c.clock))
  | some message =>
      (removeOldEventsLoop p table c.clock.currTime fuel).map fun swept =>
        swept.map fun t =>
          let h := { h with lastUniqueEvents := t.container.toMultimap }
          captureLimited p (h.countEvent message (iso8601 c.clock.timestamp)) c.event c.uuid
            c.clock

/-- The call comes to this result, wherever the nodes of the table lie. -/
def ComesTo (h : Hub) (c : Call) (result : Except Json.TypeError Bytes × Hub) : Prop :=
  ∀ table : NodeMap Bytes Bytes, table.toMultimap = h.lastUniqueEvents →
    ∃ fuel, h.captureEventLoop p table c fuel = some (.ok result)

/-- The event has no message, or no entry of the table is old enough to be
removed. -/
def sweeps (h : Hub) (c : Call) : Bool :=
  (c.event.find (lit "message")).isNone ||
    h.lastUniqueEvents.toList.all fun entry => !oldEnoughToRemove p c.clock.currTime entry

theorem captureEventLoop_of_live {h : Hub} {table : NodeMap Bytes Bytes} {c : Call} {fuel : Nat}
    (htable : table.toMultimap = h.lastUniqueEvents) {message : Json}
    (hmessage : c.event.find (lit "message") = some message)
    {t : NodeMap.Traversal Bytes Bytes}
    (hloop : removeOldEventsLoop p table c.clock.currTime fuel = some (.ok t)) :
    h.captureEventLoop p table c fuel =
      some (.ok (h.captureEvent p c.event c.uuid c.clock)) := by
  have hswept := removeOldEventsLoop_refines p htable hloop
  simp only [captureEventLoop, hmessage, hloop, Option.map_some, Except.map, hswept, captureEvent,
    limit, checkIfEventTooOften, removeOldEventsFromList]

/-- A call has a result if and only if its sweep finds nothing to erase, and then it
is the one that it should have. -/
theorem comesTo_iff (h : Hub) (c : Call) (result : Except Json.TypeError Bytes × Hub) :
    h.ComesTo p c result ↔
      h.sweeps p c = true ∧ h.captureEvent p c.event c.uuid c.clock = result := by
  cases hmessage : c.event.find (lit "message") with
  | none =>
      have hcapture : ∀ table fuel, h.captureEventLoop p table c fuel =
          some (.ok (h.captureEvent p c.event c.uuid c.clock)) := by
        intro table fuel
        simp only [captureEventLoop, hmessage, captureEvent, limit]
      obtain ⟨table, htable⟩ := NodeMap.exists_toMultimap_eq h.lastUniqueEvents
      simp only [ComesTo, hcapture, Option.some.injEq, Except.ok.injEq, exists_const, sweeps,
        hmessage, Option.isNone_none, Bool.true_or, true_and]
      exact ⟨fun hcomes => hcomes table htable, fun hresult _ _ => hresult⟩
  | some message =>
      rw [sweeps, hmessage, Option.isNone_some, Bool.false_or, List.all_eq_true]
      simp only [Bool.not_eq_true']
      constructor
      · intro hcomes
        obtain ⟨table, htable⟩ := NodeMap.exists_toMultimap_eq h.lastUniqueEvents
        obtain ⟨fuel, hresult⟩ := hcomes table htable
        cases hloop : removeOldEventsLoop p table c.clock.currTime fuel with
        | none => simp [captureEventLoop, hmessage, hloop] at hresult
        | some swept =>
            cases swept with
            | error fault =>
                simp [captureEventLoop, hmessage, hloop, Except.map] at hresult
            | ok t =>
                refine ⟨htable ▸ table.eraseExpired_ends_iff.mp ⟨fuel, t, hloop⟩, ?_⟩
                rw [captureEventLoop_of_live p htable hmessage hloop] at hresult
                exact Except.ok.inj (Option.some.inj hresult)
      · rintro ⟨hlive, rfl⟩ table htable
        obtain ⟨fuel, t, hloop⟩ := table.eraseExpired_ends_iff.mpr (htable.symm ▸ hlive)
        exact ⟨fuel, captureEventLoop_of_live p htable hmessage hloop⟩

end Hub

namespace Api

/-- The call of `Hub::captureEvent` that a public call makes. -/
def Request.call (h : Hub) (request : Request) : Option Call :=
  if h.isInitialised then request.call? else none

/-- The public call comes to the hub `h'`. -/
def ServesTo (h : Hub) (request : Request) (h' : Hub) : Prop :=
  match request.call h with
  | some c => ∃ result, h.ComesTo p c result ∧ result.2 = h'
  | none => serve p h request = h'

/-- The calls come to the hub `h'`, one after the other. -/
inductive ServesAllTo : Hub → List Request → Hub → Prop where
  | nil (h : Hub) : ServesAllTo h [] h
  | cons {h h' h'' : Hub} {request : Request} {requests : List Request}
      (hfirst : ServesTo p h request h') (hrest : ServesAllTo h' requests h'') :
      ServesAllTo h (request :: requests) h''

def Request.sweeps (h : Hub) (request : Request) : Bool := (request.call h).all (h.sweeps p)

/-- Every call of the run finds nothing to erase in the table that it sweeps. -/
def sweepsAll : Hub → List Request → Bool
  | _, [] => true
  | h, request :: requests => request.sweeps p h && sweepsAll (serve p h request) requests

theorem serve_of_call {h : Hub} {request : Request} {c : Call} (hcall : request.call h = some c) :
    serve p h request = (h.captureEvent p c.event c.uuid c.clock).2 := by
  obtain ⟨hin, hmakes⟩ := Option.ite_none_right_eq_some.mp hcall
  cases request with
  | captureEvent c' =>
      cases hmakes
      rw [serve, captureEvent_of_initialised p hin]
  | log level message uuid clock =>
      obtain ⟨hlevel, hsame⟩ := Option.ite_none_right_eq_some.mp hmakes
      cases Option.some.inj hsame
      simp [serve, log, hin, hlevel, captureEvent_of_initialised p hin]
  | _ => cases hmakes

/-- The step lemma. -/
theorem servesTo_iff (h : Hub) (request : Request) (h' : Hub) :
    ServesTo p h request h' ↔ request.sweeps p h = true ∧ serve p h request = h' := by
  rw [ServesTo, Request.sweeps]
  cases hcall : request.call h with
  | none => simp
  | some c =>
      simp only [Option.all_some, Hub.comesTo_iff, serve_of_call p hcall]
      constructor
      · rintro ⟨result, ⟨hsweeps, rfl⟩, rfl⟩
        exact ⟨hsweeps, rfl⟩
      · rintro ⟨hsweeps, rfl⟩
        exact ⟨_, ⟨hsweeps, rfl⟩, rfl⟩

/-- A run comes to its end if and only if all of its calls are defined, and then in
the hub to which the calls lead. -/
theorem servesAllTo_iff (h : Hub) (requests : List Request) (h' : Hub) :
    ServesAllTo p h requests h' ↔
      sweepsAll p h requests = true ∧ serveAll p h requests = h' := by
  induction requests generalizing h with
  | nil =>
      constructor
      · rintro ⟨⟩
        exact ⟨rfl, rfl⟩
      · rintro ⟨-, rfl⟩
        exact .nil h
  | cons request requests ih =>
      rw [sweepsAll, Bool.and_eq_true, and_assoc]
      constructor
      · rintro (_ | ⟨hfirst, hrest⟩)
        obtain ⟨hsweeps, rfl⟩ := (servesTo_iff p h request _).mp hfirst
        exact ⟨hsweeps, (ih _).mp hrest⟩
      · rintro ⟨hsweeps, hrest⟩
        exact .cons ((servesTo_iff p h request _).mpr ⟨hsweeps, rfl⟩) ((ih _).mpr hrest)

theorem sweepsAll_append (h : Hub) (requests : List Request) (request : Request) :
    sweepsAll p h (requests ++ [request]) =
      (sweepsAll p h requests && request.sweeps p (serveAll p h requests)) := by
  induction requests generalizing h with
  | nil => exact Bool.and_true _
  | cons first requests ih =>
      rw [List.cons_append, sweepsAll, sweepsAll, ih, Bool.and_assoc]
      rfl

/-- After these calls, `captureEvent` returns this id. -/
def ReturnsAfter (h : Hub) (requests : List Request) (c : Call) (eventId : Bytes) : Prop :=
  ∃ reached, ServesAllTo p h requests reached ∧
    match (Request.captureEvent c).call reached with
    | some c => ∃ after, reached.ComesTo p c (.ok eventId, after)
    | none => eventId = []

theorem returnsAfter_iff (h : Hub) (requests : List Request) (c : Call) (eventId : Bytes) :
    ReturnsAfter p h requests c eventId ↔
      sweepsAll p h (requests ++ [.captureEvent c]) = true ∧
        (captureEvent p (serveAll p h requests) c).1 = .ok eventId := by
  rw [sweepsAll_append, Bool.and_eq_true, and_assoc]
  simp only [ReturnsAfter, servesAllTo_iff, and_assoc, exists_and_left, exists_eq_left']
  apply and_congr_right
  intro _
  generalize serveAll p h requests = reached
  rw [Request.sweeps, Request.call, Request.call?, captureEvent, Hub.isInitialised]
  cases reached.initialised with
  | false => simp [eq_comm]
  | true =>
      simp only [if_true, Option.all_some, Hub.comesTo_iff, Bool.not_true, Bool.false_eq_true,
        if_false]
      constructor
      · rintro ⟨after, hsweeps, hcapture⟩
        exact ⟨hsweeps, by rw [hcapture]⟩
      · rintro ⟨hsweeps, hcapture⟩
        exact ⟨_, hsweeps, Prod.ext hcapture rfl⟩

end Api

end Sentry
