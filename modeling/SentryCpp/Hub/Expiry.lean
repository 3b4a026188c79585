import SentryCpp.Foundation.Iterators
import SentryCpp.Hub.Elapsed

/-!
The loop of `removeOldEventsFromList`, with the iterator that it goes through
the table with. It has defined behaviour only while no entry is old enough to be
removed: it advances from the entry that it has just erased.
`Hub.removeOldEventsFromList` is what the loop does where it goes on with the
next entry that is still there.
-/

namespace Sentry

open StdString Calendar

namespace Hub

variable (p : Platform)

/-- The loop of `removeOldEventsFromList` at the time `currTime`. -/
def removeOldEventsLoop (table : NodeMap Bytes Bytes) (currTime fuel : Nat) :
    Option (Except IteratorFault (NodeMap.Traversal Bytes Bytes)) :=
  table.eraseExpired (oldEnoughToRemove p currTime) fuel

/-- The sweep is done as it should be: every entry is visited, no iterator to an
erased entry is used, and the entries that are not too old stay in their order. -/
def SweepsTable (table : NodeMap Bytes Bytes) (currTime : Nat) : Prop :=
  ∃ fuel t, removeOldEventsLoop p table currTime fuel = some (.ok t) ∧
    t.visited = table.toMultimap.toList ∧
    t.container.toMultimap.toList =
      table.toMultimap.toList.filter fun entry => !oldEnoughToRemove p currTime entry

/-- The sweep is done as it should be if and only if there is nothing to sweep. -/
theorem sweepsTable_iff (table : NodeMap Bytes Bytes) (currTime : Nat) :
    SweepsTable p table currTime ↔
      ∀ entry ∈ table.toMultimap.toList, oldEnoughToRemove p currTime entry = false :=
  table.eraseExpired_keeps_iff

/-- Where the loop comes to its end, it leaves the table of
`removeOldEventsFromList`. -/
theorem removeOldEventsLoop_refines {h : Hub} {table : NodeMap Bytes Bytes} {currTime fuel : Nat}
    {t : NodeMap.Traversal Bytes Bytes} (htable : table.toMultimap = h.lastUniqueEvents)
    (hloop : removeOldEventsLoop p table currTime fuel = some (.ok t)) :
    t.container.toMultimap = (h.removeOldEventsFromList p currTime).lastUniqueEvents := by
  have hlive := table.eraseExpired_ends_iff.mp ⟨fuel, t, hloop⟩
  have hsame : t.container = table := by
    cases Loop.loop_unique hloop (NodeMap.eraseExpired_of_live hlive)
    rfl
  rw [hsame, removeOldEventsFromList, htable, Multimap.sweep_of_live]
  rwa [← htable]

/-- One event of the first second, in the node with the address 1. -/
def oneEvent : NodeMap Bytes Bytes where
  nodes := [(1, lit "m", iso8601 0)]
  nodup := List.nodup_singleton 1
  sorted := List.pairwise_singleton _ _

/-- An hour and a second later the event is old enough to be removed. -/
theorem not_sweepsTable :
    ¬ ∀ (p : Platform) (table : NodeMap Bytes Bytes) (currTime : Nat),
      SweepsTable p table currTime := by
  intro hall
  have hlive := oneEvent.eraseExpired_keeps_iff.mp
    (hall (platformIn summerZone (remains 0) (remains 0) fun _ => 0) oneEvent 3601)
  have hold := hlive (lit "m", iso8601 0) List.mem_cons_self
  revert hold
  decide

end Hub

end Sentry
