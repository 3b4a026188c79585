import SentryCpp.Foundation.Generator
import SentryCpp.Hub.Window
import SentryCpp.Hub.Payload

/-!
The sampling of events. Before it draws, `captureEvent` seeds the generator
with the second of the clock. So the values that it compares with the sample
rate are the first outputs for these seeds, and all events of one second have
the same value. As successive outputs of one sequence they pass only while
there is one of them (`draws_successive_iff`).
-/

namespace Sentry

open StdString

/-- A platform with the generator of its C library. -/
def Platform.withGenerator (p : Platform) (g : Generator UInt32 Nat) : Platform :=
  { p with rand := g.first }

/-- `std::srand`, `std::rand` and the remainder: the value that is compared
with the sample rate, and the state of the generator. -/
def sample (g : Generator UInt32 Nat) (_ : g.State) (now : Nat) : Nat × g.State :=
  let (value, s) := g.rand (g.srand (UInt32.ofNat now))
  (value % 100, s)

variable (p : Platform)

/-- The values that the calls compare with the sample rate. -/
def draws (g : Generator UInt32 Nat) : g.State → Hub → List Call → List Nat
  | _, _, [] => []
  | s, h, c :: calls =>
      let after := (h.captureEvent (p.withGenerator g) c.event c.uuid c.clock).2
      if h.emits (p.withGenerator g) c then
        let (value, s) := sample g s c.clock.seed
        value :: draws g s after calls
      else draws g s after calls

/-- The calls whose events get as far as the sampling. -/
def sampledCalls (h : Hub) : List Call → List Call
  | [] => []
  | c :: calls =>
      let after := (h.captureEvent p c.event c.uuid c.clock).2
      if h.emits p c then c :: sampledCalls after calls else sampledCalls after calls

/-- The event is sent if and only if the value is below the sample rate. -/
theorem httpClient_captureEvent {g : Generator UInt32 Nat} (s : g.State) {h : Hub} {c : Call}
    (hemits : h.emits (p.withGenerator g) c = true) :
    ∃ contents, h.contents c = .ok contents ∧
      (h.captureEvent (p.withGenerator g) c.event c.uuid c.clock).2.httpClient =
        if ((sample g s c.clock.seed).1 : Int) < h.sampleRate then
          h.httpClient.map fun t => t.sendEvent contents
        else h.httpClient := by
  rcases captureEvent_emits_cases (p.withGenerator g) h c with
    ⟨hnot, -⟩ | ⟨-, contents, hcontents, hcapture⟩
  · rw [hemits] at hnot
    cases hnot
  · refine ⟨contents, hcontents, ?_⟩
    rw [hcapture]
    simp only [Hub.addBreadcrumb, Hub.sendSampled]
    split
    · rename_i hlow
      rw [if_pos (by exact hlow)]
      rfl
    · rename_i hhigh
      rw [if_neg (by exact hhigh)]
      rfl

/-- What decides which events are dropped. -/
structure SameSight (h h' : Hub) : Prop where
  table : h.lastUniqueEvents = h'.lastUniqueEvents
  scope : h.scope = h'.scope

theorem SameSight.emits {h h' : Hub} (hs : SameSight h h') (g : Generator UInt32 Nat) (c : Call) :
    h.emits (p.withGenerator g) c = h'.emits p c := by
  simp only [Hub.emits, Hub.returns, hs.table, hs.scope]
  rfl

theorem scope_captureEvent (h : Hub) (c : Call) :
    (h.captureEvent p c.event c.uuid c.clock).2.scope =
      if h.emits p c then (h.addBreadcrumb c.event c.clock.crumb).scope else h.scope := by
  rcases captureEvent_emits_cases p h c with
    ⟨hnot, result, -, hcapture⟩ | ⟨hemits, contents, -, hcapture⟩
  · rw [hcapture, hnot]
    rfl
  · rw [hcapture, hemits, sendSampled_eq]
    rfl

/-- The generator has no say in what is dropped later. -/
theorem SameSight.captureEvent {h h' : Hub} (hs : SameSight h h') (g : Generator UInt32 Nat)
    (c : Call) :
    SameSight (h.captureEvent (p.withGenerator g) c.event c.uuid c.clock).2
      (h'.captureEvent p c.event c.uuid c.clock).2 := by
  constructor
  · rw [table_captureEvent, table_captureEvent, hs.table]
    rfl
  · rw [scope_captureEvent, scope_captureEvent, hs.emits]
    simp only [Hub.addBreadcrumb, hs.scope]

/-- The draws are the first outputs for the seconds of the events. -/
theorem draws_eq (g : Generator UInt32 Nat) (s : g.State) {h h' : Hub} (hs : SameSight h h')
    (calls : List Call) :
    draws p g s h calls =
      ((sampledCalls p h' calls).map fun c => UInt32.ofNat c.clock.seed).map
        fun seed => g.first seed % 100 := by
  induction calls generalizing s h h' with
  | nil => rfl
  | cons c calls ih =>
      simp only [draws, sampledCalls, hs.emits]
      split
      · simp only [List.map_cons, ih _ (hs.captureEvent p g c)]
        rfl
      · exact ih s (hs.captureEvent p g c)

theorem mem_of_mem_sampledCalls {h : Hub} {calls : List Call} {c : Call}
    (hc : c ∈ sampledCalls p h calls) : c ∈ calls := by
  induction calls generalizing h with
  | nil => cases hc
  | cons first calls ih =>
      simp only [sampledCalls] at hc
      split at hc
      · rcases List.mem_cons.mp hc with rfl | hrest
        · exact List.mem_cons_self
        · exact List.mem_cons_of_mem first (ih hrest)
      · exact List.mem_cons_of_mem first (ih hc)

/-- In one second all draws are equal: the first decision is that for all. -/
theorem draws_eq_of_same_second (g : Generator UInt32 Nat) (s : g.State) (h : Hub)
    {calls : List Call} {now : Nat} (hnow : ∀ c ∈ calls, c.clock.seed = now) :
    ∀ value ∈ draws p g s h calls, value = g.first (UInt32.ofNat now) % 100 := by
  rw [draws_eq p g s ⟨rfl, rfl⟩]
  intro value hvalue
  rw [List.map_map] at hvalue
  obtain ⟨c, hc, rfl⟩ := List.mem_map.mp hvalue
  rw [Function.comp_apply, hnow c (mem_of_mem_sampledCalls p hc)]

/-- For every generator the values are successive outputs of one sequence, if
and only if at most one event of the run gets as far as the sampling. -/
theorem draws_successive_iff (h : Hub) (calls : List Call) :
    (∀ (g : Generator UInt32 Nat) (s : g.State),
      g.Successive (fun value => value % 100) (draws p g s h calls)) ↔
    (sampledCalls p h calls).length ≤ 1 := by
  have hdistinct : 0 % 100 ≠ 1 % 100 := by decide
  rw [← List.length_map (fun c : Call => UInt32.ofNat c.clock.seed),
    ← Generator.successive_first_iff (f := fun value => value % 100) hdistinct]
  apply forall₂_congr
  intro g s
  rw [draws_eq p g s ⟨rfl, rfl⟩]

/-- Two events in one second have the same draw, where the generator would
have given 0 and 1. -/
theorem draws_not_successive :
    ¬ ∀ (p : Platform) (g : Generator UInt32 Nat) (s : g.State) (h : Hub) (calls : List Call),
      g.Successive (fun value => value % 100) (draws p g s h calls) := by
  intro hall
  have hdraws : draws (platformOf []) (.alternating UInt32 0 1) false (Hub.new none none)
      [reportAt 0, reportAt 0] = [0, 0] := by decide +kernel
  have hsuccessive := hall (platformOf []) (.alternating UInt32 0 1) false (Hub.new none none)
    [reportAt 0, reportAt 0]
  rw [hdraws] at hsuccessive
  have hdistinct : 0 % 100 ≠ 1 % 100 := by decide
  exact Generator.not_successive_alternating hdistinct 0 [] hsuccessive

end Sentry
