import SentryCpp.Foundation.Snapshot
import SentryCpp.Hub.Payload

/-!
`captureEvent` beside other threads. `setTag`, `setExtra` and `addBreadcrumb`
hold `m_scopeMutex`, each for its own call. `captureEvent` does not take it for
`applyToEvent`, which reads the five fields of the scope one after the other,
so that calls of other threads come in between. The payload shows one state of
the scope if no such call outdates a field that was read and no later one
changes a field that is still to be read. If not, it can show a tag and miss
the breadcrumb that the same thread has recorded before it set the tag.
-/

namespace Sentry

open StdString Calendar

/-- What `applyToEvent` reads of the scope, in its order. -/
inductive ScopeField where
  | breadcrumbs
  | tags
  | extras
  | transaction
  | release
  deriving DecidableEq, Repr

namespace ScopeField

def all : List ScopeField := [.breadcrumbs, .tags, .extras, .transaction, .release]

/-- The key of the field in the payload. -/
def key : ScopeField → Bytes
  | .breadcrumbs => lit "breadcrumbs"
  | .tags => lit "tags"
  | .extras => lit "extra"
  | .transaction => lit "transaction"
  | .release => lit "release"

end ScopeField

/-- The value that goes into the payload, if there is one. -/
def Scope.field (s : Scope) : ScopeField → Option Json
  | .breadcrumbs => if s.breadcrumbs ≠ [] then some s.getBreadcrumbs else none
  | .tags => if s.tags.toJson.empty then none else some s.tags.toJson
  | .extras => if s.extras.toJson.empty then none else some s.extras.toJson
  | .transaction => if s.transactionName ≠ [] then some (.string s.transactionName) else none
  | .release => if s.release ≠ [] then some (.string s.release) else none

def pushField (event : Json) (entry : ScopeField × Option Json) : Except Json.TypeError Json :=
  match entry.2 with
  | some value => event.pushBack entry.1.key value
  | none => .ok event

/-- The payload from what was read of the scope. The level never changes. -/
def applyTaken (level : EventLevel) (taken : List (ScopeField × Option Json)) (event : Json) :
    Except Json.TypeError Json := do
  let event ← taken.foldlM pushField event
  event.pushBack (lit "level") (.string (levelToString level))

/-- Without another thread the reads are `applyToEvent`. -/
theorem applyToEvent_eq_applyTaken (s : Scope) (event : Json) :
    s.applyToEvent event =
      applyTaken s.level (ScopeField.all.map fun field => (field, s.field field)) event := by
  have hpush {c : Prop} [Decidable c] (field : ScopeField) (event value : Json)
      (rest : Json → Except Json.TypeError Json) :
      (pushField event (field, if c then some value else none) >>= rest) =
        if c then event.pushBack field.key value >>= rest else rest event := by
    split <;> rfl
  have hpush' {c : Prop} [Decidable c] (field : ScopeField) (event value : Json)
      (rest : Json → Except Json.TypeError Json) :
      (pushField event (field, if c then none else some value) >>= rest) =
        if c then rest event else event.pushBack field.key value >>= rest := by
    split <;> rfl
  simp only [applyTaken, ScopeField.all, List.map_cons, List.map_nil, List.foldlM_cons,
    List.foldlM_nil, bind_assoc, pure_bind]
  simp only [Scope.field, hpush, hpush']
  rfl

/-- A call of another thread. -/
inductive Setter where
  | setTag (key value : Bytes)
  | setExtra (key value : Bytes)
  | addBreadcrumb (attributes : Json) (now : Nat)

def Hub.set (h : Hub) : Setter → Hub
  | .setTag key value => h.setTag key value
  | .setExtra key value => h.setExtra key value
  | .addBreadcrumb attributes now => h.addBreadcrumb attributes now

def Hub.field (h : Hub) (field : ScopeField) : Option Json := h.scope.field field

abbrev Capturing := Snapshot.World Hub ScopeField (Option Json)

/-- `captureEvent` in front of `applyToEvent`. -/
def Hub.capturing (h : Hub) : Capturing := ⟨h, ScopeField.all, []⟩

abbrev capturingStep := Snapshot.step Hub.field Hub.set

theorem level_set (h : Hub) (call : Setter) : (h.set call).scope.level = h.scope.level := by
  cases call with
  | setTag key value =>
      simp only [Hub.set, Hub.setTag]
      split <;> rfl
  | setExtra key value => rfl
  | addBreadcrumb attributes now =>
      simp only [Hub.set, Hub.addBreadcrumb, Scope.addBreadcrumb]
      split <;> rfl

theorem level_of_run {w v : Capturing} {schedule : List (Snapshot.Action Setter)}
    (hrun : Transition.run capturingStep w schedule = some v) :
    v.shared.scope.level = w.shared.scope.level := by
  have hkeep : ∀ (u : Capturing) (a : Snapshot.Action Setter) (u' : Capturing),
      u.shared.scope.level = w.shared.scope.level → capturingStep u a = some u' →
      u'.shared.scope.level = w.shared.scope.level := by
    intro u a u' hlevel hstep
    cases a with
    | read =>
        cases hunread : u.unread with
        | nil => simp [Snapshot.step, hunread] at hstep
        | cons field unread =>
            simp only [Snapshot.step, hunread, Option.some.injEq] at hstep
            subst u'
            exact hlevel
    | write call =>
        cases hstep
        exact (level_set u.shared call).trans hlevel
  exact Transition.run_invariant hkeep rfl hrun

/-- What was read of one state in all five fields is the payload of this
state. -/
theorem applyTaken_of_shows {h : Hub} {taken : List (ScopeField × Option Json)}
    (hfields : taken.map Prod.fst = ScopeField.all) (hshows : Snapshot.Shows Hub.field h taken)
    (event : Json) : applyTaken h.scope.level taken event = h.scope.applyToEvent event := by
  have htaken : taken = ScopeField.all.map fun field => (field, h.scope.field field) := by
    rw [← hfields, List.map_map]
    conv => lhs; rw [← List.map_id taken]
    apply List.map_congr_left
    intro entry hentry
    exact Prod.ext rfl (hshows entry hentry)
  rw [applyToEvent_eq_applyTaken, htaken]

/-- In every run: if no call of another thread that outdates a field already
read changes a field that is still to be read, what was read belongs to one
state of the scope, and with the last read the payload is that of this
state. -/
theorem payload_shows_one_scope {h : Hub} {schedule : List (Snapshot.Action Setter)}
    {w : Capturing}
    (hfits : Transition.AllSteps capturingStep (Snapshot.Fits Hub.field Hub.set) h.capturing
      schedule)
    (hrun : Transition.run capturingStep h.capturing schedule = some w) :
    ∃ s, Snapshot.Visited Hub.field Hub.set h.capturing schedule s ∧
      Snapshot.Shows Hub.field s w.taken ∧
      (w.unread = [] → ∀ event,
        applyTaken w.shared.scope.level w.taken event = s.scope.applyToEvent event) := by
  obtain ⟨s, hvisited, hshows⟩ := Snapshot.consistent_of_run rfl hfits hrun
  refine ⟨s, hvisited, hshows, ?_⟩
  intro hunread event
  have hfields := Snapshot.fields_of_run hrun
  rw [hunread, List.append_nil] at hfields
  obtain ⟨before, after, v, -, hbefore, rfl⟩ := hvisited
  rw [level_of_run hrun, ← level_of_run hbefore]
  exact applyTaken_of_shows hfields hshows event

/-- Another thread sets a tag that is still to be read, and then records a
breadcrumb when the breadcrumbs have been read. -/
def betweenReads : List (Snapshot.Action Setter) :=
  [.read, .write (.setTag (lit "k") (lit "v")), .read, .write (.addBreadcrumb .null 0), .read,
    .read, .read]

theorem payload_shows_one_scope_betweenReads :
    ∃ w, Transition.run capturingStep (Hub.new none none).capturing betweenReads = some w ∧
      w.taken.map (fun entry => (entry.1, entry.2.isSome)) =
        [(.breadcrumbs, false), (.tags, true), (.extras, false), (.transaction, false),
          (.release, false)] ∧
      ∃ s, Snapshot.Visited Hub.field Hub.set (Hub.new none none).capturing betweenReads s ∧
        ∀ event, applyTaken w.shared.scope.level w.taken event = s.scope.applyToEvent event := by
  have hfits : Transition.AllSteps capturingStep (Snapshot.Fits Hub.field Hub.set)
      (Hub.new none none).capturing betweenReads := by
    refine ⟨trivial, ?_⟩
    rintro _ ⟨⟩
    -- the tag leaves the breadcrumbs that were read as they are
    refine ⟨fun hnot => absurd ?_ hnot, ?_⟩
    · intro entry hentry
      obtain rfl := List.mem_singleton.mp hentry
      rfl
    rintro _ ⟨⟩
    refine ⟨trivial, ?_⟩
    rintro _ ⟨⟩
    -- the breadcrumb outdates them, but changes nothing that is still to be read
    refine ⟨fun _ field hfield => ?_, ?_⟩
    · cases field with
      | breadcrumbs => exact absurd hfield (by decide)
      | _ => rfl
    iterate 3
      rintro _ ⟨⟩
      refine ⟨trivial, ?_⟩
    exact fun _ _ => trivial
  obtain ⟨s, hvisited, -, hpayload⟩ := payload_shows_one_scope hfits rfl
  exact ⟨_, rfl, rfl, s, hvisited, hpayload rfl⟩

/-- Between the reads of the breadcrumbs and of the tags another thread
records a breadcrumb and sets a tag. -/
def tornRead : List (Snapshot.Action Setter) :=
  [.read, .write (.addBreadcrumb .null 0), .write (.setTag (lit "k") (lit "v")), .read, .read,
    .read, .read]

/-- The payload of `tornRead` has the tag and not the breadcrumb, and no state
of the scope is like that. -/
theorem tornRead_shows_no_scope :
    ¬ ∀ (h : Hub) (schedule : List (Snapshot.Action Setter)) (w : Capturing),
      Transition.run capturingStep h.capturing schedule = some w →
      ∃ s, Snapshot.Visited Hub.field Hub.set h.capturing schedule s ∧
        Snapshot.Shows Hub.field s w.taken := by
  intro hall
  obtain ⟨s, ⟨before, after, v, hschedule, hbefore, rfl⟩, hshows⟩ :=
    hall (Hub.new none none) tornRead _ rfl
  have hordered : ∀ before ∈ tornRead.inits,
      (Transition.run capturingStep (Hub.new none none).capturing before).all (fun v =>
        (v.shared.field .tags).isNone || (v.shared.field .breadcrumbs).isSome) = true := by
    decide
  have hstate := hordered before ((List.mem_inits _ _).mpr ⟨after, hschedule.symm⟩)
  have hcrumbs := hshows _ List.mem_cons_self
  have htags := hshows _ (List.mem_cons_of_mem _ List.mem_cons_self)
  rw [hbefore, Option.all_some, ← hcrumbs, ← htags] at hstate
  cases hstate

end Sentry
