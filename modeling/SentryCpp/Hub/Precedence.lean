import SentryCpp.Hub.Payload

/-!
Where each member of a payload comes from. The three values of the hub come
first, then the members that the caller has given, then the parts of the scope
that have something in them.
-/

namespace Sentry

open StdString Calendar

/-- The fresh values of the hub. -/
def hubValue (eventId timestamp key : Bytes) : Option Json :=
  if key = lit "event_id" then some (.string eventId)
  else if key = lit "timestamp" then some (.string timestamp)
  else if key = lit "platform" then some (.string (lit "other"))
  else none

/-- What the scope has for a key: a part with something in it, or the level. -/
def Scope.valueOf (s : Scope) (key : Bytes) : Option Json :=
  if key = lit "breadcrumbs" then
    if s.breadcrumbs = [] then none else some s.getBreadcrumbs
  else if key = lit "tags" then if s.tags.toJson.empty then none else some s.tags.toJson
  else if key = lit "extra" then if s.extras.toJson.empty then none else some s.extras.toJson
  else if key = lit "transaction" then
    if s.transactionName = [] then none else some (.string s.transactionName)
  else if key = lit "release" then if s.release = [] then none else some (.string s.release)
  else if key = lit "level" then some (.string s.getLevelStr)
  else none

theorem lookup_optional (c : Prop) [Decidable c] (key other : Bytes) (value : Json) :
    Json.lookup other (if c then [(key, value)] else []) =
      if other = key then if c then some value else none else none := by
  by_cases hkey : other = key
  · split <;> simp [hkey, Json.lookup_cons]
  · rw [if_neg hkey]
    split <;> simp [Json.lookup_cons, Ne.symm hkey]

theorem lookup_unlessEmpty (c : Prop) [Decidable c] (key other : Bytes) (value : Json) :
    Json.lookup other (if c then [] else [(key, value)]) =
      if other = key then if c then none else some value else none := by
  have hnot := lookup_optional (¬c) key other value
  rwa [ite_not, ite_not] at hnot

/-- At most one part has the key. -/
theorem lookup_parts (s : Scope) (key : Bytes) : Json.lookup key s.parts = s.valueOf key := by
  have hlevel : Json.lookup key [(lit "level", .string s.getLevelStr)] =
      if key = lit "level" then some (.string s.getLevelStr) else none := by
    simp [Json.lookup_cons, eq_comm]
  simp only [Scope.parts, Json.lookup_append, lookup_optional, lookup_unlessEmpty, hlevel,
    Scope.valueOf]
  by_cases hkey : key ∈ scopeKeys
  · simp only [scopeKeys, List.mem_cons, List.not_mem_nil, or_false] at hkey
    rcases hkey with rfl | rfl | rfl | rfl | rfl | rfl <;> simp +decide
  · simp only [scopeKeys, List.mem_cons, List.not_mem_nil, or_false, not_or] at hkey
    simp [hkey]

/-- The values of the hub replace those of the event. -/
theorem lookup_stamped_eq (key : Bytes) (members : List (Bytes × Json))
    (eventId timestamp : Bytes) :
    Json.lookup key (stamped members eventId timestamp) =
      (hubValue eventId timestamp key).or (Json.lookup key members) := by
  simp only [stamped, Json.lookup_insertOrAssign, hubValue]
  by_cases hkey : key ∈ hubKeys
  · simp only [hubKeys, List.mem_cons, List.not_mem_nil, or_false] at hkey
    rcases hkey with rfl | rfl | rfl <;> simp +decide
  · simp only [hubKeys, List.mem_cons, List.not_mem_nil, or_false, not_or] at hkey
    simp [hkey]

theorem hubValue_eq_none {key : Bytes} (h : key ∈ scopeKeys) (eventId timestamp : Bytes) :
    hubValue eventId timestamp key = none := by
  simp only [scopeKeys, List.mem_cons, List.not_mem_nil, or_false] at h
  unfold hubValue
  rcases h with rfl | rfl | rfl | rfl | rfl | rfl <;> simp +decide

theorem hubValue_isSome {key : Bytes} (h : key ∈ hubKeys) (eventId timestamp : Bytes) :
    (hubValue eventId timestamp key).isSome = true := by
  simp only [hubKeys, List.mem_cons, List.not_mem_nil, or_false] at h
  unfold hubValue
  rcases h with rfl | rfl | rfl <;> simp +decide

theorem sortedKeys_insertAll {parts members : List (Bytes × Json)}
    (h : Json.SortedKeys members) : Json.SortedKeys (insertAll parts members) := by
  induction parts generalizing members with
  | nil => exact h
  | cons part parts ih => exact ih (Json.sortedKeys_insertNew part.2 h)

theorem sortedKeys_stamped {members : List (Bytes × Json)} (h : Json.SortedKeys members)
    (eventId timestamp : Bytes) : Json.SortedKeys (stamped members eventId timestamp) :=
  Json.sortedKeys_insertOrAssign _
    (Json.sortedKeys_insertOrAssign _ (Json.sortedKeys_insertOrAssign _ h))

/-- What `captureEvent` dumps is an object that has at each key the value of the
hub, or else that of the event, or else that of the scope. So the caller's
values for the keys of the scope survive, and those for the keys of the hub do
not. -/
theorem contents_precedence (h : Hub) (c : Call) {members : List (Bytes × Json)}
    (hevent : asMembers c.event = some members) :
    ∃ payload, h.contents c = Json.dump (.object payload) ∧
      (Json.SortedKeys members → Json.SortedKeys payload) ∧
      (∀ key, Json.lookup key payload =
        (hubValue (Hub.generateUuid c.uuid) (iso8601 c.clock.timestamp) key).or
          ((Json.lookup key members).or (h.scope.valueOf key))) ∧
      (∀ key ∈ scopeKeys, ∀ value, Json.lookup key members = some value →
        Json.lookup key payload = some value) ∧
      ∀ key ∈ hubKeys, Json.lookup key payload =
        hubValue (Hub.generateUuid c.uuid) (iso8601 c.clock.timestamp) key := by
  rcases payload_cases h.scope c.event (Hub.generateUuid c.uuid) (iso8601 c.clock.timestamp) with
    ⟨hnone, -⟩ | ⟨own, hown, -, hpayload⟩
  · rw [hevent] at hnone
    cases hnone
  · rw [hevent] at hown
    obtain rfl := Option.some.inj hown
    have hlookup (key : Bytes) : Json.lookup key (insertAll h.scope.parts
        (stamped members (Hub.generateUuid c.uuid) (iso8601 c.clock.timestamp))) =
        (hubValue (Hub.generateUuid c.uuid) (iso8601 c.clock.timestamp) key).or
          ((Json.lookup key members).or (h.scope.valueOf key)) := by
      rw [lookup_insertAll, lookup_stamped_eq, lookup_parts, Option.or_assoc]
    refine ⟨_, ?_, ?_, hlookup, ?_, ?_⟩
    · rw [Hub.contents, hpayload]
      rfl
    · intro hsorted
      exact sortedKeys_insertAll (sortedKeys_stamped hsorted _ _)
    · intro key hkey value hvalue
      rw [hlookup, hubValue_eq_none hkey, hvalue]
      rfl
    · intro key hkey
      rw [hlookup]
      obtain ⟨value, hvalue⟩ := Option.isSome_iff_exists.mp (hubValue_isSome hkey _ _)
      rw [hvalue]
      rfl

/-- An event with a level and a timestamp of its own. -/
def debugCall : Call where
  event := .object [(lit "level", .string (lit "debug")), (lit "timestamp", .null)]
  uuid := zeroUuid
  clock := ⟨0, 0, 0, 0⟩

theorem contents_debugCall :
    ∃ payload, (Hub.new none none).contents debugCall = Json.dump (.object payload) ∧
      Json.lookup (lit "level") payload = some (.string (lit "debug")) ∧
      Json.lookup (lit "timestamp") payload = some (.string (iso8601 0)) := by
  obtain ⟨payload, hdump, -, -, hown, hhub⟩ :=
    contents_precedence (Hub.new none none) debugCall rfl
  refine ⟨payload, hdump, ?_, ?_⟩
  · exact hown _ (by decide) _ rfl
  · exact hhub _ (by decide)

end Sentry
