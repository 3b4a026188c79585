import SentryCpp.Hub.Limiter

/-!
When a payload can be sent. The payload of an event is an object with the
event's own members, the three values of the hub, and the parts of the scope
that the event does not have itself. It is dumped if and only if all of this
is well-formed UTF-8 (`contents_isOk`), where the values that the hub
overwrites do not count.
-/

namespace Sentry

open StdString Calendar

/-- The members of an event that can become a payload. Null counts as the
empty object. -/
def asMembers : Json → Option (List (Bytes × Json))
  | .null => some []
  | .object members => some members
  | _ => none

/-- The keys that the hub sets in every payload. -/
def hubKeys : List Bytes := [lit "event_id", lit "timestamp", lit "platform"]

/-- What the scope has for a payload, in the order of `applyToEvent`. -/
def Scope.parts (s : Scope) : List (Bytes × Json) :=
  (if s.breadcrumbs ≠ [] then [(lit "breadcrumbs", s.getBreadcrumbs)] else []) ++
  (if s.tags.toJson.empty then [] else [(lit "tags", s.tags.toJson)]) ++
  (if s.extras.toJson.empty then [] else [(lit "extra", s.extras.toJson)]) ++
  (if s.transactionName ≠ [] then [(lit "transaction", .string s.transactionName)] else []) ++
  (if s.release ≠ [] then [(lit "release", .string s.release)] else []) ++
  [(lit "level", .string s.getLevelStr)]

def insertAll (parts members : List (Bytes × Json)) : List (Bytes × Json) :=
  parts.foldl (fun members part => Json.insertNew part.1 part.2 members) members

theorem insertAll_append (parts parts' members : List (Bytes × Json)) :
    insertAll (parts ++ parts') members = insertAll parts' (insertAll parts members) :=
  List.foldl_append ..

theorem applyToEvent_object (s : Scope) (members : List (Bytes × Json)) :
    s.applyToEvent (.object members) = .ok (.object (insertAll s.parts members)) := by
  simp only [Scope.applyToEvent, Scope.parts, insertAll_append]
  by_cases hcrumbs : s.breadcrumbs = [] <;> by_cases htags : s.tags.toJson.empty = true <;>
    by_cases hextras : s.extras.toJson.empty = true <;>
    by_cases htransaction : s.transactionName = [] <;> by_cases hrelease : s.release = [] <;>
    simp [hcrumbs, htags, hextras, htransaction, hrelease, Json.pushBack, insertAll, pure,
      Except.pure, bind, Except.bind]

theorem all_insertAll {parts : List (Bytes × Json)} (hnodup : (parts.map Prod.fst).Nodup)
    (members : List (Bytes × Json)) (test : Bytes × Json → Bool) :
    (insertAll parts members).all test =
      (members.all test &&
        parts.all fun part => (Json.lookup part.1 members).isSome || test part) := by
  induction parts generalizing members with
  | nil => simp [insertAll]
  | cons part parts ih =>
      obtain ⟨hnotMem, hrest⟩ := List.nodup_cons.mp hnodup
      have hlookup : (parts.all fun other =>
          (Json.lookup other.1 (Json.insertNew part.1 part.2 members)).isSome || test other) =
          parts.all fun other => (Json.lookup other.1 members).isSome || test other := by
        rw [Bool.eq_iff_iff, List.all_eq_true, List.all_eq_true]
        apply forall₂_congr
        intro other hother
        have hne : other.1 ≠ part.1 := by
          intro heq
          exact hnotMem (heq ▸ List.mem_map_of_mem hother)
        rw [Json.lookup_insertNew, if_neg hne]
      rw [insertAll, List.foldl_cons, ← insertAll, ih hrest, hlookup, Json.all_insertNew,
        List.all_cons, Bool.and_assoc]

/-- What is there already has precedence. -/
theorem lookup_insertAll (key : Bytes) (parts members : List (Bytes × Json)) :
    Json.lookup key (insertAll parts members) =
      (Json.lookup key members).or (Json.lookup key parts) := by
  induction parts generalizing members with
  | nil => simp [insertAll]
  | cons part parts ih =>
      rw [insertAll, List.foldl_cons, ← insertAll, ih, Json.lookup_insertNew, Json.lookup_cons]
      by_cases hkey : key = part.1
      · subst key
        cases Json.lookup part.1 members <;> simp
      · rw [if_neg hkey, if_neg (Ne.symm hkey)]

/-- The keys of the parts of a scope. -/
def scopeKeys : List Bytes :=
  [lit "breadcrumbs", lit "tags", lit "extra", lit "transaction", lit "release", lit "level"]

theorem parts_keys (s : Scope) : (s.parts.map Prod.fst).Sublist scopeKeys := by
  have hone (c : Prop) [Decidable c] (part : Bytes × Json) :
      ((if c then [part] else []).map Prod.fst).Sublist [part.1] := by
    split <;> simp
  have hone' (c : Prop) [Decidable c] (part : Bytes × Json) :
      ((if c then [] else [part]).map Prod.fst).Sublist [part.1] := by
    split <;> simp
  simp only [Scope.parts, List.map_append]
  exact (((((hone _ _).append (hone' _ _)).append (hone' _ _)).append (hone _ _)).append
    (hone _ _)).append (List.Sublist.refl _)

theorem parts_nodup (s : Scope) : (s.parts.map Prod.fst).Nodup :=
  List.Nodup.sublist (parts_keys s) (by decide)

/-- The event is null or an object, and its content is well-formed UTF-8
where the hub does not overwrite it. -/
def ownContentValid (event : Json) : Bool :=
  match asMembers event with
  | some members =>
      members.all fun member => hubKeys.contains member.1 || Json.utf8ValidMember member
  | none => false

/-- The parts of the scope that the event does not have itself are well-formed
UTF-8. -/
def scopeContentValid (s : Scope) (event : Json) : Bool :=
  s.parts.all fun part => (event.find part.1).isSome || Json.utf8ValidMember part

/-- The event with the values of the hub. -/
def stamped (members : List (Bytes × Json)) (eventId timestamp : Bytes) : List (Bytes × Json) :=
  Json.insertOrAssign (lit "platform") (.string (lit "other"))
    (Json.insertOrAssign (lit "timestamp") (.string timestamp)
      (Json.insertOrAssign (lit "event_id") (.string eventId) members))

theorem payload_cases (s : Scope) (event : Json) (eventId timestamp : Bytes) :
    (asMembers event = none ∧ ∃ e, Hub.payload s event eventId timestamp = .error e) ∨
    ∃ members, asMembers event = some members ∧
      (∀ key, event.find key = Json.lookup key members) ∧
      Hub.payload s event eventId timestamp =
        .ok (.object (insertAll s.parts (stamped members eventId timestamp))) := by
  have hobject (members : List (Bytes × Json)) :
      Hub.payload s (.object members) eventId timestamp =
        .ok (.object (insertAll s.parts (stamped members eventId timestamp))) :=
    applyToEvent_object s _
  cases event with
  | null => exact Or.inr ⟨[], rfl, fun _ => rfl, hobject []⟩
  | object members => exact Or.inr ⟨members, rfl, fun _ => rfl, hobject members⟩
  | _ => exact Or.inl ⟨rfl, _, rfl⟩

theorem generateUuid_valid (uuid : Uuid) : Utf8.valid (Hub.generateUuid uuid) = true := by
  apply Utf8.valid_of_ascii
  intro b hb
  obtain ⟨byte, _, hbyte⟩ := List.mem_flatMap.mp hb
  have hlt : byte.toNat < 256 := byte.toNat_lt
  simp only [List.mem_cons, List.not_mem_nil, or_false] at hbyte
  rcases hbyte with rfl | rfl
  · exact digitChar_ascii (by omega)
  · exact digitChar_ascii (by omega)

private theorem all_stamped (members : List (Bytes × Json)) (uuid : Uuid) (instant : Nat) :
    (stamped members (Hub.generateUuid uuid) (iso8601 instant)).all Json.utf8ValidMember =
      members.all fun member => hubKeys.contains member.1 || Json.utf8ValidMember member := by
  have hplatform : Json.utf8ValidMember (lit "platform", .string (lit "other")) = true := by
    decide
  have htimestamp : Json.utf8ValidMember (lit "timestamp", .string (iso8601 instant)) = true := by
    rw [Json.utf8ValidMember, Json.utf8Valid, iso8601_valid, Bool.and_true]
    rfl
  have hid : Json.utf8ValidMember (lit "event_id", .string (Hub.generateUuid uuid)) = true := by
    rw [Json.utf8ValidMember, Json.utf8Valid, generateUuid_valid, Bool.and_true]
    rfl
  simp only [stamped, Json.all_insertOrAssign, hplatform, htimestamp, hid, Bool.true_and]
  simp [hubKeys, Bool.or_assoc]

theorem lookup_stamped {key : Bytes} (hkey : key ∈ scopeKeys)
    (members : List (Bytes × Json)) (eventId timestamp : Bytes) :
    Json.lookup key (stamped members eventId timestamp) = Json.lookup key members := by
  have hdisjoint : ∀ key ∈ scopeKeys,
      key ≠ lit "platform" ∧ key ≠ lit "timestamp" ∧ key ≠ lit "event_id" := by decide
  obtain ⟨hplatform, htimestamp, hid⟩ := hdisjoint key hkey
  rw [stamped, Json.lookup_insertOrAssign, if_neg hplatform, Json.lookup_insertOrAssign,
    if_neg htimestamp, Json.lookup_insertOrAssign, if_neg hid]

theorem contents_isOk (h : Hub) (c : Call) :
    (h.contents c).isOk = (ownContentValid c.event && scopeContentValid h.scope c.event) := by
  unfold Hub.contents ownContentValid scopeContentValid
  rcases payload_cases h.scope c.event (Hub.generateUuid c.uuid) (iso8601 c.clock.timestamp) with
    ⟨hnone, e, herror⟩ | ⟨members, hmembers, hfind, hok⟩
  · rw [hnone, herror]
    rfl
  · rw [hmembers, hok]
    simp only [bind, Except.bind, Json.dump_isOk, Json.utf8Valid, Json.utf8ValidMembers_eq]
    rw [all_insertAll (parts_nodup _), all_stamped]
    congr 1
    rw [Bool.eq_iff_iff, List.all_eq_true, List.all_eq_true]
    apply forall₂_congr
    intro part hpart
    rw [lookup_stamped ((parts_keys h.scope).subset (List.mem_map_of_mem hpart)), hfind]

variable (p : Platform)

/-- The call does not throw: the message is a string if there is one, and the
event is dropped or can be dumped. -/
def Hub.returns (h : Hub) (c : Call) : Bool :=
  messageOk c.event && (tooOften p h.lastUniqueEvents c ||
    (ownContentValid c.event && scopeContentValid h.scope c.event))

theorem captureEvent_isOk (h : Hub) (c : Call) :
    (h.captureEvent p c.event c.uuid c.clock).1.isOk = h.returns p c := by
  have hcontents := contents_isOk h c
  unfold Hub.returns
  rcases captureEvent_cases p h c with ⟨hmessage, e, hcapture⟩ | ⟨hmessage, htoo, hcapture⟩ |
    ⟨hmessage, htoo, e, herror, hcapture⟩ | ⟨hmessage, htoo, contents, hok, hcapture⟩
  · rw [hcapture, hmessage]
    rfl
  · rw [hcapture, hmessage, htoo]
    rfl
  · rw [hcapture, hmessage, htoo, ← hcontents, herror]
    rfl
  · rw [hcapture, hmessage, htoo, ← hcontents, hok]
    rfl

/-- The event gets through: it is not dropped, and it can be dumped. -/
def Hub.emits (h : Hub) (c : Call) : Bool :=
  !tooOften p h.lastUniqueEvents c && h.returns p c

/-- `captureEvent_cases` for callers to whom an event that is dropped and one
that throws are the same. -/
theorem captureEvent_emits_cases (h : Hub) (c : Call) :
    (h.emits p c = false ∧ ∃ result, (result = .ok [] ∨ ∃ e, result = .error e) ∧
      h.captureEvent p c.event c.uuid c.clock = (result, h.entered p c)) ∨
    (h.emits p c = true ∧ ∃ contents, h.contents c = .ok contents ∧
      h.captureEvent p c.event c.uuid c.clock = (.ok (Hub.generateUuid c.uuid),
        ((h.entered p c).sendSampled p contents c.clock.seed).addBreadcrumb c.event
          c.clock.crumb)) := by
  have hisOk := captureEvent_isOk p h c
  unfold Hub.emits
  rcases captureEvent_cases p h c with ⟨-, e, hcapture⟩ | ⟨-, htoo, hcapture⟩ |
    ⟨-, -, e, -, hcapture⟩ | ⟨-, hfew, contents, hcontents, hcapture⟩
  · rw [hcapture] at hisOk ⊢
    exact Or.inl ⟨by rw [← hisOk]; exact Bool.and_false _, _, Or.inr ⟨e, rfl⟩, rfl⟩
  · rw [hcapture]
    exact Or.inl ⟨by rw [htoo]; rfl, _, Or.inl rfl, rfl⟩
  · rw [hcapture] at hisOk ⊢
    exact Or.inl ⟨by rw [← hisOk]; exact Bool.and_false _, _, Or.inr ⟨e, rfl⟩, rfl⟩
  · rw [hcapture] at hisOk ⊢
    exact Or.inr ⟨by rw [← hisOk, hfew]; rfl, contents, hcontents, rfl⟩

end Sentry
