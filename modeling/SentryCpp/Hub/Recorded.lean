import SentryCpp.Hub.Atomicity
import SentryCpp.Hub.Swept

/-!
What was recorded decides whether later events can be reported. A scope whose
strings are all well-formed UTF-8 blocks no event. Every call that records
well-formed strings keeps the scope so, and `captureEvent` itself keeps it so
with any event, because it records only what it could dump. A string that is
not UTF-8 is stored by `setTag`, `setExtra`, `addBreadcrumb` and `log` without
a check, and from then on blocks every event that carries it.

Apart from that, a report with a message has a result only as long as its sweep
finds nothing to erase, and the same holds for the calls in front of it.
-/

namespace Sentry

open StdString Calendar

/-- All strings of the scope are well-formed UTF-8. -/
structure Scope.Valid (s : Scope) : Prop where
  breadcrumbs : ∀ crumb ∈ s.breadcrumbs, crumb.utf8Valid = true
  tags : s.tags.toJson.utf8Valid = true
  extras : s.extras.toJson.utf8Valid = true
  transactionName : Utf8.valid s.transactionName = true
  release : Utf8.valid s.release = true

theorem levelToString_valid (level : EventLevel) : Utf8.valid (levelToString level) = true := by
  cases level <;> decide

theorem scopeContentValid_of_valid {s : Scope} (h : s.Valid) (event : Json) :
    scopeContentValid s event = true := by
  have hkeys : ∀ key ∈ scopeKeys, Utf8.valid key = true := by decide
  have hcrumbs : s.getBreadcrumbs.utf8Valid = true := by
    have hvalues : Utf8.valid (lit "values") = true := by decide
    simp only [Scope.getBreadcrumbs, Json.utf8Valid, Json.utf8ValidMembers, hvalues,
      Json.utf8ValidElements_eq, Bool.true_and, Bool.and_true, List.all_eq_true]
    exact h.breadcrumbs
  apply List.all_eq_true.mpr
  intro part hpart
  rw [Json.utf8ValidMember, hkeys part.1 ((parts_keys s).subset (List.mem_map_of_mem hpart)),
    Bool.true_and, Bool.or_eq_true]
  apply Or.inr
  simp only [Scope.parts, List.mem_append, List.mem_singleton] at hpart
  rcases hpart with ((((hpart | hpart) | hpart) | hpart) | hpart) | rfl
  · split at hpart
    · rw [List.mem_singleton.mp hpart]
      exact hcrumbs
    · cases hpart
  · split at hpart
    · cases hpart
    · rw [List.mem_singleton.mp hpart]
      exact h.tags
  · split at hpart
    · cases hpart
    · rw [List.mem_singleton.mp hpart]
      exact h.extras
  · split at hpart
    · rw [List.mem_singleton.mp hpart]
      exact h.transactionName
    · cases hpart
  · split at hpart
    · rw [List.mem_singleton.mp hpart]
      exact h.release
    · cases hpart
  · exact levelToString_valid s.level

/-- The fields of a breadcrumb that `addBreadcrumb` takes from its argument and
keeps; the category is overwritten. -/
def recordedKeys : List Bytes := [lit "type", lit "level", lit "data", lit "message"]

def recordedValid (attributes : Json) : Bool :=
  recordedKeys.all fun key => (attributes.find key).all Json.utf8Valid

private theorem all_copyField {attributes : Json} {key : Bytes}
    {test : Bytes × Json → Bool} {members : List (Bytes × Json)} (h : members.all test = true)
    (hfield : ∀ value, attributes.find key = some value → test (key, value) = true) :
    (Hub.copyField attributes key members).all test = true := by
  unfold Hub.copyField
  split
  · rename_i value hfind
    rw [Json.all_insertOrAssign, hfield value hfind, Bool.true_and, List.all_eq_true]
    intro member hmember
    rw [List.all_eq_true.mp h member hmember, Bool.or_true]
  · exact h

/-- The category is the level, so what the argument has there does not
matter. -/
theorem breadcrumbOf_valid {attributes : Json} (h : recordedValid attributes = true)
    (now : Nat) : (Json.object (Hub.breadcrumbOf attributes (iso8601 now))).utf8Valid = true := by
  let test (member : Bytes × Json) : Bool :=
    member.1 = lit "category" || Json.utf8ValidMember member
  have hfield (key : Bytes) (hkey : key ∈ recordedKeys) (value : Json)
      (hvalue : attributes.find key = some value) : test (key, value) = true := by
    have hvalid : value.utf8Valid = true := by
      have := List.all_eq_true.mp h key hkey
      rwa [hvalue] at this
    have hkeys : ∀ key ∈ recordedKeys, Utf8.valid key = true := by decide
    simp [test, Json.utf8ValidMember, hkeys key hkey, hvalid]
  have htimestamp : Json.utf8ValidMember (lit "timestamp", .string (iso8601 now)) = true := by
    rw [Json.utf8ValidMember, Json.utf8Valid, iso8601_valid, Bool.and_true]
    rfl
  have hstart : [(lit "level", Json.string (lit "info")),
      (lit "timestamp", .string (iso8601 now)),
      (lit "type", .string (lit "default"))].all test = true := by
    have hlevel : Json.utf8ValidMember (lit "level", .string (lit "info")) = true := by decide
    have htype : Json.utf8ValidMember (lit "type", .string (lit "default")) = true := by decide
    simp [test, htimestamp, hlevel, htype]
  have hcopied := all_copyField (all_copyField (all_copyField (all_copyField (all_copyField hstart
    (hfield (lit "type") (by decide))) (hfield (lit "level") (by decide)))
    (fun value _ => by simp [test] : ∀ value, attributes.find (lit "category") = some value →
      test (lit "category", value) = true))
    (hfield (lit "data") (by decide))) (hfield (lit "message") (by decide))
  rw [Json.utf8Valid, Json.utf8ValidMembers_eq, Hub.breadcrumbOf, Json.all_insertOrAssign,
    Bool.and_eq_true]
  refine ⟨?_, hcopied⟩
  have hcategory : Utf8.valid (lit "category") = true := by decide
  rw [Json.utf8ValidMember, hcategory, Bool.true_and]
  generalize Hub.copyField attributes (lit "message") _ = members at hcopied ⊢
  cases hlevel : Json.lookup (lit "level") members with
  | none => rfl
  | some value =>
      have hmember := List.all_eq_true.mp hcopied _ (Json.mem_of_lookup hlevel)
      have hne : lit "level" ≠ lit "category" := by decide
      simp only [test, hne, decide_false, Bool.false_or, Json.utf8ValidMember,
        Bool.and_eq_true] at hmember
      exact hmember.2

theorem Scope.Valid.addBreadcrumb {s : Scope} (h : s.Valid) {crumb : Json}
    (hcrumb : crumb.utf8Valid = true) : (s.addBreadcrumb crumb).Valid := by
  have hall : ∀ c ∈ s.breadcrumbs ++ [crumb], c.utf8Valid = true := by
    intro c hc
    rcases List.mem_append.mp hc with hold | hnew
    · exact h.breadcrumbs c hold
    · rwa [List.mem_singleton.mp hnew]
  unfold Scope.addBreadcrumb
  simp only
  split
  · exact ⟨fun c hc => hall c (List.mem_of_mem_tail hc), h.tags, h.extras, h.transactionName,
      h.release⟩
  · exact ⟨hall, h.tags, h.extras, h.transactionName, h.release⟩

/-- The strings of one write are well-formed, or it erases. -/
def writeValid (key value : Bytes) : Bool :=
  value.isEmpty || (Utf8.valid key && Utf8.valid value)

private theorem setValueMap_valid {key value : Bytes} (hwrite : writeValid key value = true)
    {m : ValueMap} (h : m.toJson.utf8Valid = true) :
    (Scope.setValueMap key value m).toJson.utf8Valid = true := by
  have herase : (m.erase key).toJson.utf8Valid = true := by
    cases m with
    | null => rfl
    | object members =>
        simp only [ValueMap.toJson, Json.utf8Valid, Json.utf8ValidMembers_eq, ValueMap.erase,
          List.all_eq_true] at h ⊢
        intro member hmember
        exact h member (List.mem_filter.mp hmember).1
  have hemplace (hvalue : value ≠ []) :
      (m.emplace key (.string value)).toJson.utf8Valid = true := by
    have hmember : Json.utf8ValidMember (key, .string value) = true := by
      simpa [writeValid, hvalue, Json.utf8ValidMember, Json.utf8Valid] using hwrite
    cases m with
    | null =>
        simp [ValueMap.toJson, ValueMap.emplace, Json.utf8Valid, Json.utf8ValidMembers_eq, hmember]
    | object members =>
        simp only [ValueMap.toJson, Json.utf8Valid, Json.utf8ValidMembers_eq] at h
        simp [ValueMap.toJson, ValueMap.emplace, Json.utf8Valid, Json.utf8ValidMembers_eq,
          Json.all_insertNew, h, hmember]
  unfold Scope.setValueMap
  split
  · split
    · exact herase
    · exact h
  · rename_i hvalue
    exact hemplace hvalue

theorem Scope.Valid.setTag {h : Hub} (hvalid : h.scope.Valid) {key value : Bytes}
    (hwrite : writeValid key value = true) : (h.setTag key value).scope.Valid := by
  unfold Hub.setTag
  split
  · refine ⟨hvalid.breadcrumbs, hvalid.tags, hvalid.extras, hvalid.transactionName, ?_⟩
    cases value with
    | nil => rfl
    | cons b bs =>
        simp only [writeValid, List.isEmpty_cons, Bool.false_or, Bool.and_eq_true] at hwrite
        exact hwrite.2
  · exact ⟨hvalid.breadcrumbs, setValueMap_valid hwrite hvalid.tags, hvalid.extras,
      hvalid.transactionName, hvalid.release⟩

theorem Scope.Valid.setExtra {h : Hub} (hvalid : h.scope.Valid) {key value : Bytes}
    (hwrite : writeValid key value = true) : (h.setExtra key value).scope.Valid :=
  ⟨hvalid.breadcrumbs, hvalid.tags, setValueMap_valid hwrite hvalid.extras,
    hvalid.transactionName, hvalid.release⟩

theorem ownContentValid_of_utf8Valid {members : List (Bytes × Json)}
    (h : (Json.object members).utf8Valid = true) : ownContentValid (.object members) = true := by
  rw [Json.utf8Valid, Json.utf8ValidMembers_eq, List.all_eq_true] at h
  apply List.all_eq_true.mpr
  intro member hmember
  rw [h member hmember, Bool.or_true]

/-- What can be dumped can be recorded. -/
theorem recordedValid_of_ownContentValid {event : Json} (h : ownContentValid event = true) :
    recordedValid event = true := by
  unfold ownContentValid at h
  cases event with
  | object members =>
      apply List.all_eq_true.mpr
      intro key hkey
      have hdisjoint : ∀ key ∈ recordedKeys, hubKeys.contains key = false := by decide
      change (Json.lookup key members).all Json.utf8Valid = true
      cases hlookup : Json.lookup key members with
      | none => rfl
      | some value =>
          have hmember := List.all_eq_true.mp h _ (Json.mem_of_lookup hlookup)
          rw [hdisjoint key hkey, Bool.false_or, Json.utf8ValidMember, Bool.and_eq_true] at hmember
          exact hmember.2
  | null => decide
  | _ => cases h

variable (p : Platform)

/-- `captureEvent` records nothing that it could not dump. -/
theorem Scope.Valid.captureEvent {h : Hub} (hvalid : h.scope.Valid) (c : Call) :
    (h.captureEvent p c.event c.uuid c.clock).2.scope.Valid := by
  rcases captureEvent_cases p h c with ⟨_, e, hcapture⟩ | ⟨_, _, hcapture⟩ |
    ⟨_, _, e, _, hcapture⟩ | ⟨_, _, contents, hok, hcapture⟩
  · rw [hcapture]
    exact hvalid
  · rw [hcapture]
    exact hvalid
  · rw [hcapture]
    exact hvalid
  · have hcontents := contents_isOk h c
    rw [hok] at hcontents
    have hown : ownContentValid c.event = true := (Bool.and_eq_true _ _ ▸ hcontents.symm).1
    rw [hcapture, sendSampled_eq]
    exact hvalid.addBreadcrumb
      (breadcrumbOf_valid (recordedValid_of_ownContentValid hown) c.clock.crumb)

namespace Api

/-- What the request records is well-formed UTF-8. A report needs no
condition. -/
def Request.clean : Request → Bool
  | .captureEvent _ => true
  | .addBreadcrumb crumb _ => recordedValid crumb
  | .setTag key value | .setExtra key value => writeValid key value
  | .log level message _ _ => isReported level || Utf8.valid message

theorem logBreadcrumb_valid {level : EventLevel} {message : Bytes}
    (hmessage : Utf8.valid message = true) :
    recordedValid (logBreadcrumb level message) = true := by
  apply recordedValid_of_ownContentValid
  apply ownContentValid_of_utf8Valid
  have hkeys : Utf8.valid (lit "category") = true ∧ Utf8.valid (lit "log") = true ∧
      Utf8.valid (lit "level") = true ∧ Utf8.valid (lit "message") = true := by decide
  simp [Json.utf8Valid, Json.utf8ValidMembers, hkeys, hmessage, levelToString_valid]

theorem valid_serve {h : Hub} (hvalid : h.scope.Valid) {request : Request}
    (hclean : request.clean = true) : (serve p h request).scope.Valid := by
  generalize hserve : serve p h request = h'
  cases served_of_serve p hserve with
  | refused => exact hvalid
  | captureEvent c => exact hvalid.captureEvent p c
  | addBreadcrumb crumb now => exact hvalid.addBreadcrumb (breadcrumbOf_valid hclean now)
  | setTag key value => exact hvalid.setTag hclean
  | setExtra key value => exact hvalid.setExtra hclean
  | reported level message uuid clock =>
      exact hvalid.captureEvent p ⟨logEvent level message, uuid, clock⟩
  | logged level message uuid clock _ hlevel =>
      have hmessage : Utf8.valid message = true := by
        simpa [Request.clean, hlevel] using hclean
      exact hvalid.addBreadcrumb (breadcrumbOf_valid (logBreadcrumb_valid hmessage) clock.crumb)

theorem valid_serveAll {h : Hub} (hvalid : h.scope.Valid) {requests : List Request}
    (hclean : ∀ request ∈ requests, request.clean = true) :
    (serveAll p h requests).scope.Valid := by
  induction requests generalizing h with
  | nil => exact hvalid
  | cons request requests ih =>
      exact ih (valid_serve p hvalid (hclean request List.mem_cons_self))
        fun other hother => hclean other (List.mem_cons_of_mem _ hother)

/-- The id with which `captureEvent` returns, if it does. -/
def eventIdOf (h : Hub) (c : Call) : Bytes :=
  if h.initialised && !tooOften p h.lastUniqueEvents c then Hub.generateUuid c.uuid else []

theorem captureEvent_ok_iff {h : Hub} {c : Call} (hown : ownContentValid c.event = true)
    (hmessage : messageOk c.event = true) (eventId : Bytes) :
    (captureEvent p h c).1 = .ok eventId ↔
      (h.initialised = false ∨ tooOften p h.lastUniqueEvents c = true ∨
        scopeContentValid h.scope c.event = true) ∧ eventId = eventIdOf p h c := by
  rw [@eq_comm _ eventId]
  cases hin : h.initialised with
  | false => simp [captureEvent, Hub.isInitialised, eventIdOf, hin]
  | true =>
      have hcontents := contents_isOk h c
      rw [hown, Bool.true_and] at hcontents
      rw [captureEvent_of_initialised p hin, eventIdOf, hin, Bool.true_and]
      rcases captureEvent_cases p h c with ⟨hbad, -⟩ | ⟨-, htoo, hcapture⟩ |
        ⟨-, htoo, e, herror, hcapture⟩ | ⟨-, htoo, contents, hok, hcapture⟩
      · rw [hmessage] at hbad
        cases hbad
      · simp [hcapture, htoo]
      · rw [herror] at hcontents
        simp [hcapture, htoo, ← hcontents, Except.isOk, Except.toBool]
      · rw [hok] at hcontents
        simp [hcapture, htoo, ← hcontents, Except.isOk, Except.toBool]

/-- After any run, an event that is itself in order is reported or dropped if
and only if no call sweeps an old entry and the scope has nothing else than UTF-8
for the event. After a run that recorded nothing else, the scope always has. -/
theorem captureEvent_after_run (h : Hub) (requests : List Request) (c : Call)
    {members : List (Bytes × Json)} (hevent : c.event = .object members)
    (hvalid : c.event.utf8Valid = true) (hmessage : messageOk c.event = true) :
    (∀ eventId, ReturnsAfter p h requests c eventId ↔
      sweepsAll p h (requests ++ [.captureEvent c]) = true ∧
        ((serveAll p h requests).initialised = false ∨
          tooOften p (serveAll p h requests).lastUniqueEvents c = true ∨
          scopeContentValid (serveAll p h requests).scope c.event = true) ∧
        eventId = eventIdOf p (serveAll p h requests) c) ∧
    (h.scope.Valid → (∀ request ∈ requests, request.clean = true) →
      sweepsAll p h (requests ++ [.captureEvent c]) = true →
        ReturnsAfter p h requests c (eventIdOf p (serveAll p h requests) c)) := by
  have hown : ownContentValid c.event = true := by
    rw [hevent] at hvalid ⊢
    exact ownContentValid_of_utf8Valid hvalid
  have hiff (eventId : Bytes) := (returnsAfter_iff p h requests c eventId).trans
    (and_congr_right fun _ => captureEvent_ok_iff p hown hmessage eventId)
  refine ⟨hiff, fun hstart hclean hsweeps => (hiff _).mpr ⟨hsweeps, Or.inr (Or.inr ?_), rfl⟩⟩
  exact scopeContentValid_of_valid (valid_serveAll p hstart hclean) c.event

/-- A tag, a breadcrumb, a log line and a report, all of them text. -/
def plainRequests : List Request :=
  [.setTag (lit "module") (lit "parser"), .addBreadcrumb (.string (lit "x")) 0,
    .log .info (lit "started") zeroUuid ⟨0, 0, 0, 0⟩, .captureEvent (reportAt 0)]

theorem captureEvent_after_plainRequests :
    ReturnsAfter (platformOf []) freshHub plainRequests (reportAt 60)
      (eventIdOf (platformOf []) (serveAll (platformOf []) freshHub plainRequests)
        (reportAt 60)) :=
  (captureEvent_after_run (platformOf []) freshHub plainRequests (reportAt 60) rfl (by decide)
    (by decide)).2 ⟨by decide, by decide, by decide, by decide, by decide⟩ (by decide) (by decide)

/-- One tag that is not UTF-8 makes every later report throw. -/
theorem captureEvent_blocked_by_tag :
    ¬ ∀ (p : Platform) (h : Hub) (requests : List Request) (c : Call)
      (members : List (Bytes × Json)), h.initialised = true → h.scope.Valid →
      c.event = .object members → c.event.utf8Valid = true → messageOk c.event = true →
      ∃ eventId, ReturnsAfter p h requests c eventId := by
  intro hall
  let c : Call := { reportAt 0 with event := .object [] }
  obtain ⟨eventId, hreturns⟩ := hall (platformOf []) freshHub [.setTag (lit "k") [0xFF]] c [] rfl
    ⟨by decide, by decide, by decide, by decide, by decide⟩ rfl rfl rfl
  have hok := ((returnsAfter_iff _ _ _ _ _).mp hreturns).2
  rcases ((captureEvent_ok_iff _ (by decide) (by decide) _).mp hok).1 with hnot | htoo | hscope
  · exact absurd hnot (by decide)
  · exact absurd htoo (by decide)
  · exact absurd hscope (by decide)

end Api

end Sentry
