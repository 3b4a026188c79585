import SentryCpp.External.JsonDump
import SentryCpp.Hub.Precedence
import SentryCpp.Hub.Trail
import SentryCpp.Hub.Sampling

/-!
What a reader finds in the text that `captureEvent` hands to the transport. At
each key it is the value of the hub, or else that of the event, or else that of
the scope; under `event_id` it is the identifier that the caller gets back.

Floats are the only values whose text is not made by the model. They are
taken to have a text that `dump_float` writes, and a scope that was given only
such floats has no others (`written_serve`).
-/

namespace Sentry

open StdString Calendar

/-- The floats of the scope have been written by `dump_float`. -/
structure Scope.Written (s : Scope) : Prop where
  breadcrumbs : ∀ crumb ∈ s.breadcrumbs, crumb.floatsWritten = true
  tags : s.tags.toJson.floatsWritten = true
  extras : s.extras.toJson.floatsWritten = true

/-- The test that `floatsWrittenMembers` makes on each member. -/
def memberWritten (member : Bytes × Json) : Bool := member.2.floatsWritten

theorem parts_written {s : Scope} (h : s.Written) : s.parts.all memberWritten = true := by
  have hcrumbs : s.getBreadcrumbs.floatsWritten = true := by
    simp only [Scope.getBreadcrumbs, Json.floatsWritten, Json.floatsWrittenMembers,
      Json.floatsWrittenElements_eq, Bool.and_true, List.all_eq_true]
    exact h.breadcrumbs
  have hstring (text : Bytes) : (Json.string text).floatsWritten = true := rfl
  have hone (c : Prop) [Decidable c] (part : Bytes × Json) (hpart : part.2.floatsWritten = true) :
      (if c then [part] else []).all memberWritten = true := by
    split <;> simp [memberWritten, hpart]
  have hone' (c : Prop) [Decidable c] (part : Bytes × Json) (hpart : part.2.floatsWritten = true) :
      (if c then [] else [part]).all memberWritten = true := by
    split <;> simp [memberWritten, hpart]
  simp only [Scope.parts, List.all_append, Bool.and_eq_true]
  exact ⟨⟨⟨⟨⟨hone _ _ hcrumbs, hone' _ _ h.tags⟩, hone' _ _ h.extras⟩, hone _ _ (hstring _)⟩,
    hone _ _ (hstring _)⟩, rfl⟩

theorem insertOrAssign_written {key : Bytes} {value : Json} (hvalue : value.floatsWritten = true)
    {members : List (Bytes × Json)} (h : members.all memberWritten = true) :
    (Json.insertOrAssign key value members).all memberWritten = true := by
  rw [Json.all_insertOrAssign, Bool.and_eq_true, List.all_eq_true]
  refine ⟨hvalue, ?_⟩
  intro member hmember
  rw [List.all_eq_true.mp h member hmember, Bool.or_true]

theorem stamped_written {members : List (Bytes × Json)}
    (h : members.all memberWritten = true) (eventId timestamp : Bytes) :
    (stamped members eventId timestamp).all memberWritten = true :=
  insertOrAssign_written rfl (insertOrAssign_written rfl (insertOrAssign_written rfl h))

theorem insertAll_written {parts members : List (Bytes × Json)}
    (hparts : parts.all memberWritten = true) (hmembers : members.all memberWritten = true) :
    (insertAll parts members).all memberWritten = true := by
  induction parts generalizing members with
  | nil => exact hmembers
  | cons part parts ih =>
      rw [List.all_cons, Bool.and_eq_true] at hparts
      apply ih hparts.2
      rw [Json.all_insertNew, hmembers, Bool.true_and, Bool.or_eq_true]
      exact Or.inr hparts.1

/-- The text that is sent reads as an object with the members of the payload. -/
theorem read_contents {h : Hub} (hscope : h.scope.Written) {c : Call}
    (hevent : c.event.floatsWritten = true) {contents : Bytes}
    (hcontents : h.contents c = .ok contents) :
    ∃ v, JsonText.read contents = some v ∧ ∀ key, v.get key =
      ((hubValue (Hub.generateUuid c.uuid) (iso8601 c.clock.timestamp) key).or
        ((c.event.find key).or (h.scope.valueOf key))).map Json.denote := by
  rw [Hub.contents] at hcontents
  rcases payload_cases h.scope c.event (Hub.generateUuid c.uuid) (iso8601 c.clock.timestamp) with
    ⟨-, e, herror⟩ | ⟨members, hmembers, hfind, hpayload⟩
  · rw [herror] at hcontents
    cases hcontents
  · rw [hpayload] at hcontents
    have hown : members.all memberWritten = true := by
      cases hkind : c.event <;> rw [hkind] at hmembers hevent <;> cases hmembers
      · rfl
      · rwa [Json.floatsWritten, Json.floatsWrittenMembers_eq] at hevent
    have hwritten : (Json.object (insertAll h.scope.parts (stamped members
        (Hub.generateUuid c.uuid) (iso8601 c.clock.timestamp)))).floatsWritten = true := by
      rw [Json.floatsWritten, Json.floatsWrittenMembers_eq]
      exact insertAll_written (parts_written hscope) (stamped_written hown _ _)
    refine ⟨_, Json.read_of_dump hwritten hcontents, ?_⟩
    intro key
    rw [Json.get_denote, hfind]
    change (Json.lookup key (insertAll _ _)).map _ = _
    rw [lookup_insertAll, lookup_stamped_eq, lookup_parts, Option.or_assoc]

/-- The identifier that a reader finds in a text. -/
def readEventId (text : Bytes) : Option Bytes :=
  (JsonText.read text).bind fun v =>
    match v.get (lit "event_id") with
    | some (.string eventId) => some eventId
    | _ => none

theorem readEventId_contents {h : Hub} (hscope : h.scope.Written) {c : Call}
    (hevent : c.event.floatsWritten = true) {contents : Bytes}
    (hcontents : h.contents c = .ok contents) :
    readEventId contents = some (Hub.generateUuid c.uuid) := by
  obtain ⟨v, hread, hget⟩ := read_contents hscope hevent hcontents
  rw [readEventId, hread, Option.bind_some, hget]
  rfl

section Requests

theorem find_written {j : Json} (h : j.floatsWritten = true) {key : Bytes} {value : Json}
    (hvalue : j.find key = some value) : value.floatsWritten = true := by
  cases j with
  | object members =>
      rw [Json.floatsWritten, Json.floatsWrittenMembers_eq] at h
      exact List.all_eq_true.mp h _ (Json.mem_of_lookup hvalue)
  | _ => cases hvalue

theorem copyField_written {attributes : Json} (h : attributes.floatsWritten = true) (key : Bytes)
    {members : List (Bytes × Json)} (hmembers : members.all memberWritten = true) :
    (Hub.copyField attributes key members).all memberWritten = true := by
  unfold Hub.copyField
  split
  · rename_i value hfind
    exact insertOrAssign_written (find_written h hfind) hmembers
  · exact hmembers

theorem breadcrumbOf_written {attributes : Json} (h : attributes.floatsWritten = true)
    (timestamp : Bytes) :
    (Json.object (Hub.breadcrumbOf attributes timestamp)).floatsWritten = true := by
  have hstart : [(lit "level", Json.string (lit "info")), (lit "timestamp", .string timestamp),
      (lit "type", .string (lit "default"))].all memberWritten = true := rfl
  have hcopied := copyField_written h (lit "message") (copyField_written h (lit "data")
    (copyField_written h (lit "category") (copyField_written h (lit "level")
      (copyField_written h (lit "type") hstart))))
  rw [Json.floatsWritten, Json.floatsWrittenMembers_eq, Hub.breadcrumbOf]
  refine insertOrAssign_written ?_ hcopied
  generalize Hub.copyField attributes (lit "message") _ = members at hcopied ⊢
  cases hlevel : Json.lookup (lit "level") members with
  | none => rfl
  | some value => exact List.all_eq_true.mp hcopied _ (Json.mem_of_lookup hlevel)

theorem Scope.Written.addBreadcrumb {s : Scope} (h : s.Written) {crumb : Json}
    (hcrumb : crumb.floatsWritten = true) : (s.addBreadcrumb crumb).Written := by
  have hall : ∀ c ∈ s.breadcrumbs ++ [crumb], c.floatsWritten = true := by
    intro c hc
    rcases List.mem_append.mp hc with hold | hnew
    · exact h.breadcrumbs c hold
    · rwa [List.mem_singleton.mp hnew]
  unfold Scope.addBreadcrumb
  simp only
  split
  · exact ⟨fun c hc => hall c (List.mem_of_mem_tail hc), h.tags, h.extras⟩
  · exact ⟨hall, h.tags, h.extras⟩

theorem setValueMap_written {m : ValueMap} (h : m.toJson.floatsWritten = true)
    (key value : Bytes) : (Scope.setValueMap key value m).toJson.floatsWritten = true := by
  have herase : (m.erase key).toJson.floatsWritten = true := by
    cases m with
    | null => rfl
    | object members =>
        simp only [ValueMap.toJson, Json.floatsWritten, Json.floatsWrittenMembers_eq,
          ValueMap.erase, List.all_eq_true] at h ⊢
        intro member hmember
        exact h member (List.mem_filter.mp hmember).1
  have hemplace : (m.emplace key (.string value)).toJson.floatsWritten = true := by
    cases m with
    | null => rfl
    | object members =>
        simp only [ValueMap.toJson, Json.floatsWritten, Json.floatsWrittenMembers_eq] at h
        simp [ValueMap.toJson, ValueMap.emplace, Json.floatsWritten,
          Json.floatsWrittenMembers_eq, Json.all_insertNew, h]
  unfold Scope.setValueMap
  split
  · split
    · exact herase
    · exact h
  · exact hemplace

theorem setTag_written {h : Hub} (hw : h.scope.Written) (key value : Bytes) :
    (h.setTag key value).scope.Written := by
  unfold Hub.setTag
  split
  · exact ⟨hw.breadcrumbs, hw.tags, hw.extras⟩
  · exact ⟨hw.breadcrumbs, setValueMap_written hw.tags key value, hw.extras⟩

variable (p : Platform)

theorem Scope.Written.captureEvent {h : Hub} (hw : h.scope.Written) {c : Call}
    (hevent : c.event.floatsWritten = true) :
    (h.captureEvent p c.event c.uuid c.clock).2.scope.Written := by
  rw [scope_captureEvent]
  split
  · exact hw.addBreadcrumb (breadcrumbOf_written hevent _)
  · exact hw

namespace Api

/-- The floats that the request brings have been written by `dump_float`. -/
def Request.written : Request → Bool
  | .captureEvent c => c.event.floatsWritten
  | .addBreadcrumb crumb _ => crumb.floatsWritten
  | .setTag .. | .setExtra .. | .log .. => true

theorem written_serve {h : Hub} (hw : h.scope.Written) {request : Request}
    (hrequest : request.written = true) : (serve p h request).scope.Written := by
  generalize hserve : serve p h request = h'
  cases served_of_serve p hserve with
  | refused => exact hw
  | captureEvent c => exact hw.captureEvent p hrequest
  | addBreadcrumb crumb now => exact hw.addBreadcrumb (breadcrumbOf_written hrequest _)
  | setTag key value => exact setTag_written hw key value
  | setExtra key value =>
      exact ⟨hw.breadcrumbs, hw.tags, setValueMap_written hw.extras key value⟩
  | reported level message uuid clock =>
      exact hw.captureEvent p (c := ⟨logEvent level message, uuid, clock⟩) rfl
  | logged level message uuid clock => exact hw.addBreadcrumb (breadcrumbOf_written rfl _)

theorem written_serveAll {h : Hub} (hw : h.scope.Written) {requests : List Request}
    (hrequests : ∀ request ∈ requests, request.written = true) :
    (serveAll p h requests).scope.Written := by
  induction requests generalizing h with
  | nil => exact hw
  | cons request requests ih =>
      exact ih (written_serve p hw (hrequests request List.mem_cons_self))
        fun other hother => hrequests other (List.mem_cons_of_mem _ hother)

end Api

theorem setOptions_written {h : Hub} (hw : h.scope.Written) (initParameters : SentryOptions) :
    (Api.setOptions h initParameters).scope.Written := by
  unfold Api.setOptions
  simp only
  split <;> split
  · exact setTag_written (setTag_written hw _ _) _ _
  · exact setTag_written hw _ _
  · exact setTag_written hw _ _
  · exact hw

theorem written_of_init {h h' : Hub} (hw : h.scope.Written) {initParameters : SentryOptions}
    {dsnEnv : Option Bytes} {uninitialised : UInt64} {errorCode : EErrorCode}
    (hinit : Api.init h initParameters dsnEnv uninitialised = some (errorCode, h')) :
    h'.scope.Written := by
  have hconfigured : (h.configured initParameters).scope.Written := by
    unfold Hub.configured Hub.config
    simp only
    split
    · exact ⟨hw.breadcrumbs, hw.tags, hw.extras⟩
    · exact hw
  rcases init_cases hinit with ⟨-, -, rfl⟩ | ⟨-, -, rfl⟩ | ⟨-, -, t, -, rfl⟩
  · exact hw
  · exact hconfigured
  · apply setOptions_written
    exact hconfigured

theorem written_new (userLogin hostName : Option Bytes) :
    (Hub.new userLogin hostName).scope.Written := by
  have hset (s : Scope) (hs : s.Written) (key value : Bytes) : (s.setTag key value).Written :=
    ⟨hs.breadcrumbs, setValueMap_written hs.tags key value, hs.extras⟩
  have hempty : Scope.Written ⟨[], [], .info, 100, [], .null, .null⟩ := ⟨by simp, rfl, rfl⟩
  unfold Hub.new Scope.new Scope.setDefaultTags
  cases userLogin <;> cases hostName
  · exact hempty
  · exact hset _ hempty _ _
  · exact hset _ hempty _ _
  · exact hset _ (hset _ hempty _ _) _ _

/-- Whatever a program has done since `init`, the text of every event that is
reported reads as an object with the identifier that the caller gets back, and
with the values of the hub, the event and the scope at their keys. -/
theorem captured_reads_back {userLogin hostName : Option Bytes} {initParameters : SentryOptions}
    {dsnEnv : Option Bytes} {uninitialised : UInt64} {h₀ : Hub}
    (hinit : Api.init (Hub.new userLogin hostName) initParameters dsnEnv uninitialised =
      some (.noError, h₀))
    {requests : List Api.Request} (hrequests : ∀ request ∈ requests, request.written = true)
    {c : Call} (hevent : c.event.floatsWritten = true) {eventId : Bytes}
    (hcapture : (Api.captureEvent p (Api.serveAll p h₀ requests) c).1 = .ok eventId)
    (hsent : eventId ≠ []) :
    ∃ contents v, (Api.serveAll p h₀ requests).contents c = .ok contents ∧
      JsonText.read contents = some v ∧ v.get (lit "event_id") = some (.string eventId) ∧
      ∀ key, v.get key = ((hubValue eventId (iso8601 c.clock.timestamp) key).or
        ((c.event.find key).or ((Api.serveAll p h₀ requests).scope.valueOf key))).map
          Json.denote := by
  have hwritten := Api.written_serveAll p (written_of_init (written_new _ _) hinit) hrequests
  generalize Api.serveAll p h₀ requests = h at hcapture hwritten ⊢
  cases hin : h.initialised with
  | false =>
      simp [Api.captureEvent, Hub.isInitialised, hin] at hcapture
      exact absurd hcapture hsent
  | true =>
      rw [Api.captureEvent_of_initialised p hin] at hcapture
      rcases captureEvent_emits_cases p h c with
        ⟨-, result, hresult, heq⟩ | ⟨-, contents, hcontents, heq⟩
      · rw [heq] at hcapture
        rcases hresult with rfl | ⟨e, rfl⟩
        · cases hcapture
          exact absurd rfl hsent
        · cases hcapture
      · rw [heq] at hcapture
        cases hcapture
        obtain ⟨v, hread, hget⟩ := read_contents hwritten hevent hcontents
        refine ⟨contents, v, hcontents, hread, ?_, hget⟩
        rw [hget]
        rfl

theorem captured_reads_back_threeCrumbs :
    ∃ h₀ contents v, Api.init (Hub.new none none) twoCrumbs none 0 = some (.noError, h₀) ∧
      (Api.serveAll (platformOf []) h₀ threeCrumbs).contents ⟨.null, zeroUuid, ⟨3, 3, 3, 3⟩⟩ =
        .ok contents ∧
      JsonText.read contents = some v ∧
      v.get (lit "event_id") = some (.string (Hub.generateUuid zeroUuid)) := by
  have hreported : (Api.init (Hub.new none none) twoCrumbs none 0).map (fun result =>
      (result.1, (Api.captureEvent (platformOf []) (Api.serveAll (platformOf []) result.2
        threeCrumbs) ⟨.null, zeroUuid, ⟨3, 3, 3, 3⟩⟩).1.toOption)) =
      some (.noError, some (Hub.generateUuid zeroUuid)) := by decide +kernel
  obtain ⟨⟨errorCode, h₀⟩, hinit, hresult⟩ := Option.map_eq_some_iff.mp hreported
  obtain ⟨rfl, hid⟩ := Prod.mk.inj hresult
  obtain ⟨contents, v, hcontents, hread, hget, -⟩ := captured_reads_back (platformOf []) hinit
    (by decide : ∀ request ∈ threeCrumbs, request.written = true)
    (c := ⟨.null, zeroUuid, ⟨3, 3, 3, 3⟩⟩) rfl (eq_ok_of_toOption hid)
    (generateUuid_ne_nil zeroUuid)
  exact ⟨h₀, contents, v, hinit, hcontents, hread, hget⟩

end Requests

end Sentry
