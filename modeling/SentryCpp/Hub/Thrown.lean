import SentryCpp.Backtrace.Stacktrace
import SentryCpp.Hub.Atomicity
import SentryCpp.Hub.LastEvent
import SentryCpp.Hub.Swept
import SentryCpp.Hub.Wire

/-!
`captureException` with the stack trace that it takes itself. The report of an
exception does not come back if a frame cannot be reported, if the limiter sweeps
an old entry, or if anything that goes into the event is not well-formed UTF-8.
With source data this includes the lines around each frame: one such line keeps
the exception from being reported, and the `type_error` leaves `captureException`
in its place.

What is sent reads back as it was put in: the exception with all of its frames,
and the members of the context.
-/

namespace Sentry

open StdString Calendar Backtrace

namespace Backtrace

/-- The lines of a context are well-formed UTF-8. -/
def SourceContext.valid (c : SourceContext) : Bool :=
  Utf8.valid c.contextLine && c.preContext.all Utf8.valid && c.postContext.all Utf8.valid

variable (files : Bytes → Option SourceFile)

/-- What is reported of a frame is well-formed UTF-8. -/
def FrameInfo.valid (withSourceData : Bool) (frameInfo : FrameInfo) : Bool :=
  Utf8.valid frameInfo.absFilePath && Utf8.valid frameInfo.fileName &&
    Utf8.valid frameInfo.functionName &&
    (!withSourceData ||
      (sourceContext (files frameInfo.absFilePath) frameInfo.lineNumber).valid)

theorem utf8Valid_strings (texts : List Bytes) :
    Json.utf8ValidElements (texts.map .string) = texts.all Utf8.valid := by
  rw [Json.utf8ValidElements_eq, List.all_map]
  rfl

theorem utf8Valid_reported (withSourceData : Bool) (frameInfo : FrameInfo) :
    (frameInfo.reported files withSourceData).utf8Valid = frameInfo.valid files withSourceData := by
  have hkeys : Utf8.valid (lit "abs_path") ∧ Utf8.valid (lit "filename") ∧
      Utf8.valid (lit "function") ∧ Utf8.valid (lit "in_app") ∧ Utf8.valid (lit "lineno") ∧
      Utf8.valid (lit "package") ∧ Utf8.valid (lit "context_line") ∧
      Utf8.valid (lit "post_context") ∧ Utf8.valid (lit "pre_context") := by decide
  obtain ⟨h₁, h₂, h₃, h₄, h₅, h₆, h₇, h₈, h₉⟩ := hkeys
  cases withSourceData with
  | false =>
      simp only [FrameInfo.reported, Bool.false_eq_true, if_false, FrameInfo.toJson,
        FrameInfo.valid, Json.utf8Valid, Json.utf8ValidMembers, h₁, h₂, h₃, h₄, h₅, h₆]
      simp [Bool.and_assoc]
  | true =>
      simp only [FrameInfo.reported, FrameInfo.withContext, FrameInfo.valid, SourceContext.valid,
        if_true, Json.utf8Valid, Json.utf8ValidMembers, utf8Valid_strings]
      simp only [h₁, h₂, h₃, h₄, h₅, h₆, h₇, h₈, h₉, Bool.true_and, Bool.and_true, Bool.not_true,
        Bool.false_or]
      ac_rfl

theorem utf8Valid_outputOf (frames : List Json) :
    (outputOf frames).utf8Valid = frames.all Json.utf8Valid := by
  cases frames with
  | nil => rfl
  | cons frame frames => simp [outputOf, Json.utf8Valid, Json.utf8ValidElements_eq]

end Backtrace

variable (p : Platform) (m : Machine) (files : Bytes → Option SourceFile)

/-- An exception, with the stack on which it is reported. -/
structure ThrownException where
  typeName : Bytes
  what : Bytes
  context : Json
  handled : Bool
  stack : CallStack
  uuid : Uuid
  clock : Clock

/-- The call of `captureEvent` with the context for its event. -/
def ThrownException.call (e : ThrownException) : Call := ⟨e.context, e.uuid, e.clock⟩

/-- `captureException` reports the event and comes back with the id. Six frames in
front belong to the library. -/
def Hub.CapturesThrown (h : Hub) (e : ThrownException) (event : Json) (eventId : Bytes) : Prop :=
  ∃ fuel frames after,
    getStacktraceJSON files m h.isSourceAvailable e.stack 6 2 fuel = some (.ok frames) ∧
    thrownEvent e.typeName e.what e.context e.handled ⟨some frames, e.uuid, e.clock⟩ =
      some event ∧
    h.ComesTo p ⟨event, e.uuid, e.clock⟩ (.ok eventId, after)

/-- What the event takes from the context: the members that neither
`captureException` nor the hub overwrites are well-formed UTF-8. -/
def contextValid (context : Json) : Bool :=
  match asMembers context with
  | some members =>
      members.all fun member =>
        member.1 = lit "exception" ||
          (hubKeys.contains member.1 || Json.utf8ValidMember member)
  | none => false

/-- All that goes into the event of an exception is well-formed UTF-8. -/
def thrownContentValid (scope : Scope) (e : ThrownException) (withSourceData : Bool)
    (frameInfos : List FrameInfo) : Bool :=
  Utf8.valid e.typeName && Utf8.valid e.what && contextValid e.context &&
    scopeContentValid scope e.context && frameInfos.all (FrameInfo.valid files withSourceData)

theorem utf8Valid_exceptionAttributes (typeName what : Bytes) (handled : Bool) (frames : Json) :
    (exceptionAttributes typeName what handled frames).utf8Valid =
      (Utf8.valid typeName && Utf8.valid what && frames.utf8Valid) := by
  have hkeys : Utf8.valid (lit "handled") ∧ Utf8.valid (lit "stacktrace") ∧
      Utf8.valid (lit "frames") ∧ Utf8.valid (lit "type") ∧ Utf8.valid (lit "value") := by decide
  obtain ⟨h₁, h₂, h₃, h₄, h₅⟩ := hkeys
  simp only [exceptionAttributes, Json.utf8Valid, Json.utf8ValidMembers, h₁, h₂, h₃, h₄, h₅,
    Bool.true_and, Bool.and_true]
  ac_rfl

theorem thrownEvent_eq_some_iff (typeName what : Bytes) (context : Json) (handled : Bool)
    (frames : Json) (uuid : Uuid) (clock : Clock) (event : Json) :
    thrownEvent typeName what context handled ⟨some frames, uuid, clock⟩ = some event ↔
      ∃ members, asMembers context = some members ∧
        event = .object (Json.insertOrAssign (lit "exception")
          (exceptionAttributes typeName what handled frames) members) := by
  cases context with
  | null =>
      simp only [thrownEvent, Json.assign, asMembers, Except.toOption, eq_comm]
      simp [Json.insertOrAssign, Json.insertSorted]
  | object members => simp [thrownEvent, Json.assign, asMembers, Except.toOption, eq_comm]
  | _ => simp [thrownEvent, Json.assign, asMembers, Except.toOption]

section Thrown

variable {context : Json} {members : List (Bytes × Json)}

theorem find_thrown (hmembers : asMembers context = some members) {key : Bytes}
    (hkey : key ≠ lit "exception") (attributes : Json) :
    (Json.object (Json.insertOrAssign (lit "exception") attributes members)).find key =
      context.find key := by
  change Json.lookup key _ = _
  rw [Json.lookup_insertOrAssign, if_neg hkey]
  cases context <;> cases hmembers <;> rfl

theorem ownContentValid_thrown (hmembers : asMembers context = some members)
    (attributes : Json) :
    ownContentValid (.object (Json.insertOrAssign (lit "exception") attributes members)) =
      (attributes.utf8Valid && contextValid context) := by
  have hexception : (hubKeys.contains (lit "exception") ||
      Json.utf8ValidMember (lit "exception", attributes)) = attributes.utf8Valid := by
    have hkey : hubKeys.contains (lit "exception") = false ∧
      Utf8.valid (lit "exception") = true := by decide
    rw [Json.utf8ValidMember, hkey.1, hkey.2, Bool.false_or, Bool.true_and]
  rw [ownContentValid, contextValid, hmembers]
  simp only [asMembers]
  rw [Json.all_insertOrAssign, hexception]

theorem scopeContentValid_thrown (hmembers : asMembers context = some members)
    (attributes : Json) (s : Scope) :
    scopeContentValid s (.object (Json.insertOrAssign (lit "exception") attributes members)) =
      scopeContentValid s context := by
  have hkeys : ∀ key ∈ scopeKeys, key ≠ lit "exception" := by decide
  rw [scopeContentValid, scopeContentValid, Bool.eq_iff_iff, List.all_eq_true, List.all_eq_true]
  apply forall₂_congr
  intro part hpart
  rw [find_thrown hmembers (hkeys _ ((parts_keys s).subset (List.mem_map_of_mem hpart)))]

/-- Whether the report of an exception comes back. -/
theorem returns_thrown (h : Hub) (hmembers : asMembers context = some members)
    (attributes : Json) (uuid : Uuid) (clock : Clock) :
    h.returns p ⟨.object (Json.insertOrAssign (lit "exception") attributes members), uuid,
        clock⟩ =
      (messageOk context && (tooOften p h.lastUniqueEvents ⟨context, uuid, clock⟩ ||
        (attributes.utf8Valid && contextValid context && scopeContentValid h.scope context))) := by
  have hmessage := find_thrown hmembers (by decide : lit "message" ≠ lit "exception") attributes
  rw [Hub.returns, messageOk, tooOften, hmessage, ownContentValid_thrown hmembers,
    scopeContentValid_thrown hmembers]
  rfl

end Thrown

/-- The member `exception` of the event. -/
def ThrownException.attributes (e : ThrownException) (withSourceData : Bool)
    (frameInfos : List FrameInfo) : Json :=
  exceptionAttributes e.typeName e.what e.handled
    (outputOf (frameInfos.map (FrameInfo.reported files withSourceData)))

theorem sweeps_thrown (h : Hub) {e : ThrownException} {members : List (Bytes × Json)}
    (hmembers : asMembers e.context = some members) (attributes : Json) :
    h.sweeps p ⟨.object (Json.insertOrAssign (lit "exception") attributes members), e.uuid,
      e.clock⟩ = h.sweeps p e.call := by
  rw [Hub.sweeps, find_thrown hmembers (by decide : lit "message" ≠ lit "exception")]
  rfl

/-- The event has the frames that are not skipped, and is reported like any
other. -/
theorem capturesThrown_iff (h : Hub) {e : ThrownException}
    (hskip : 6 + 2 ≤ e.stack.addresses.length) (event : Json) (eventId : Bytes) :
    h.CapturesThrown p m files e event eventId ↔
      ∃ frameInfos members, List.Forall₂ m.ReadsAs (e.stack.retained 6 2) frameInfos ∧
        asMembers e.context = some members ∧
        event = .object (Json.insertOrAssign (lit "exception")
          (e.attributes files h.isSourceAvailable frameInfos) members) ∧
        h.sweeps p e.call = true ∧
        (h.captureEvent p event e.uuid e.clock).1 = .ok eventId := by
  have htrace := getStacktraceJSON_eq_ok_iff files m h.isSourceAvailable e.stack
    (by decide : 1 ≤ 6) hskip
  constructor
  · rintro ⟨fuel, frames, after, hframes, hevent, hcomes⟩
    obtain ⟨frameInfos, hreads, rfl⟩ := (htrace frames).mp ⟨fuel, hframes⟩
    obtain ⟨members, hmembers, rfl⟩ := (thrownEvent_eq_some_iff _ _ _ _ _ _ _ _).mp hevent
    obtain ⟨hsweeps, hcapture⟩ := (Hub.comesTo_iff p h _ _).mp hcomes
    rw [sweeps_thrown p h hmembers] at hsweeps
    exact ⟨frameInfos, members, hreads, hmembers, rfl, hsweeps, by rw [hcapture]⟩
  · rintro ⟨frameInfos, members, hreads, hmembers, rfl, hsweeps, hcapture⟩
    obtain ⟨fuel, hframes⟩ := (htrace _).mpr ⟨frameInfos, hreads, rfl⟩
    refine ⟨fuel, _, _, hframes,
      (thrownEvent_eq_some_iff _ _ _ _ _ _ _ _).mpr ⟨members, hmembers, rfl⟩,
      (Hub.comesTo_iff p h _ _).mpr ⟨?_, Prod.ext hcapture rfl⟩⟩
    rw [sweeps_thrown p h hmembers]
    exact hsweeps

theorem utf8Valid_attributes (e : ThrownException) (withSourceData : Bool)
    (frameInfos : List FrameInfo) :
    (e.attributes files withSourceData frameInfos).utf8Valid =
      (Utf8.valid e.typeName && Utf8.valid e.what &&
        frameInfos.all (FrameInfo.valid files withSourceData)) := by
  rw [ThrownException.attributes, utf8Valid_exceptionAttributes, utf8Valid_outputOf, List.all_map]
  congr 2
  funext frameInfo
  exact utf8Valid_reported files withSourceData frameInfo

/-- The report of an exception comes back if and only if the context can hold it,
each frame can be reported, the limiter finds nothing to erase, and the event is
dropped by it or is well-formed UTF-8 throughout: the exception, the context, the
scope, the paths and functions of the frames and, with source data, the lines
around them. -/
theorem capturesThrown_returns_iff (h : Hub) {e : ThrownException}
    (hskip : 6 + 2 ≤ e.stack.addresses.length) :
    (∃ event eventId, h.CapturesThrown p m files e event eventId) ↔
      asMembers e.context ≠ none ∧ messageOk e.context = true ∧ h.sweeps p e.call = true ∧
      ∃ frameInfos, List.Forall₂ m.ReadsAs (e.stack.retained 6 2) frameInfos ∧
        (tooOften p h.lastUniqueEvents e.call = true ∨
          thrownContentValid files h.scope e h.isSourceAvailable frameInfos = true) := by
  have hreport {members : List (Bytes × Json)} (hmembers : asMembers e.context = some members)
      (frameInfos : List FrameInfo) :
      (h.captureEvent p (.object (Json.insertOrAssign (lit "exception")
          (e.attributes files h.isSourceAvailable frameInfos) members)) e.uuid e.clock).1.isOk =
          true ↔
        messageOk e.context = true ∧ (tooOften p h.lastUniqueEvents e.call = true ∨
          thrownContentValid files h.scope e h.isSourceAvailable frameInfos = true) := by
    rw [captureEvent_isOk p h ⟨_, e.uuid, e.clock⟩, returns_thrown p h hmembers,
      utf8Valid_attributes, Bool.and_eq_true, Bool.or_eq_true]
    simp only [thrownContentValid, ThrownException.call, Bool.and_eq_true, and_assoc]
    tauto
  simp only [capturesThrown_iff p m files h hskip]
  constructor
  · rintro ⟨_, eventId, frameInfos, members, hreads, hmembers, rfl, hsweeps, hcapture⟩
    obtain ⟨hmessage, hcontent⟩ := (hreport hmembers frameInfos).mp (by rw [hcapture]; rfl)
    exact ⟨by simp [hmembers], hmessage, hsweeps, frameInfos, hreads, hcontent⟩
  · rintro ⟨hcontext, hmessage, hsweeps, frameInfos, hreads, hcontent⟩
    obtain ⟨members, hmembers⟩ := Option.ne_none_iff_exists'.mp hcontext
    have hok := (hreport hmembers frameInfos).mpr ⟨hmessage, hcontent⟩
    cases hcapture : (h.captureEvent p (.object (Json.insertOrAssign (lit "exception")
        (e.attributes files h.isSourceAvailable frameInfos) members)) e.uuid e.clock).1 with
    | error error =>
        rw [hcapture] at hok
        cases hok
    | ok eventId =>
        exact ⟨_, eventId, frameInfos, members, hreads, hmembers, rfl, hsweeps, hcapture⟩

/-- An exception in a function of the program, six frames of the library inside
it and two frames outside. -/
def thrownInProgram : ThrownException where
  typeName := lit "St13runtime_error"
  what := lit "no \"port\""
  context := .object [(lit "logger", .string (lit "main"))]
  handled := true
  stack := ⟨List.replicate 6 0x401000 ++ [0x402000] ++ List.replicate 2 0x403000, by decide⟩
  uuid := zeroUuid
  clock := ⟨0, 0, 0, 0⟩

/-- A hub with source data. -/
def sourceHub : Hub := { freshHub with isSourceAvailable := true }

theorem readsAs_debugMachine : List.Forall₂ debugMachine.ReadsAs
    (thrownInProgram.stack.retained 6 2)
    [FileLineDesc.frame (fun _ => none) ⟨none, none, 7⟩ 0x402000] := by
  have hretained : thrownInProgram.stack.retained 6 2 = [0x402000] := by decide
  obtain ⟨frameInfo, hread⟩ := (exists_readsAs_iff debugMachine 0x402000).mpr
    ⟨_, ⟨none, none, 7⟩, rfl, rfl, rfl, rfl, by decide, rfl, by decide⟩
  obtain rfl :=
    @eq_frame_of_readsAs _ _ _ hread ⟨none, none, 7⟩ rfl (by decide) (by decide)
  rw [hretained]
  exact .cons hread .nil

theorem capturesThrown_returns_inProgram :
    ∃ event eventId, sourceHub.CapturesThrown (platformOf []) debugMachine (fun _ => some fiveLines)
      thrownInProgram event eventId :=
  (capturesThrown_returns_iff (platformOf []) debugMachine (fun _ => some fiveLines) sourceHub
    (e := thrownInProgram) (by decide)).mpr
    ⟨by decide, by decide, by decide, _, readsAs_debugMachine, Or.inr (by decide +kernel)⟩

theorem reported_written (withSourceData : Bool) (frameInfo : FrameInfo) :
    (frameInfo.reported files withSourceData).floatsWritten = true := by
  have hstrings (texts : List Bytes) :
      Json.floatsWrittenElements (texts.map .string) = true := by
    rw [Json.floatsWrittenElements_eq, List.all_map, List.all_eq_true]
    intro text _
    rfl
  cases withSourceData with
  | false => rfl
  | true =>
      simp only [FrameInfo.reported, FrameInfo.withContext, if_true, Json.floatsWritten,
        Json.floatsWrittenMembers, hstrings, Bool.and_true]

theorem outputOf_written {frames : List Json} (h : ∀ frame ∈ frames, frame.floatsWritten = true) :
    (outputOf frames).floatsWritten = true := by
  cases frames with
  | nil => rfl
  | cons frame frames =>
      rw [outputOf, if_neg (by simp), Json.floatsWritten, Json.floatsWrittenElements_eq,
        List.all_eq_true]
      exact h

theorem exceptionAttributes_written (typeName what : Bytes) (handled : Bool) {frames : Json}
    (h : frames.floatsWritten = true) :
    (exceptionAttributes typeName what handled frames).floatsWritten = true := by
  simp only [exceptionAttributes, Json.floatsWritten, Json.floatsWrittenMembers, h, Bool.and_true]

theorem thrown_written {context : Json} (hcontext : context.floatsWritten = true)
    {members : List (Bytes × Json)} (hmembers : asMembers context = some members)
    {attributes : Json} (h : attributes.floatsWritten = true) :
    (Json.object (Json.insertOrAssign (lit "exception") attributes members)).floatsWritten =
      true := by
  rw [Json.floatsWritten, Json.floatsWrittenMembers_eq]
  apply insertOrAssign_written h
  cases context with
  | null =>
      cases hmembers
      rfl
  | object members' =>
      cases hmembers
      rwa [Json.floatsWritten, Json.floatsWrittenMembers_eq] at hcontext
  | _ => cases hmembers

/-- What is sent for an exception reads as an object whose `exception` is the one
that was thrown, with the frames that are not skipped. Elsewhere it has the values
of the hub, or else of the context, or else of the scope. -/
theorem capturesThrown_reads_back {h : Hub} (hscope : h.scope.Written) {e : ThrownException}
    (hskip : 6 + 2 ≤ e.stack.addresses.length) (hcontext : e.context.floatsWritten = true)
    {event : Json} {eventId : Bytes} (hcaptures : h.CapturesThrown p m files e event eventId)
    (hsent : eventId ≠ []) :
    ∃ frameInfos contents v, List.Forall₂ m.ReadsAs (e.stack.retained 6 2) frameInfos ∧
      h.contents ⟨event, e.uuid, e.clock⟩ = .ok contents ∧ JsonText.read contents = some v ∧
      v.get (lit "event_id") = some (.string eventId) ∧
      v.get (lit "exception") =
        some (e.attributes files h.isSourceAvailable frameInfos).denote ∧
      ∀ key, key ≠ lit "exception" → v.get key =
        ((hubValue eventId (iso8601 e.clock.timestamp) key).or
          ((e.context.find key).or (h.scope.valueOf key))).map Json.denote := by
  obtain ⟨frameInfos, members, hreads, hmembers, rfl, -, hcapture⟩ :=
    (capturesThrown_iff p m files h hskip event eventId).mp hcaptures
  have hattributes : (e.attributes files h.isSourceAvailable frameInfos).floatsWritten = true := by
    apply exceptionAttributes_written
    apply outputOf_written
    intro frame hframe
    obtain ⟨frameInfo, -, rfl⟩ := List.mem_map.mp hframe
    exact reported_written files _ frameInfo
  rcases captureEvent_emits_cases p h ⟨_, e.uuid, e.clock⟩ with
    ⟨-, result, hresult, heq⟩ | ⟨-, contents, hcontents, heq⟩
  · rw [heq] at hcapture
    rcases hresult with rfl | ⟨error, rfl⟩
    · cases hcapture
      exact absurd rfl hsent
    · cases hcapture
  · rw [heq] at hcapture
    cases hcapture
    obtain ⟨v, hread, hget⟩ := read_contents hscope
      (thrown_written hcontext hmembers hattributes) hcontents
    refine ⟨frameInfos, contents, v, hreads, hcontents, hread, ?_, ?_, ?_⟩
    · rw [hget]
      rfl
    · rw [hget]
      change (Option.or none (Option.or (Json.lookup _ _) _)).map _ = _
      rw [Json.lookup_insertOrAssign, if_pos rfl]
      rfl
    · intro key hkey
      rw [hget, find_thrown hmembers hkey]

theorem capturesThrown_reads_back_inProgram :
    ∃ contents v, JsonText.read contents = some v ∧
      v.get (lit "event_id") = some (.string (Hub.generateUuid zeroUuid)) ∧
      v.get (lit "logger") = some (.string (lit "main")) := by
  have hcaptures : sourceHub.CapturesThrown (platformOf []) debugMachine (fun _ => some fiveLines)
      thrownInProgram _ (Hub.generateUuid zeroUuid) :=
    (capturesThrown_iff _ _ _ sourceHub (by decide) _ _).mpr
      ⟨_, _, readsAs_debugMachine, rfl, rfl, by decide,
        eq_ok_of_toOption (by decide +kernel)⟩
  obtain ⟨_, contents, v, -, -, hread, hid, -, hothers⟩ := capturesThrown_reads_back _ _ _
    (show sourceHub.scope.Written from written_new none none) (e := thrownInProgram) (by decide)
    rfl hcaptures (generateUuid_ne_nil zeroUuid)
  exact ⟨contents, v, hread, hid, hothers (lit "logger") (by decide)⟩

end Sentry
