import SentryCpp.Backtrace.Context
import SentryCpp.Backtrace.Decoded
import SentryCpp.Backtrace.Symbols

/-!
`getStacktraceJSON`: the frames of the call stack and, where the source is at
hand, the lines around each of them. The second pass reads the path and the line
number back out of the JSON frames of the first.

A stack trace comes out if and only if each of its frames can be reported. The
source files cannot keep it from coming out: a file that cannot be opened, and a
line that is not in it, leave empty contexts.
-/

namespace Json

open StdString Number

/-- The value of `j[key]`, where a key that is missing gets a null. -/
def subscript (j : Json) (key : Bytes) : Except TypeError Json :=
  match j with
  | .null => .ok .null
  | .object members => .ok ((lookup key members).getD .null)
  | _ => .error (.create 305 (lit "cannot use operator[] with " ++ j.typeName))

/-- `j.get<size_t>()`, with `none` for a floating-point number, of which there is
only the text. -/
def getSize (j : Json) : Option (Except TypeError Nat) :=
  match j with
  | .numberUnsigned n => some (.ok n)
  | .numberInteger i => some (.ok (i % 2 ^ 64).toNat)
  | .numberFloat _ => none
  | _ => some (.error (.create 302 (lit "type must be number, but is " ++ j.typeName)))

/-- The keys and values of `j.items()`. -/
def items (j : Json) : List (Bytes × Json) :=
  match j with
  | .null => []
  | .object members => members
  | .array elements => elements.mapIdx fun i element => (print 10 i, element)
  | _ => [([], j)]

end Json

namespace Sentry.Backtrace

open StdString

def additionalLines : Nat := 4

-- what `std::ifstream::open` finds under a path
variable (files : Bytes → Option SourceFile)

/-- `frame[line.key()] = line.value()` for each of the lines. -/
def copyLines (frame contextLinesInfo : Json) : Except Json.TypeError Json :=
  contextLinesInfo.items.foldlM (fun frame line => frame.assign line.1 line.2) frame

/-- The body of the loop over the frames. -/
def addContext (fuel : Nat) (frame : Json) : Option (Except Json.TypeError Json) :=
  match frame.subscript (lit "abs_path") >>= Json.getString with
  | .error e => some (.error e)
  | .ok filePath =>
      match frame.subscript (lit "lineno") with
      | .error e => some (.error e)
      | .ok value =>
          value.getSize.bind fun
            | .error e => some (.error e)
            | .ok lineNo =>
                (getContextLines (files filePath) lineNo additionalLines fuel).map
                  (copyLines frame)

/-- The loop over the frames. -/
def addContexts (fuel : Nat) : List Json → Option (Except Json.TypeError (List Json))
  | [] => some (.ok [])
  | frame :: rest =>
      (addContext files fuel frame).bind fun
        | .error e => some (.error e)
        | .ok frame => (addContexts fuel rest).map (Except.map (frame :: ·))

/-- `getStacktraceJSON`. What `createBacktraceSymbols` returns is null or an
array. -/
def getStacktraceJSON (m : Machine) (withSourceData : Bool) (stack : CallStack)
    (skipFront skipBack fuel : Nat) : Option (Except Fault Json) :=
  (createBacktraceSymbols m stack skipFront skipBack fuel).bind fun
    | .ok (.array frames) =>
        if withSourceData then
          (addContexts files fuel frames).map fun
            | .ok frames => .ok (.array frames)
            | .error e => .error (.json e)
        else some (.ok (.array frames))
    | result => some result

section Sources

/-- The loop at line 0, when it has read `k` of the records: they all count as
lines behind. -/
structure ReadAll (records : List Bytes) (k : Nat) (s : ContextLoop) : Prop where
  i_eq : s.i = k + 1
  records_eq : s.file.records = records.drop k
  failsAtEof : s.file.FailsAtEof
  contextLine_eq : s.contextLine = []
  preContext_eq : s.preContext = []
  postContext_eq : s.postContext = records.take k

theorem readAll_start (file : SourceFile) :
    ReadAll (file.bytes.splitOn 10) 0 (ContextLoop.start file) where
  i_eq := rfl
  records_eq := rfl
  failsAtEof := IfStream.failsAtEof_opened _
  contextLine_eq := rfl
  preContext_eq := rfl
  postContext_eq := rfl

theorem readAll_round {records : List Bytes} {deltaLines k : Nat} {s : ContextLoop}
    (h : ReadAll records k s) (hdelta : deltaLines < 2 ^ 64 - 1)
    (hk : k < min deltaLines records.length) (n : Nat) :
    ∃ t, ContextLoop.round 0 deltaLines n s = .ok t ∧ ReadAll records (k + 1) t := by
  have hlt : k < records.length := by omega
  have hrecords : s.file.records = records[k] :: records.drop (k + 1) := by
    rw [h.records_eq, List.drop_eq_getElem_cons hlt]
  obtain ⟨hline, hrest, hfails⟩ := IfStream.getline_of_records h.failsAtEof hrecords s.currentLine
  have hnext : sizeAdd s.i 1 = k + 1 + 1 := by
    rw [h.i_eq, sizeAdd_of_lt (by omega)]
  have hsum : sizeAdd 0 deltaLines = deltaLines := by
    rw [sizeAdd_of_lt (by omega), Nat.zero_add]
  have hi : s.getline.i = k + 1 := h.i_eq
  refine ⟨{ s.getline.place 0 deltaLines with
    i := sizeAdd (s.getline.place 0 deltaLines).i 1 }, rfl, ?_⟩
  rw [place_of_gt (by omega) (by omega)]
  refine ⟨hnext, hrest, hfails, h.contextLine_eq, h.preContext_eq, ?_⟩
  simp only [ContextLoop.getline, hline, h.postContext_eq]
  rw [List.take_add_one, List.getElem?_eq_getElem hlt, Option.toList_some]

theorem readsOn_zero_iff {records : List Bytes} {deltaLines k : Nat} {s : ContextLoop}
    (h : ReadAll records k s) (hdelta : deltaLines < 2 ^ 64) :
    s.readsOn 0 deltaLines = true ↔ k < min deltaLines records.length := by
  have heof : s.file.eofbit = true ↔ records.length ≤ k := by
    rw [← IfStream.records_eq_nil_iff, h.records_eq, List.drop_eq_nil_iff]
  have hsum : sizeAdd 0 deltaLines = deltaLines := by
    rw [sizeAdd_of_lt (by omega), Nat.zero_add]
  rw [ContextLoop.readsOn, Bool.and_eq_true, decide_eq_true_eq, Bool.not_eq_true',
    ← Bool.not_eq_true, heof, h.i_eq, hsum]
  omega

theorem loop_readAll {records : List Bytes} {deltaLines : Nat} (hdelta : deltaLines < 2 ^ 64 - 1)
    {rounds k : Nat} {s : ContextLoop} (h : ReadAll records k s)
    (hk : k + rounds = min deltaLines records.length) (n : Nat) :
    ∃ t, Loop.loop (ContextLoop.readsOn 0 deltaLines) (ContextLoop.round 0 deltaLines) rounds n s =
        some (.ok t) ∧ ReadAll records (min deltaLines records.length) t := by
  induction rounds generalizing k s n with
  | zero =>
      have hstop : s.readsOn 0 deltaLines = false := by
        rw [← Bool.not_eq_true, readsOn_zero_iff h (by omega)]
        omega
      refine ⟨s, by simp [Loop.loop, hstop], ?_⟩
      rwa [← hk]
  | succ rounds ih =>
      have hcond : s.readsOn 0 deltaLines = true :=
        (readsOn_zero_iff h (by omega)).mpr (by omega)
      obtain ⟨t, hround, ht⟩ := readAll_round h hdelta (by omega) n
      obtain ⟨u, hloop, hu⟩ := ih ht (by omega) (n + 1)
      exact ⟨u, by rw [Loop.loop, if_pos hcond, hround]; exact hloop, hu⟩

/-- What is found around a line: the line, and those before and behind it. -/
structure SourceContext where
  contextLine : Bytes
  preContext : List Bytes
  postContext : List Bytes
  deriving DecidableEq, Repr

/-- The context of a line, with four lines on either side. There is no line 0,
but the lines behind it are found. -/
def sourceContext (file : Option SourceFile) (lineNo : Nat) : SourceContext :=
  match file with
  | none => ⟨[], [], []⟩
  | some file =>
      let records := file.bytes.splitOn 10
      let last := min (sizeAdd lineNo additionalLines) records.length
      ⟨if 1 ≤ lineNo ∧ lineNo ≤ last then records.getD (lineNo - 1) [] else [],
        (records.take (min last (lineNo - 1))).drop (sizeSub lineNo additionalLines - 1),
        (records.take last).drop lineNo⟩

def SourceContext.toJson (c : SourceContext) : Json :=
  contextJson c.contextLine c.preContext c.postContext

theorem exists_getContextLines (file : Option SourceFile) (lineNo : Nat) :
    ∃ fuel, getContextLines file lineNo additionalLines fuel =
      some (sourceContext file lineNo).toJson := by
  cases file with
  | none => exact ⟨0, rfl⟩
  | some file =>
      rcases Nat.eq_zero_or_pos lineNo with rfl | hpos
      · obtain ⟨s, hloop, hs⟩ := loop_readAll (by decide : additionalLines < 2 ^ 64 - 1)
          (readAll_start file) (Nat.zero_add _) 0
        refine ⟨min additionalLines (file.bytes.splitOn 10).length, ?_⟩
        simp only [getContextLines, hloop, hs.contextLine_eq, hs.preContext_eq, hs.postContext_eq]
        simp [SourceContext.toJson, sourceContext, sizeAdd, additionalLines]
      · rw [getContextLines_eq_iff file hpos]
        simp [SourceContext.toJson, sourceContext, collected, hpos.ne', Nat.one_le_iff_ne_zero]

theorem getContextLines_of_le {file : Option SourceFile} {lineNo deltaLines fuel fuel' : Nat}
    {output : Json} (hle : fuel ≤ fuel')
    (h : getContextLines file lineNo deltaLines fuel = some output) :
    getContextLines file lineNo deltaLines fuel' = some output := by
  cases file with
  | none => exact h
  | some file =>
      rw [getContextLines] at h ⊢
      split at h
      · rename_i s hloop
        rw [Loop.loop_of_le hle hloop]
        exact h
      · cases h

end Sources

/-- The frame with the lines around it. -/
def FrameInfo.withContext (frameInfo : FrameInfo) (c : SourceContext) : Json :=
  .object [(lit "abs_path", .string frameInfo.absFilePath),
    (lit "context_line", .string c.contextLine),
    (lit "filename", .string frameInfo.fileName),
    (lit "function", .string frameInfo.functionName),
    (lit "in_app", .boolean (frameInfo.functionName.head? ≠ some 95)),
    (lit "lineno", .numberUnsigned frameInfo.lineNumber),
    (lit "package", .string (lit "package")),
    (lit "post_context", .array (c.postContext.map .string)),
    (lit "pre_context", .array (c.preContext.map .string))]

theorem addContext_toJson (fuel : Nat) (frameInfo : FrameInfo) :
    addContext files fuel frameInfo.toJson =
      (getContextLines (files frameInfo.absFilePath) frameInfo.lineNumber additionalLines
        fuel).map (copyLines frameInfo.toJson) := rfl

theorem copyLines_toJson (frameInfo : FrameInfo) (c : SourceContext) :
    copyLines frameInfo.toJson c.toJson = .ok (frameInfo.withContext c) := rfl

/-- What is reported of a frame. -/
def FrameInfo.reported (withSourceData : Bool) (frameInfo : FrameInfo) : Json :=
  if withSourceData then
    frameInfo.withContext (sourceContext (files frameInfo.absFilePath) frameInfo.lineNumber)
  else frameInfo.toJson

theorem addContext_of_le {fuel fuel' : Nat} {frameInfo : FrameInfo} {frame : Json}
    (hle : fuel ≤ fuel') (h : addContext files fuel frameInfo.toJson = some (.ok frame)) :
    addContext files fuel' frameInfo.toJson = some (.ok frame) := by
  rw [addContext_toJson] at h ⊢
  obtain ⟨output, houtput, hframe⟩ := Option.map_eq_some_iff.mp h
  rw [getContextLines_of_le hle houtput, Option.map_some, hframe]

theorem exists_addContext (frameInfo : FrameInfo) :
    ∃ fuel, addContext files fuel frameInfo.toJson =
      some (.ok (frameInfo.reported files true)) := by
  obtain ⟨fuel, hfuel⟩ :=
    exists_getContextLines (files frameInfo.absFilePath) frameInfo.lineNumber
  refine ⟨fuel, ?_⟩
  rw [addContext_toJson, hfuel, Option.map_some, copyLines_toJson]
  rfl

theorem exists_addContexts (frameInfos : List FrameInfo) :
    ∃ fuel, ∀ fuel', fuel ≤ fuel' → addContexts files fuel' (frameInfos.map FrameInfo.toJson) =
      some (.ok (frameInfos.map (FrameInfo.reported files true))) := by
  induction frameInfos with
  | nil => exact ⟨0, fun _ _ => rfl⟩
  | cons frameInfo frameInfos ih =>
      obtain ⟨fuel, hfuel⟩ := ih
      obtain ⟨first, hfirst⟩ := exists_addContext files frameInfo
      refine ⟨max first fuel, ?_⟩
      intro fuel' hle
      rw [List.map_cons, addContexts,
        addContext_of_le files ((Nat.le_max_left _ _).trans hle) hfirst, Option.bind_some,
        hfuel fuel' ((Nat.le_max_right _ _).trans hle)]
      rfl

theorem eq_of_addContext {fuel : Nat} {frameInfo : FrameInfo}
    {result : Except Json.TypeError Json}
    (h : addContext files fuel frameInfo.toJson = some result) :
    result = .ok (frameInfo.reported files true) := by
  obtain ⟨first, hfirst⟩ := exists_getContextLines (files frameInfo.absFilePath)
    frameInfo.lineNumber
  rw [addContext_toJson] at h
  obtain ⟨output, houtput, rfl⟩ := Option.map_eq_some_iff.mp h
  have hboth := getContextLines_of_le (Nat.le_max_left fuel first) houtput
  rw [getContextLines_of_le (Nat.le_max_right fuel first) hfirst] at hboth
  rw [← Option.some.inj hboth, copyLines_toJson]
  rfl

theorem eq_of_addContexts {fuel : Nat} {frameInfos : List FrameInfo}
    {result : Except Json.TypeError (List Json)}
    (h : addContexts files fuel (frameInfos.map FrameInfo.toJson) = some result) :
    result = .ok (frameInfos.map (FrameInfo.reported files true)) := by
  induction frameInfos generalizing result with
  | nil => exact (Option.some.inj h).symm
  | cons frameInfo frameInfos ih =>
      rw [List.map_cons, addContexts, Option.bind_eq_some_iff] at h
      obtain ⟨first, hfirst, hrest⟩ := h
      rw [eq_of_addContext files hfirst] at hrest
      obtain ⟨others, hothers, rfl⟩ := Option.map_eq_some_iff.mp hrest
      rw [ih hothers]
      rfl

/-- The line for the address is read as this frame. -/
def Machine.ReadsAs (m : Machine) (address : UInt64) (frameInfo : FrameInfo) : Prop :=
  ∃ line, m.processFile (m.matchOf address).fileName (address - (m.matchOf address).mBase) =
      .ok (some line) ∧ FrameInfo.ofLine line = .ok frameInfo

theorem frameOf_eq_iff (m : Machine) (address : UInt64) (frame : Json) :
    m.frameOf address = .ok frame ↔
      ∃ frameInfo, m.ReadsAs address frameInfo ∧ frame = frameInfo.toJson := by
  unfold Machine.frameOf Machine.ReadsAs
  cases hfile : m.processFile (m.matchOf address).fileName
      (address - (m.matchOf address).mBase) with
  | error e => simp [bind, Except.bind, hfile]
  | ok location =>
      cases location with
      | none => simp [bind, Except.bind, hfile]
      | some line =>
          cases hline : FrameInfo.ofLine line <;>
            simp [bind, Except.bind, hfile, hline, eq_comm]

theorem forall₂_frameOf_iff (m : Machine) (addresses : List UInt64) (frames : List Json) :
    List.Forall₂ (fun address frame => m.frameOf address = .ok frame) addresses frames ↔
      ∃ frameInfos, List.Forall₂ m.ReadsAs addresses frameInfos ∧
        frames = frameInfos.map FrameInfo.toJson := by
  induction addresses generalizing frames with
  | nil => simp
  | cons address addresses ih =>
      rw [List.forall₂_cons_left_iff]
      simp only [ih]
      simp only [frameOf_eq_iff, List.forall₂_cons_left_iff]
      constructor
      · rintro ⟨_, _, ⟨frameInfo, hreads, rfl⟩, ⟨frameInfos, hothers, rfl⟩, rfl⟩
        exact ⟨frameInfo :: frameInfos, ⟨frameInfo, frameInfos, hreads, hothers, rfl⟩, rfl⟩
      · rintro ⟨_, ⟨frameInfo, frameInfos, hreads, hothers, rfl⟩, rfl⟩
        exact ⟨_, _, ⟨frameInfo, hreads, rfl⟩, ⟨frameInfos, hothers, rfl⟩, rfl⟩

theorem createBacktraceSymbols_of_le {m : Machine} {stack : CallStack}
    {skipFront skipBack fuel fuel' : Nat} {result : Except Fault Json} (hle : fuel ≤ fuel')
    (h : createBacktraceSymbols m stack skipFront skipBack fuel = some result) :
    createBacktraceSymbols m stack skipFront skipBack fuel' = some result := by
  obtain ⟨last, hloop, hresult⟩ := Option.map_eq_some_iff.mp h
  exact Option.map_eq_some_iff.mpr ⟨last, Loop.loop_of_le hle hloop, hresult⟩

/-- The second pass, behind the first. -/
theorem exists_getStacktraceJSON (m : Machine) (withSourceData : Bool) (stack : CallStack)
    {skipFront skipBack fuel : Nat} {frameInfos : List FrameInfo}
    (h : createBacktraceSymbols m stack skipFront skipBack fuel =
      some (.ok (outputOf (frameInfos.map FrameInfo.toJson)))) :
    ∃ fuel', getStacktraceJSON files m withSourceData stack skipFront skipBack fuel' =
      some (.ok (outputOf (frameInfos.map (FrameInfo.reported files withSourceData)))) := by
  cases frameInfos with
  | nil => exact ⟨fuel, by rw [getStacktraceJSON, h]; rfl⟩
  | cons frameInfo frameInfos =>
      cases withSourceData with
      | false => exact ⟨fuel, by rw [getStacktraceJSON, h]; rfl⟩
      | true =>
          obtain ⟨later, hlater⟩ := exists_addContexts files (frameInfo :: frameInfos)
          refine ⟨max fuel later, ?_⟩
          rw [getStacktraceJSON, createBacktraceSymbols_of_le (Nat.le_max_left _ _) h]
          have hcontexts := hlater _ (Nat.le_max_right fuel later)
          simp only [List.map_cons] at hcontexts
          simp [outputOf, hcontexts]

theorem eq_of_getStacktraceJSON {m : Machine} {withSourceData : Bool} {stack : CallStack}
    {skipFront skipBack fuel : Nat} {frameInfos : List FrameInfo} {output : Json}
    (hsymbols : createBacktraceSymbols m stack skipFront skipBack fuel =
      some (.ok (outputOf (frameInfos.map FrameInfo.toJson))))
    (h : getStacktraceJSON files m withSourceData stack skipFront skipBack fuel =
      some (.ok output)) :
    output = outputOf (frameInfos.map (FrameInfo.reported files withSourceData)) := by
  rw [getStacktraceJSON, hsymbols] at h
  cases frameInfos with
  | nil =>
      cases h
      rfl
  | cons frameInfo frameInfos =>
      cases withSourceData with
      | false =>
          cases h
          rfl
      | true =>
          have harray : outputOf ((frameInfo :: frameInfos).map FrameInfo.toJson) =
              .array ((frameInfo :: frameInfos).map FrameInfo.toJson) := by
            simp [outputOf]
          simp only [harray, Option.bind_some, if_true] at h
          obtain ⟨result, hresult, houtput⟩ := Option.map_eq_some_iff.mp h
          rw [eq_of_addContexts files hresult] at houtput
          cases houtput
          simp [outputOf]

/-- The frames that are not skipped, outermost first, with their contexts. -/
theorem getStacktraceJSON_eq_ok_iff (m : Machine) (withSourceData : Bool) (stack : CallStack)
    {skipFront skipBack : Nat} (hfront : 1 ≤ skipFront)
    (hskip : skipFront + skipBack ≤ stack.addresses.length) (output : Json) :
    (∃ fuel, getStacktraceJSON files m withSourceData stack skipFront skipBack fuel =
        some (.ok output)) ↔
      ∃ frameInfos, List.Forall₂ m.ReadsAs (stack.retained skipFront skipBack) frameInfos ∧
        output = outputOf (frameInfos.map (FrameInfo.reported files withSourceData)) := by
  have hsymbols : ∀ result,
      (∃ fuel, createBacktraceSymbols m stack skipFront skipBack fuel = some (.ok result)) ↔
        ∃ frameInfos, List.Forall₂ m.ReadsAs (stack.retained skipFront skipBack) frameInfos ∧
          result = outputOf (frameInfos.map FrameInfo.toJson) := by
    intro result
    rw [createBacktraceSymbols_eq_ok_iff m stack hfront hskip]
    apply (collect_eq_ok_iff m _ [] result).trans
    simp only [forall₂_frameOf_iff, List.nil_append]
    constructor
    · rintro ⟨_, ⟨frameInfos, hreads, rfl⟩, rfl⟩
      exact ⟨frameInfos, hreads, rfl⟩
    · rintro ⟨frameInfos, hreads, rfl⟩
      exact ⟨_, ⟨frameInfos, hreads, rfl⟩, rfl⟩
  constructor
  · rintro ⟨fuel, hfuel⟩
    have hsource := hfuel
    rw [getStacktraceJSON, Option.bind_eq_some_iff] at hfuel
    obtain ⟨result, hresult, houtput⟩ := hfuel
    cases result with
    | error e => cases houtput
    | ok result =>
        obtain ⟨frameInfos, hreads, rfl⟩ := (hsymbols result).mp ⟨fuel, hresult⟩
        exact ⟨frameInfos, hreads, eq_of_getStacktraceJSON files hresult hsource⟩
  · rintro ⟨frameInfos, hreads, rfl⟩
    obtain ⟨fuel, hfuel⟩ := (hsymbols _).mpr ⟨frameInfos, hreads, rfl⟩
    exact exists_getStacktraceJSON files m withSourceData stack hfuel

theorem exists_readsAs_iff (m : Machine) (address : UInt64) :
    (∃ frameInfo, m.ReadsAs address frameInfo) ↔ m.Reports address := by
  rw [← frameOf_isOk_iff]
  simp only [frameOf_eq_iff]
  constructor
  · rintro ⟨frameInfo, hreads⟩
    exact ⟨_, frameInfo, hreads, rfl⟩
  · rintro ⟨_, frameInfo, hreads, rfl⟩
    exact ⟨frameInfo, hreads⟩

theorem exists_frameInfos_iff (m : Machine) (addresses : List UInt64) :
    (∃ frameInfos, List.Forall₂ m.ReadsAs addresses frameInfos) ↔
      ∀ address ∈ addresses, m.Reports address := by
  rw [← exists_frames_iff]
  simp only [forall₂_frameOf_iff]
  constructor
  · rintro ⟨frameInfos, hreads⟩
    exact ⟨_, frameInfos, hreads, rfl⟩
  · rintro ⟨_, frameInfos, hreads, rfl⟩
    exact ⟨frameInfos, hreads⟩

/-- The debug information of the file that is loaded at the address. -/
def Machine.debugInfo (m : Machine) (address : UInt64) : Option FileLineDesc :=
  (m.openr (m.matchOf address).fileName).bind fun abfd =>
    abfd.lookup (address - (m.matchOf address).mBase)

/-- Where the file name has neither a colon nor a space, the frame is that of
the debug information. -/
theorem eq_frame_of_readsAs {m : Machine} {address : UInt64} {frameInfo : FrameInfo}
    (h : m.ReadsAs address frameInfo) {desc : FileLineDesc}
    (hdesc : m.debugInfo address = some desc) (hcolon : 58 ∉ desc.fileText)
    (hspace : 32 ∉ desc.fileText) :
    frameInfo = desc.frame m.demangle (address - (m.matchOf address).mBase) := by
  obtain ⟨line, hline, hread⟩ := h
  obtain ⟨abfd, hopen, -, -, -, -, rfl⟩ := (processFile_eq_line_iff m _ _ line).mp hline
  have hlookup : abfd.lookup (address - (m.matchOf address).mBase) = some desc := by
    rw [Machine.debugInfo, hopen] at hdesc
    exact hdesc
  rw [hlookup, ofLine_found_eq m.demangle _ desc hcolon,
    functionNameStr_of_noSpace m.demangle hspace] at hread
  exact (Except.ok.inj hread).symm

/-- A stack trace comes out if and only if each of the frames that are not skipped
can be reported, whatever source files there are. It has these frames and no
others, the outermost first; each has the path, the line and the function of the
debug information, unless a colon or a space in the path keeps them from being
read, and with source data the lines around that line. -/
theorem getStacktraceJSON_reports (m : Machine) (withSourceData : Bool) (stack : CallStack)
    {skipFront skipBack : Nat} (hfront : 1 ≤ skipFront)
    (hskip : skipFront + skipBack ≤ stack.addresses.length) :
    ((∃ fuel output, getStacktraceJSON files m withSourceData stack skipFront skipBack fuel =
        some (.ok output)) ↔
      ∀ address ∈ stack.retained skipFront skipBack, m.Reports address) ∧
    ∀ fuel output, getStacktraceJSON files m withSourceData stack skipFront skipBack fuel =
        some (.ok output) →
      ∃ frames, output = outputOf frames ∧
        List.Forall₂ (fun address frame => ∀ desc, m.debugInfo address = some desc →
            58 ∉ desc.fileText → 32 ∉ desc.fileText →
            frame = (desc.frame m.demangle (address - (m.matchOf address).mBase)).reported files
              withSourceData)
          (stack.retained skipFront skipBack) frames := by
  have hframes := getStacktraceJSON_eq_ok_iff files m withSourceData stack hfront hskip
  constructor
  · rw [← exists_frameInfos_iff]
    constructor
    · rintro ⟨fuel, output, houtput⟩
      obtain ⟨frameInfos, hreads, -⟩ := (hframes output).mp ⟨fuel, houtput⟩
      exact ⟨frameInfos, hreads⟩
    · rintro ⟨frameInfos, hreads⟩
      obtain ⟨fuel, hfuel⟩ := (hframes _).mpr ⟨frameInfos, hreads, rfl⟩
      exact ⟨fuel, _, hfuel⟩
  · intro fuel output houtput
    obtain ⟨frameInfos, hreads, rfl⟩ := (hframes output).mp ⟨fuel, houtput⟩
    refine ⟨_, rfl, ?_⟩
    rw [List.forall₂_map_right_iff]
    apply hreads.imp
    intro address frameInfo hread desc hdesc hcolon hspace
    rw [eq_frame_of_readsAs hread hdesc hcolon hspace]

theorem getStacktraceJSON_reports_debugMachine :
    ∃ fuel, getStacktraceJSON (fun _ => some fiveLines) debugMachine true twoFrames 1 0 fuel =
      some (.ok (.array [(FileLineDesc.frame (fun _ => none) ⟨none, none, 7⟩ 0x402000).withContext
        ⟨[], [lit "c", lit "d", lit "e"], []⟩])) := by
  have hreports := getStacktraceJSON_reports (fun _ => some fiveLines) debugMachine true twoFrames
    (le_refl 1) (by decide : 1 + 0 ≤ twoFrames.addresses.length)
  have hretained : twoFrames.retained 1 0 = [0x402000] := by decide
  rw [hretained] at hreports
  obtain ⟨fuel, output, houtput⟩ := hreports.1.mpr (by
    intro address haddress
    obtain rfl := List.mem_singleton.mp haddress
    exact ⟨_, ⟨none, none, 7⟩, rfl, rfl, rfl, rfl, by decide, rfl, by decide⟩)
  obtain ⟨frames, rfl, hframes⟩ := hreports.2 fuel output houtput
  cases hframes with
  | cons hframe hrest =>
      cases hrest
      rw [hframe ⟨none, none, 7⟩ rfl (by decide) (by decide)] at houtput
      exact ⟨fuel, houtput⟩

end Sentry.Backtrace
