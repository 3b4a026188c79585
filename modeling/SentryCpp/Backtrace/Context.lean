import SentryCpp.External.Json
import SentryCpp.Foundation.Lines
import SentryCpp.Foundation.Loop

/-!
The source lines around a line of a file, as `getContextLines` collects them.

Two of its tests go wrong at the ends of a file. The first line of the window
is `lineNo - deltaLines`, which wraps when the window would start above the
file; no line then counts as one before `lineNo`. And the end of the file is
looked for before a line is read, so that behind a final newline one more line
is read, an empty one that is not there.
-/

namespace Sentry.Backtrace

open StdString

/-- The content of a file, whose size is an `off_t`. -/
structure SourceFile where
  bytes : Bytes
  length_lt : bytes.length < 2 ^ 63

/-- The variables of the loop. -/
structure ContextLoop where
  i : Nat
  file : IfStream
  currentLine : Bytes
  contextLine : Bytes
  preContext : List Bytes
  postContext : List Bytes

def ContextLoop.start (file : SourceFile) : ContextLoop where
  i := 1
  file := IfStream.opened file.bytes
  currentLine := []
  contextLine := []
  preContext := []
  postContext := []

def ContextLoop.readsOn (lineNo deltaLines : Nat) (s : ContextLoop) : Bool :=
  decide (s.i ≤ sizeAdd lineNo deltaLines) && !s.file.eofbit

def ContextLoop.getline (s : ContextLoop) : ContextLoop :=
  { s with
    file := (s.file.getline s.currentLine).1
    currentLine := (s.file.getline s.currentLine).2 }

/-- The line that has been read, put where the tests on its number say. -/
def ContextLoop.place (lineNo deltaLines : Nat) (s : ContextLoop) : ContextLoop :=
  if sizeSub lineNo deltaLines ≤ s.i ∧ s.i < lineNo then
    { s with preContext := s.preContext ++ [s.currentLine] }
  else if s.i = lineNo then { s with contextLine := s.currentLine }
  else if lineNo < s.i ∧ s.i ≤ sizeAdd lineNo deltaLines then
    { s with postContext := s.postContext ++ [s.currentLine] }
  else s

def ContextLoop.round (lineNo deltaLines : Nat) (_ : Nat) (s : ContextLoop) :
    Except Empty ContextLoop :=
  let s := s.getline.place lineNo deltaLines
  .ok { s with i := sizeAdd s.i 1 }

/-- The object that is returned. -/
def contextJson (contextLine : Bytes) (preContext postContext : List Bytes) : Json :=
  .object [(lit "context_line", .string contextLine),
    (lit "post_context", .array (postContext.map .string)),
    (lit "pre_context", .array (preContext.map .string))]

/-- `getContextLines`, with `none` for a file that cannot be opened. -/
def getContextLines (file : Option SourceFile) (lineNo deltaLines fuel : Nat) : Option Json :=
  match file with
  | none => some (contextJson [] [] [])
  | some file =>
      match Loop.loop (ContextLoop.readsOn lineNo deltaLines)
          (ContextLoop.round lineNo deltaLines) fuel 0 (ContextLoop.start file) with
      | some (.ok s) => some (contextJson s.contextLine s.preContext s.postContext)
      | _ => none

/-- A file of three lines, with a window of one line. -/
example : getContextLines (some ⟨lit "a\nb\nc", by decide⟩) 2 1 5 =
    some (contextJson (lit "b") [lit "a"] [lit "c"]) := rfl

/-- The loop when it has read `k` of the records, where the window starts at
line `first`. -/
structure ReadTo (records : List Bytes) (lineNo first k : Nat) (s : ContextLoop) : Prop where
  i_eq : s.i = k + 1
  records_eq : s.file.records = records.drop k
  failsAtEof : s.file.FailsAtEof
  contextLine_eq : s.contextLine = if lineNo ≤ k then records.getD (lineNo - 1) [] else []
  preContext_eq : s.preContext = (records.take (min k (lineNo - 1))).drop (first - 1)
  postContext_eq : s.postContext = (records.take k).drop lineNo

theorem readTo_start (file : SourceFile) {lineNo : Nat} (hpos : 1 ≤ lineNo) (first : Nat) :
    ReadTo (file.bytes.splitOn 10) lineNo first 0 (ContextLoop.start file) where
  i_eq := rfl
  records_eq := rfl
  failsAtEof := IfStream.failsAtEof_opened _
  contextLine_eq := by
    rw [if_neg (by omega)]
    rfl
  preContext_eq := by simp [ContextLoop.start]
  postContext_eq := by simp [ContextLoop.start]

/-- A piece that ends one element later. -/
theorem drop_take_succ {α : Type} (l : List α) {k a : Nat} (hk : k < l.length) (ha : a ≤ k) :
    (l.take (k + 1)).drop a = (l.take k).drop a ++ [l[k]] := by
  rw [List.take_add_one, List.getElem?_eq_getElem hk, Option.toList_some,
    List.drop_append_of_le_length (by rw [List.length_take]; omega)]

theorem drop_take_of_le {α : Type} (l : List α) {k a : Nat} (h : k ≤ a) :
    (l.take k).drop a = [] := by
  apply List.drop_eq_nil_of_le
  rw [List.length_take]
  omega

section Run

variable {records : List Bytes} {lineNo deltaLines k : Nat} {s : ContextLoop}

theorem readsOn_iff (h : ReadTo records lineNo (sizeSub lineNo deltaLines) k s) :
    s.readsOn lineNo deltaLines = true ↔
      k < min (sizeAdd lineNo deltaLines) records.length := by
  have heof : s.file.eofbit = true ↔ records.length ≤ k := by
    rw [← IfStream.records_eq_nil_iff, h.records_eq, List.drop_eq_nil_iff]
  rw [ContextLoop.readsOn, Bool.and_eq_true, decide_eq_true_eq, Bool.not_eq_true',
    ← Bool.not_eq_true, heof, h.i_eq]
  omega

/-- A line before `lineNo` that is in the window, or above it. -/
theorem place_of_lt (h : s.i < lineNo) :
    s.place lineNo deltaLines = { s with
      preContext := if sizeSub lineNo deltaLines ≤ s.i then s.preContext ++ [s.currentLine]
        else s.preContext } := by
  unfold ContextLoop.place
  by_cases hfirst : sizeSub lineNo deltaLines ≤ s.i
  · rw [if_pos ⟨hfirst, h⟩, if_pos hfirst]
  · rw [if_neg (fun hboth => hfirst hboth.1), if_neg h.ne, if_neg (fun hboth => h.asymm hboth.1),
      if_neg hfirst]

theorem place_of_eq (h : s.i = lineNo) :
    s.place lineNo deltaLines = { s with contextLine := s.currentLine } := by
  unfold ContextLoop.place
  rw [if_neg (fun hboth => hboth.2.ne h), if_pos h]

theorem place_of_gt (h : lineNo < s.i) (hbound : s.i ≤ sizeAdd lineNo deltaLines) :
    s.place lineNo deltaLines = { s with postContext := s.postContext ++ [s.currentLine] } := by
  unfold ContextLoop.place
  rw [if_neg (fun hboth => h.asymm hboth.2), if_neg h.ne', if_pos ⟨h, hbound⟩]

/-- One record more is read, and put on its side of `lineNo`. -/
theorem readTo_round (hpos : 1 ≤ lineNo) (hlen : records.length ≤ 2 ^ 63)
    (h : ReadTo records lineNo (sizeSub lineNo deltaLines) k s)
    (hk : k < min (sizeAdd lineNo deltaLines) records.length) (n : Nat) :
    ∃ t, ContextLoop.round lineNo deltaLines n s = .ok t ∧
      ReadTo records lineNo (sizeSub lineNo deltaLines) (k + 1) t := by
  have hlt : k < records.length := by omega
  have hrecords : s.file.records = records[k] :: records.drop (k + 1) := by
    rw [h.records_eq, List.drop_eq_getElem_cons hlt]
  obtain ⟨hline, hrest, hfails⟩ := IfStream.getline_of_records h.failsAtEof hrecords s.currentLine
  have hnext : sizeAdd s.i 1 = k + 1 + 1 := by
    rw [h.i_eq, sizeAdd_of_lt (by omega)]
  have hcontext := h.contextLine_eq
  have hpre := h.preContext_eq
  have hpost := h.postContext_eq
  refine ⟨{ s.getline.place lineNo deltaLines with
    i := sizeAdd (s.getline.place lineNo deltaLines).i 1 }, rfl, ?_⟩
  rcases lt_trichotomy s.getline.i lineNo with hbefore | hat | hafter
  · rw [place_of_lt hbefore]
    rw [ContextLoop.getline, h.i_eq] at hbefore
    have hmin : min k (lineNo - 1) = k := by omega
    have hmin' : min (k + 1) (lineNo - 1) = k + 1 := by omega
    refine ⟨hnext, hrest, hfails, ?_, ?_, ?_⟩ <;> simp only [ContextLoop.getline, h.i_eq, hline]
    · rw [hcontext, if_neg (by omega), if_neg (by omega)]
    · rw [hpre, hmin, hmin']
      by_cases hfirst : sizeSub lineNo deltaLines ≤ k + 1
      · rw [if_pos hfirst, drop_take_succ records hlt (by omega)]
      · rw [if_neg hfirst, drop_take_of_le records (by omega), drop_take_of_le records (by omega)]
    · rw [hpost, drop_take_of_le records (by omega), drop_take_of_le records (by omega)]
  · rw [place_of_eq hat]
    rw [ContextLoop.getline, h.i_eq] at hat
    have hmin : min (k + 1) (lineNo - 1) = min k (lineNo - 1) := by omega
    refine ⟨hnext, hrest, hfails, ?_, ?_, ?_⟩ <;> simp only [ContextLoop.getline, h.i_eq, hline]
    · have hindex : lineNo - 1 = k := by omega
      simp [hindex, hlt, hat.ge]
    · rw [hpre, hmin]
    · rw [hpost, drop_take_of_le records (by omega), drop_take_of_le records (by omega)]
  · have hbound : s.getline.i ≤ sizeAdd lineNo deltaLines := by
      rw [ContextLoop.getline, h.i_eq]
      omega
    rw [place_of_gt hafter hbound]
    rw [ContextLoop.getline, h.i_eq] at hafter
    have hmin : min (k + 1) (lineNo - 1) = min k (lineNo - 1) := by omega
    refine ⟨hnext, hrest, hfails, ?_, ?_, ?_⟩ <;> simp only [ContextLoop.getline, h.i_eq, hline]
    · rw [hcontext, if_pos (by omega), if_pos (by omega)]
    · rw [hpre, hmin]
    · rw [hpost, drop_take_succ records hlt (by omega)]

/-- From `k` records on, the loop reads to the end of the window or of the
file. -/
theorem loop_readTo (hpos : 1 ≤ lineNo) (hlen : records.length ≤ 2 ^ 63) {rounds : Nat}
    (h : ReadTo records lineNo (sizeSub lineNo deltaLines) k s)
    (hk : k + rounds = min (sizeAdd lineNo deltaLines) records.length) (n : Nat) :
    ∃ t, Loop.loop (ContextLoop.readsOn lineNo deltaLines)
        (ContextLoop.round lineNo deltaLines) rounds n s = some (.ok t) ∧
      ReadTo records lineNo (sizeSub lineNo deltaLines)
        (min (sizeAdd lineNo deltaLines) records.length) t := by
  induction rounds generalizing k s n with
  | zero =>
      have hstop : s.readsOn lineNo deltaLines = false := by
        rw [← Bool.not_eq_true, readsOn_iff h]
        omega
      refine ⟨s, by simp [Loop.loop, hstop], ?_⟩
      rwa [← hk]
  | succ rounds ih =>
      have hcond : s.readsOn lineNo deltaLines = true := (readsOn_iff h).mpr (by omega)
      obtain ⟨t, hround, ht⟩ := readTo_round hpos hlen h (by omega) n
      obtain ⟨u, hloop, hu⟩ := ih ht (by omega) (n + 1)
      exact ⟨u, by rw [Loop.loop, if_pos hcond, hround]; exact hloop, hu⟩

end Run

/-- What the loop has collected when it ends: the window is cut out of the
records, down to the last one that is read. -/
def collected (records : List Bytes) (lineNo deltaLines : Nat) : Json :=
  let last := min (sizeAdd lineNo deltaLines) records.length
  contextJson (if lineNo ≤ last then records.getD (lineNo - 1) [] else [])
    ((records.take (min last (lineNo - 1))).drop (sizeSub lineNo deltaLines - 1))
    ((records.take last).drop lineNo)

theorem length_records_le (file : SourceFile) : (file.bytes.splitOn 10).length ≤ 2 ^ 63 := by
  have hbytes := file.length_lt
  have hrecords := length_splitOn_le file.bytes
  omega

/-- The loop ends, and with one result whatever the fuel. -/
theorem getContextLines_eq_iff (file : SourceFile) {lineNo : Nat} (hpos : 1 ≤ lineNo)
    (deltaLines : Nat) (output : Json) :
    (∃ fuel, getContextLines (some file) lineNo deltaLines fuel = some output) ↔
      output = collected (file.bytes.splitOn 10) lineNo deltaLines := by
  obtain ⟨s, hloop, hs⟩ := loop_readTo hpos (length_records_le file)
    (readTo_start file hpos (sizeSub lineNo deltaLines)) (Nat.zero_add _) 0
  have hresult : getContextLines (some file) lineNo deltaLines
      (min (sizeAdd lineNo deltaLines) (file.bytes.splitOn 10).length) =
      some (collected (file.bytes.splitOn 10) lineNo deltaLines) := by
    simp only [getContextLines, hloop, collected]
    rw [hs.contextLine_eq, hs.preContext_eq, hs.postContext_eq]
  constructor
  · rintro ⟨fuel, hfuel⟩
    unfold getContextLines at hfuel
    simp only at hfuel
    split at hfuel
    · rename_i t hend
      cases Loop.loop_unique hend hloop
      simpa only [getContextLines, hloop, hfuel, Option.some.injEq] using hresult
    · cases hfuel
  · rintro rfl
    exact ⟨_, hresult⟩

/-- The lines around the line `lineNo`, the first line being line 1. -/
def contextWindow (lines : List Bytes) (lineNo deltaLines : Nat) : Json :=
  contextJson (lines.getD (lineNo - 1) [])
    ((lines.take (lineNo - 1)).drop (lineNo - 1 - deltaLines))
    ((lines.drop lineNo).take deltaLines)

/-- The window does not start above line 0, unless at line 1, its end does not
wrap, and it ends with the file at the latest if the file ends with a newline.
Besides, there is the one file whose only line is the empty string that is
returned when nothing is read. -/
def WindowFits (file : SourceFile) (lineNo deltaLines : Nat) : Prop :=
  ((lineNo = 1 ∨ deltaLines ≤ lineNo) ∧ lineNo + deltaLines < 2 ^ 64 ∧
    (file.bytes.getLast? = some 10 → lineNo + deltaLines ≤ (lines file.bytes).length)) ∨
  (file.bytes = [10] ∧ deltaLines = 2 ^ 64 - 1)

theorem contextJson_inj {line line' : Bytes} {pre pre' post post' : List Bytes} :
    contextJson line pre post = contextJson line' pre' post' ↔
      line = line' ∧ pre = pre' ∧ post = post' := by
  have hinj : Function.Injective Json.string := fun _ _ h => Json.string.inj h
  simp [contextJson, hinj.list_map.eq_iff, and_comm]

/-- The records are the lines, and one more empty one behind a final newline. -/
theorem records_cases {file : SourceFile} (hlines : 1 ≤ (lines file.bytes).length) :
    (file.bytes.getLast? = some 10 ∧ file.bytes.splitOn 10 = lines file.bytes ++ [[]]) ∨
      (file.bytes.getLast? ≠ some 10 ∧ file.bytes.splitOn 10 = lines file.bytes) := by
  by_cases hlast : file.bytes.getLast? = some 10
  · exact .inl ⟨hlast, splitOn_of_getLast? hlast⟩
  · refine .inr ⟨hlast, splitOn_of_getLast?_ne ?_ hlast⟩
    intro hnil
    rw [hnil, lines_nil] at hlines
    simp at hlines

/-- A window that fits is what is collected. -/
theorem collected_of_fits {file : SourceFile} {lineNo deltaLines : Nat} (hpos : 1 ≤ lineNo)
    (hline : lineNo ≤ (lines file.bytes).length)
    (hstart : lineNo = 1 ∨ deltaLines ≤ lineNo) (hsum : lineNo + deltaLines < 2 ^ 64)
    (hend : file.bytes.getLast? = some 10 →
      lineNo + deltaLines ≤ (lines file.bytes).length) :
    collected (file.bytes.splitOn 10) lineNo deltaLines =
      contextWindow (lines file.bytes) lineNo deltaLines := by
  obtain ⟨tail, hrecords, htail⟩ : ∃ tail, file.bytes.splitOn 10 = lines file.bytes ++ tail ∧
      (tail = [] ∨ lineNo + deltaLines ≤ (lines file.bytes).length) := by
    rcases records_cases (hpos.trans hline) with ⟨hlast, heq⟩ | ⟨-, heq⟩
    · exact ⟨_, heq, .inr (hend hlast)⟩
    · exact ⟨[], by simpa using heq, .inl rfl⟩
  have hlen : (file.bytes.splitOn 10).length = (lines file.bytes).length + tail.length := by
    rw [hrecords, List.length_append]
  have hcontext : (file.bytes.splitOn 10).getD (lineNo - 1) [] =
      (lines file.bytes).getD (lineNo - 1) [] := by
    rw [hrecords, List.getD_eq_getElem?_getD, List.getElem?_append_left (by omega),
      List.getD_eq_getElem?_getD]
  have hbefore : (file.bytes.splitOn 10).take (lineNo - 1) =
      (lines file.bytes).take (lineNo - 1) := by
    rw [hrecords, List.take_append_of_le_length (by omega)]
  have hwindow : (file.bytes.splitOn 10).take
      (min (lineNo + deltaLines) (file.bytes.splitOn 10).length) =
        (lines file.bytes).take (lineNo + deltaLines) := by
    rcases htail with rfl | hle
    · rw [hrecords, List.append_nil, ← List.take_take, List.take_length]
    · rw [hrecords, List.take_append_of_le_length (by omega), List.length_append]
      congr 1
      omega
  have hmin : min (min (lineNo + deltaLines) (file.bytes.splitOn 10).length) (lineNo - 1) =
      lineNo - 1 := by omega
  rw [collected, sizeAdd_of_lt hsum, contextWindow, if_pos (by omega), hcontext, hmin, hbefore,
    hwindow, List.take_drop]
  congr 1
  rcases hstart with rfl | hle
  · simp
  · rw [sizeSub_of_le hle (by omega)]
    congr 1
    omega

/-- Where the first line of the window wraps, no line counts as one before
`lineNo`. -/
theorem eq_one_of_collected {records lines : List Bytes} {lineNo deltaLines last : Nat}
    (hpos : 1 ≤ lineNo) (hline : lineNo ≤ lines.length) (hlt : lineNo < deltaLines)
    (hdelta : deltaLines < 2 ^ 64)
    (h : (records.take (min last (lineNo - 1))).drop (sizeSub lineNo deltaLines - 1) =
      (lines.take (lineNo - 1)).drop (lineNo - 1 - deltaLines)) : lineNo = 1 := by
  have hfirst : lineNo ≤ sizeSub lineNo deltaLines - 1 := by
    rw [sizeSub_of_lt hlt hdelta]
    omega
  have hstart : lineNo - 1 - deltaLines = 0 := by omega
  rw [drop_take_of_le records (by omega), hstart, List.drop_zero] at h
  have hlen := congrArg List.length h
  rw [List.length_nil, List.length_take_of_le (by omega)] at hlen
  omega

/-- Behind a final newline the empty record makes the window too long. -/
theorem le_length_of_collected {lines : List Bytes} {lineNo deltaLines : Nat}
    (hline : lineNo ≤ lines.length)
    (h : ((lines ++ [[]]).take (min (lineNo + deltaLines) (lines ++ [[]]).length)).drop lineNo =
      (lines.drop lineNo).take deltaLines) : lineNo + deltaLines ≤ lines.length := by
  have hlen := congrArg List.length h
  simp only [List.length_drop, List.length_take, List.length_append, List.length_singleton] at hlen
  omega

/-- A window that does not fit is not what is collected. -/
theorem fits_of_collected {file : SourceFile} {lineNo deltaLines : Nat} (hpos : 1 ≤ lineNo)
    (hline : lineNo ≤ (lines file.bytes).length) (hdelta : deltaLines < 2 ^ 64)
    (h : collected (file.bytes.splitOn 10) lineNo deltaLines =
      contextWindow (lines file.bytes) lineNo deltaLines) :
    WindowFits file lineNo deltaLines := by
  obtain ⟨hcontext, hpre, hpost⟩ := contextJson_inj.mp h
  have hstart : lineNo = 1 ∨ deltaLines ≤ lineNo := by
    rcases Nat.lt_or_ge lineNo deltaLines with hlt | hge
    · exact .inl (eq_one_of_collected hpos hline hlt hdelta hpre)
    · exact .inr hge
  rcases Nat.lt_or_ge (lineNo + deltaLines) (2 ^ 64) with hsum | hwrap
  · refine .inl ⟨hstart, hsum, ?_⟩
    intro hlast
    rw [sizeAdd_of_lt hsum, splitOn_of_getLast? hlast] at hpost
    exact le_length_of_collected hline hpost
  · right
    have hlines := length_lines_le file.bytes
    have hbytes := file.length_lt
    have hone : lineNo = 1 := by omega
    have hmax : deltaLines = 2 ^ 64 - 1 := by omega
    have hzero : sizeAdd lineNo deltaLines = 0 := by
      rw [hone, hmax]
      rfl
    rw [hzero, Nat.zero_min, if_neg (by omega), hone] at hcontext
    rw [hzero, Nat.zero_min, List.take_zero, List.drop_nil, hone] at hpost
    obtain ⟨line, heq⟩ : ∃ line, lines file.bytes = [line] := by
      have hlen := congrArg List.length hpost
      rw [List.length_nil, List.length_take, List.length_drop] at hlen
      rw [← List.length_eq_one_iff]
      omega
    rw [heq] at hcontext
    have hempty : line = [] := hcontext.symm
    rw [← lines_eq_singleton_nil_iff, heq, hempty]
    exact ⟨rfl, hmax⟩

/-- The lines of the window, and no others, are returned if and only if the
window fits. -/
theorem getContextLines_window_iff (file : SourceFile) {lineNo deltaLines : Nat}
    (hpos : 1 ≤ lineNo) (hline : lineNo ≤ (lines file.bytes).length)
    (hdelta : deltaLines < 2 ^ 64) :
    (∃ fuel, getContextLines (some file) lineNo deltaLines fuel =
      some (contextWindow (lines file.bytes) lineNo deltaLines)) ↔
    WindowFits file lineNo deltaLines := by
  rw [getContextLines_eq_iff file hpos]
  constructor
  · intro h
    exact fits_of_collected hpos hline hdelta h.symm
  · rintro (⟨hstart, hsum, hend⟩ | ⟨hbytes, rfl⟩)
    · exact (collected_of_fits hpos hline hstart hsum hend).symm
    · have hlines : lines file.bytes = [[]] := (lines_eq_singleton_nil_iff _).mpr hbytes
      rw [hlines] at hline ⊢
      obtain rfl : lineNo = 1 := by
        simp at hline
        omega
      rfl

/-- A file of five lines that does not end with a newline. -/
def fiveLines : SourceFile := ⟨lit "a\nb\nc\nd\ne", by decide⟩

theorem getContextLines_fiveLines :
    ∃ fuel, getContextLines (some fiveLines) 4 4 fuel =
      some (contextWindow (lines fiveLines.bytes) 4 4) := by
  apply (getContextLines_window_iff fiveLines (by decide) (by decide) (by decide)).mpr
  exact .inl ⟨.inr (by decide), by decide, by decide⟩

/-- Of the lines around line 2 the one before it is missing. -/
theorem not_getContextLines_window :
    ¬ ∀ (file : SourceFile) (lineNo deltaLines : Nat), 1 ≤ lineNo →
      lineNo ≤ (lines file.bytes).length → deltaLines < 2 ^ 64 →
      ∃ fuel, getContextLines (some file) lineNo deltaLines fuel =
        some (contextWindow (lines file.bytes) lineNo deltaLines) := by
  intro hall
  have hwindow := hall fiveLines 2 4 (by decide) (by decide) (by decide)
  rw [getContextLines_eq_iff fiveLines (by decide)] at hwindow
  obtain ⟨-, hpre, -⟩ := contextJson_inj.mp hwindow
  revert hpre
  decide

end Sentry.Backtrace
