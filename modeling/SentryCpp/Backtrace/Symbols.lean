import SentryCpp.Backtrace.Accepted
import SentryCpp.External.Json
import SentryCpp.Foundation.Loop

/-!
From the addresses of a call stack to the frames of a report. For each address
`createBacktraceSymbols` looks for the object that is loaded there, lets
`processFile` write the line of the address, and reads the line into a frame.
`processFile` returns null where it cannot open the object or finds no symbols
in it, and its caller reads through the null. So a stack is reported if and
only if each of its frames is, and if there is a frame at all: without one the
output stays null.

What the dynamic loader and libbfd know is the `Machine`.
-/

namespace Sentry.Backtrace

open StdString Number

/-- What `processFile` and its caller can end in. A read of what was never
written, or through a null pointer, has no defined behaviour. -/
inductive Fault where
  | nullRead
  | invalidRead
  | std (e : StdError)
  | json (e : Json.TypeError)
  deriving DecidableEq

structure Phdr where
  isLoad : Bool
  vaddr : UInt64
  memsz : UInt64

/-- What `dl_iterate_phdr` passes for one loaded object. -/
structure PhdrInfo where
  addr : UInt64
  name : Bytes
  phdrs : List Phdr

structure FileMatch where
  mFile : Option Bytes
  mBase : UInt64

structure Section where
  isAlloc : Bool
  vma : UInt64
  size : UInt64
  /-- `bfd_find_nearest_line` for an offset into the section. -/
  findNearestLine : UInt64 → Option FileLineDesc

/-- What libbfd says about a file that it has opened. -/
structure Bfd where
  isArchive : Bool
  isObject : Bool
  hasSyms : Bool
  /-- `bfd_read_minisymbols`, for the dynamic symbols or the others. It does not
  write its result if there are none. -/
  readMinisymbols : Bool → Int
  sections : List Section

structure Machine where
  phdrInfos : List PhdrInfo
  openr : Bytes → Option Bfd
  demangle : CString → Option CString

def findMatchingFile (address : UInt64) (info : PhdrInfo) : Bool :=
  info.phdrs.any fun phdr =>
    phdr.isLoad && decide (phdr.vaddr + info.addr ≤ address) &&
      decide (address < phdr.vaddr + info.addr + phdr.memsz)

/-- The `FileMatch` when `dl_iterate_phdr` returns. -/
def Machine.matchOf (m : Machine) (address : UInt64) : FileMatch :=
  match m.phdrInfos.find? (findMatchingFile address) with
  | some info => ⟨some info.name, info.addr⟩
  | none => ⟨none, 0⟩

/-- The file that is looked into for an address. -/
def FileMatch.fileName (fileMatch : FileMatch) : Bytes :=
  match fileMatch.mFile with
  | some [] | none => lit "/proc/self/exe"
  | some file => file

def findAddressInSection (pc : UInt64) (found : Option FileLineDesc) (asection : Section) :
    Option FileLineDesc :=
  if found.isSome then found
  else if !asection.isAlloc then none
  else if pc < asection.vma then none
  else if asection.vma + asection.size ≤ pc then none
  else asection.findNearestLine (pc - asection.vma)

/-- What is found when all sections are gone through. -/
def Bfd.lookup (abfd : Bfd) (pc : UInt64) : Option FileLineDesc :=
  abfd.sections.foldl (findAddressInSection pc) none

def Bfd.symcount (abfd : Bfd) : Int :=
  if abfd.readMinisymbols false = 0 then abfd.readMinisymbols true
  else abfd.readMinisymbols false

/-- Whether the result is not null. With no symbols of either kind it is the
uninitialised `syms`. -/
def kstSlurpSymtab (abfd : Bfd) : Except Fault Bool :=
  if !abfd.hasSyms then .ok false
  else if abfd.symcount < 0 then .ok false
  else if abfd.symcount = 0 then .error .invalidRead
  else .ok true

/-- `processFile` for one address, with `none` for null. -/
def Machine.processFile (m : Machine) (fileName : Bytes) (addr : UInt64) :
    Except Fault (Option Bytes) :=
  match m.openr fileName with
  | none => .ok none
  | some abfd =>
      if abfd.isArchive then .ok none
      else if !abfd.isObject then .ok none
      else do
        let syms ← kstSlurpSymtab abfd
        if !syms then .ok none
        else .ok (some (translateAddress m.demangle addr (abfd.lookup addr)))

def FrameInfo.toJson (frameInfo : FrameInfo) : Json :=
  .object [(lit "abs_path", .string frameInfo.absFilePath),
    (lit "filename", .string frameInfo.fileName),
    (lit "function", .string frameInfo.functionName),
    (lit "in_app", .boolean (frameInfo.functionName.head? ≠ some 95)),
    (lit "lineno", .numberUnsigned frameInfo.lineNumber),
    (lit "package", .string (lit "package"))]

/-- The frame that the loop of `createBacktraceSymbols` makes of an address. -/
def Machine.frameOf (m : Machine) (address : UInt64) : Except Fault Json := do
  let fileMatch := m.matchOf address
  let location ← m.processFile fileMatch.fileName (address - fileMatch.mBase)
  match location with
  | none => .error .nullRead
  | some line =>
      match FrameInfo.ofLine line with
      | .ok frameInfo => .ok frameInfo.toJson
      | .error e => .error (.std e)

/-- `output.push_back(frame)`. -/
def pushFrame (output frame : Json) : Except Fault Json :=
  match output.pushBackValue frame with
  | .ok output => .ok output
  | .error e => .error (.json e)

/-- One round of the loop at the index `s.1`. -/
def Machine.round (m : Machine) (addrList : List UInt64) (_ : Nat) (s : Nat × Json) :
    Except Fault (Nat × Json) :=
  match addrList[s.1]? with
  | none => .error .invalidRead
  | some address => do
      let frame ← m.frameOf address
      let output ← pushFrame s.2 frame
      return (sizeSub s.1 1, output)

/-- The addresses that `backtrace` has stored. Their number is an `int`. -/
structure CallStack where
  addresses : List UInt64
  length_lt : addresses.length < 2 ^ 31

def createBacktraceSymbols (m : Machine) (stack : CallStack) (skipFront skipBack fuel : Nat) :
    Option (Except Fault Json) :=
  let numberOfFramesInOutput :=
    sizeSub (sizeSub stack.addresses.length skipBack) skipFront
  (Loop.loop (fun s => decide (skipFront ≤ s.1)) (m.round stack.addresses) fuel 0
    (sizeSub (sizeAdd numberOfFramesInOutput skipFront) 1, .null)).map (Except.map Prod.snd)

/-- The addresses that are not skipped, outermost first. -/
def CallStack.retained (stack : CallStack) (skipFront skipBack : Nat) : List UInt64 :=
  ((stack.addresses.drop skipFront).take
    (stack.addresses.length - skipBack - skipFront)).reverse

/-- The frames of the addresses, one after the other. -/
def Machine.collect (m : Machine) (addresses : List UInt64) (output : Json) :
    Except Fault Json :=
  addresses.foldlM (fun output address => m.frameOf address >>= pushFrame output) output

/-- The index counts down to the last frame in front of those skipped. -/
theorem loop_eq_collect (m : Machine) {addresses : List UInt64} {skipFront k : Nat}
    (hfront : 1 ≤ skipFront) (hk : skipFront + k ≤ addresses.length)
    (hlen : addresses.length < 2 ^ 31) (i : Nat) (output : Json) :
    Loop.loop (fun s => decide (skipFront ≤ s.1)) (m.round addresses) k i
        (skipFront + k - 1, output) =
      some ((m.collect ((addresses.drop skipFront).take k).reverse output).map
        fun output => (skipFront - 1, output)) := by
  induction k generalizing i output with
  | zero =>
      have hdone : decide (skipFront ≤ skipFront + 0 - 1) = false := by
        rw [decide_eq_false_iff_not]
        omega
      simp only [Loop.loop, hdone]
      rfl
  | succ k ih =>
      have hlt : skipFront + k < addresses.length := by omega
      have hcond : decide (skipFront ≤ skipFront + (k + 1) - 1) = true := by
        rw [decide_eq_true_eq]
        omega
      have hlast : ((addresses.drop skipFront).take (k + 1)).reverse =
          addresses[skipFront + k] :: ((addresses.drop skipFront).take k).reverse := by
        rw [List.take_add_one, List.getElem?_drop, List.getElem?_eq_getElem hlt,
          Option.toList_some, List.reverse_append, List.reverse_singleton, List.singleton_append]
      have hnext : sizeSub (skipFront + k) 1 = skipFront + k - 1 :=
        sizeSub_of_le (by omega) (by omega)
      rw [Loop.loop, if_pos hcond, hlast, Machine.collect, List.foldlM_cons]
      simp only [Machine.round, Nat.add_succ_sub_one, List.getElem?_eq_getElem hlt]
      cases hframe : m.frameOf addresses[skipFront + k] with
      | error e => rfl
      | ok frame =>
          cases hpush : pushFrame output frame with
          | error e => simp [bind, Except.bind, hpush, Except.map]
          | ok output' =>
              simp only [bind, Except.bind, hpush, hnext, pure, Except.pure]
              exact ih (by omega) (i + 1) output'

theorem createBacktraceSymbols_eq (m : Machine) (stack : CallStack) {skipFront skipBack : Nat}
    (hfront : 1 ≤ skipFront) (hskip : skipFront + skipBack ≤ stack.addresses.length) :
    createBacktraceSymbols m stack skipFront skipBack
        (stack.addresses.length - skipBack - skipFront) =
      some (m.collect (stack.retained skipFront skipBack) .null) := by
  have hlen := stack.length_lt
  have hcount : sizeSub (sizeSub stack.addresses.length skipBack) skipFront =
      stack.addresses.length - skipBack - skipFront := by
    have hback : sizeSub stack.addresses.length skipBack = stack.addresses.length - skipBack :=
      sizeSub_of_le (by omega) (by omega)
    rw [hback, sizeSub_of_le (by omega) (by omega)]
  have hfirst : sizeSub (sizeAdd (stack.addresses.length - skipBack - skipFront) skipFront) 1 =
      skipFront + (stack.addresses.length - skipBack - skipFront) - 1 := by
    rw [sizeAdd_of_lt (by omega), sizeSub_of_le (by omega) (by omega), Nat.add_comm skipFront]
  simp only [createBacktraceSymbols, hcount, hfirst]
  rw [loop_eq_collect m hfront (by omega) hlen, CallStack.retained]
  cases m.collect _ .null <;> rfl

/-- There is one result, whatever the fuel. -/
theorem createBacktraceSymbols_unique {m : Machine} {stack : CallStack}
    {skipFront skipBack fuel fuel' : Nat} {r r' : Except Fault Json}
    (h : createBacktraceSymbols m stack skipFront skipBack fuel = some r)
    (h' : createBacktraceSymbols m stack skipFront skipBack fuel' = some r') : r = r' := by
  obtain ⟨result, hloop, rfl⟩ := Option.map_eq_some_iff.mp h
  obtain ⟨result', hloop', rfl⟩ := Option.map_eq_some_iff.mp h'
  rw [Loop.loop_unique hloop hloop']

theorem createBacktraceSymbols_eq_ok_iff (m : Machine) (stack : CallStack)
    {skipFront skipBack : Nat} (hfront : 1 ≤ skipFront)
    (hskip : skipFront + skipBack ≤ stack.addresses.length) (output : Json) :
    (∃ fuel, createBacktraceSymbols m stack skipFront skipBack fuel = some (.ok output)) ↔
      m.collect (stack.retained skipFront skipBack) .null = .ok output := by
  have heq := createBacktraceSymbols_eq m stack hfront hskip
  constructor
  · rintro ⟨fuel, hfuel⟩
    exact createBacktraceSymbols_unique heq hfuel
  · intro hcollect
    exact ⟨_, heq.trans (by rw [hcollect])⟩

/-- The output of the loop after these frames. -/
def outputOf (frames : List Json) : Json := if frames = [] then .null else .array frames

theorem pushFrame_outputOf (frames : List Json) (frame : Json) :
    pushFrame (outputOf frames) frame = .ok (outputOf (frames ++ [frame])) := by
  cases frames <;> simp [outputOf, pushFrame, Json.pushBackValue]

theorem collect_eq_ok_iff (m : Machine) (addresses : List UInt64) (frames : List Json)
    (output : Json) :
    m.collect addresses (outputOf frames) = .ok output ↔
      ∃ new, List.Forall₂ (fun address frame => m.frameOf address = .ok frame) addresses new ∧
        output = outputOf (frames ++ new) := by
  induction addresses generalizing frames with
  | nil =>
      simp [Machine.collect, pure, Except.pure, eq_comm]
  | cons address addresses ih =>
      rw [Machine.collect, List.foldlM_cons]
      cases hframe : m.frameOf address with
      | error e => simp [bind, Except.bind, List.forall₂_cons_left_iff, hframe]
      | ok frame =>
          simp only [bind, Except.bind, pushFrame_outputOf]
          apply (ih (frames ++ [frame])).trans
          simp [List.forall₂_cons_left_iff, hframe]

/-- The address is found in a file with symbols, and the line for it can be
read. -/
def Machine.Reports (m : Machine) (address : UInt64) : Prop :=
  ∃ abfd desc, m.openr (m.matchOf address).fileName = some abfd ∧ abfd.isArchive = false ∧
    abfd.isObject = true ∧ abfd.hasSyms = true ∧ 0 < abfd.symcount ∧
    abfd.lookup (address - (m.matchOf address).mBase) = some desc ∧
    (58 ∈ desc.fileText → NumberAfterColon desc.fileText)

/-- The five ways to null, and the one to a line. -/
theorem processFile_eq_line_iff (m : Machine) (fileName : Bytes) (addr : UInt64) (line : Bytes) :
    m.processFile fileName addr = .ok (some line) ↔
      ∃ abfd, m.openr fileName = some abfd ∧ abfd.isArchive = false ∧ abfd.isObject = true ∧
        abfd.hasSyms = true ∧ 0 < abfd.symcount ∧
        translateAddress m.demangle addr (abfd.lookup addr) = line := by
  unfold Machine.processFile
  cases hopen : m.openr fileName with
  | none => simp
  | some abfd =>
      cases harchive : abfd.isArchive with
      | true => simp [harchive]
      | false =>
          cases hobject : abfd.isObject with
          | false => simp [harchive, hobject]
          | true =>
              cases hsyms : abfd.hasSyms with
              | false =>
                  simp [harchive, hobject, hsyms, kstSlurpSymtab, bind, Except.bind]
              | true =>
                  rcases lt_trichotomy abfd.symcount 0 with hneg | hzero | hpos
                  · simp [harchive, hobject, hsyms, kstSlurpSymtab, bind, Except.bind, hneg,
                      hneg.le]
                  · simp [harchive, hobject, hsyms, kstSlurpSymtab, bind, Except.bind, hzero]
                  · simp [harchive, hobject, hsyms, kstSlurpSymtab, bind, Except.bind, hpos,
                      hpos.le, hpos.ne', not_lt.mpr]

theorem frameOf_eq_ok_iff (m : Machine) (address : UInt64) :
    (∃ frame, m.frameOf address = .ok frame) ↔
      ∃ line, m.processFile (m.matchOf address).fileName
          (address - (m.matchOf address).mBase) = .ok (some line) ∧
        (FrameInfo.ofLine line).isOk = true := by
  unfold Machine.frameOf
  cases hfile : m.processFile (m.matchOf address).fileName
      (address - (m.matchOf address).mBase) with
  | error e => simp [bind, Except.bind, hfile]
  | ok location =>
      cases location with
      | none => simp [bind, Except.bind, hfile]
      | some line =>
          cases hline : FrameInfo.ofLine line <;>
            simp [bind, Except.bind, hfile, hline, Except.isOk, Except.toBool]

theorem frameOf_isOk_iff (m : Machine) (address : UInt64) :
    (∃ frame, m.frameOf address = .ok frame) ↔ m.Reports address := by
  rw [frameOf_eq_ok_iff]
  simp only [processFile_eq_line_iff]
  constructor
  · rintro ⟨line, ⟨abfd, hopen, harchive, hobject, hsyms, hcount, rfl⟩, hline⟩
    cases hlookup : abfd.lookup (address - (m.matchOf address).mBase) with
    | none =>
        rw [hlookup, ofLine_notFound] at hline
        cases hline
    | some desc =>
        rw [hlookup, ofLine_isOk_of_found] at hline
        exact ⟨abfd, desc, hopen, harchive, hobject, hsyms, hcount, hlookup, hline⟩
  · rintro ⟨abfd, desc, hopen, harchive, hobject, hsyms, hcount, hlookup, hcolon⟩
    refine ⟨_, ⟨abfd, hopen, harchive, hobject, hsyms, hcount, rfl⟩, ?_⟩
    rw [hlookup, ofLine_isOk_of_found]
    exact hcolon

/-- All frames of the addresses exist if and only if each of them does. -/
theorem exists_frames_iff (m : Machine) (addresses : List UInt64) :
    (∃ frames, List.Forall₂ (fun address frame => m.frameOf address = .ok frame) addresses frames) ↔
      ∀ address ∈ addresses, m.Reports address := by
  induction addresses with
  | nil => simp
  | cons address addresses ih =>
      rw [List.forall_mem_cons, ← ih, ← frameOf_isOk_iff]
      constructor
      · rintro ⟨_, hframes⟩
        cases hframes with
        | cons hframe hrest => exact ⟨⟨_, hframe⟩, _, hrest⟩
      · rintro ⟨⟨frame, hframe⟩, frames, hrest⟩
        exact ⟨frame :: frames, .cons hframe hrest⟩

/-- Every address that is not skipped has its frame in the result, the
outermost one first, if and only if there is such an address and each of them
is found in a file with symbols. -/
theorem createBacktraceSymbols_reports_iff (m : Machine) (stack : CallStack)
    {skipFront skipBack : Nat} (hfront : 1 ≤ skipFront)
    (hskip : skipFront + skipBack ≤ stack.addresses.length) :
    (∃ fuel frames,
      createBacktraceSymbols m stack skipFront skipBack fuel = some (.ok (.array frames)) ∧
      List.Forall₂ (fun address frame => m.frameOf address = .ok frame)
        (stack.retained skipFront skipBack) frames) ↔
    skipFront + skipBack < stack.addresses.length ∧
      ∀ address ∈ stack.retained skipFront skipBack, m.Reports address := by
  have hlength : (stack.retained skipFront skipBack).length =
      stack.addresses.length - skipBack - skipFront := by
    simp only [CallStack.retained, List.length_reverse, List.length_take, List.length_drop]
    omega
  have hcollect (output : Json) := (createBacktraceSymbols_eq_ok_iff m stack hfront hskip
    output).trans (collect_eq_ok_iff m (stack.retained skipFront skipBack) [] output)
  rw [← exists_frames_iff]
  constructor
  · rintro ⟨fuel, frames, hresult, hframes⟩
    obtain ⟨new, hnew, houtput⟩ := (hcollect (.array frames)).mp ⟨fuel, hresult⟩
    refine ⟨?_, frames, hframes⟩
    have hne : new ≠ [] := by
      rintro rfl
      cases houtput
    have hpos := List.length_pos_of_ne_nil hne
    rw [← hnew.length_eq, hlength] at hpos
    omega
  · rintro ⟨hlt, frames, hframes⟩
    have hne : frames ≠ [] := by
      rintro rfl
      have hzero := hframes.length_eq
      rw [hlength, List.length_nil] at hzero
      omega
    obtain ⟨fuel, hresult⟩ := (hcollect (.array frames)).mpr
      ⟨frames, hframes, by simp [outputOf, hne]⟩
    exact ⟨fuel, frames, hresult, hframes⟩

/-- Two frames, the inner one of which is skipped. -/
def twoFrames : CallStack := ⟨[0x401000, 0x402000], by decide⟩

/-- A machine with one program whose code has line numbers. -/
def debugMachine : Machine where
  phdrInfos := [⟨0, [], [⟨true, 0x400000, 0x10000⟩]⟩]
  openr := fun _ => some {
    isArchive := false
    isObject := true
    hasSyms := true
    readMinisymbols := fun _ => 1
    sections := [⟨true, 0x400000, 0x10000, fun _ => some ⟨none, none, 7⟩⟩] }
  demangle := fun _ => none

theorem createBacktraceSymbols_debugMachine :
    ∃ fuel frames,
      createBacktraceSymbols debugMachine twoFrames 1 0 fuel = some (.ok (.array frames)) ∧
      List.Forall₂ (fun address frame => debugMachine.frameOf address = .ok frame)
        (twoFrames.retained 1 0) frames := by
  apply (createBacktraceSymbols_reports_iff debugMachine twoFrames le_rfl (by decide)).mpr
  refine ⟨by decide, ?_⟩
  intro address haddress
  obtain rfl : address = 0x402000 := by
    simpa [twoFrames, CallStack.retained] using haddress
  exact ⟨_, ⟨none, none, 7⟩, rfl, rfl, rfl, rfl, by decide, rfl, by decide⟩

/-- A machine on which no file can be opened. -/
def strippedMachine : Machine := ⟨[], fun _ => none, fun _ => none⟩

/-- A file that cannot be opened makes the caller read through null. -/
theorem createBacktraceSymbols_strippedMachine :
    ¬ ∀ (m : Machine) (stack : CallStack) (skipFront skipBack : Nat), 1 ≤ skipFront →
      skipFront + skipBack ≤ stack.addresses.length →
      ∃ fuel frames,
        createBacktraceSymbols m stack skipFront skipBack fuel = some (.ok (.array frames)) ∧
        List.Forall₂ (fun address frame => m.frameOf address = .ok frame)
          (stack.retained skipFront skipBack) frames := by
  intro hall
  obtain ⟨fuel, frames, -, hframes⟩ := hall strippedMachine twoFrames 1 0 le_rfl (by decide)
  have hnull : strippedMachine.frameOf 0x402000 = .error .nullRead := rfl
  have hretained : twoFrames.retained 1 0 = [0x402000] := by decide
  rw [hretained] at hframes
  cases hframes with
  | cons hframe _ =>
      rw [hnull] at hframe
      cases hframe

end Sentry.Backtrace
