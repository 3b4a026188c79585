import SentryCpp.Foundation.Number

/-!
The text line that stands between the symbol lookup and a stack frame.
`translateAddress` writes it, one of two formats for each address, and
`FrameInfo.ofLine` reads it back by searching for the first colon and for the
first and last space.

The reader expects `file:line function address`. `ofLine_eq` says what it
makes of any line with a colon and a space; the two formats of the writer are
then two instances of it. The line for an address that was not found has its
last space in front of `??:0`, which is no number, so the reader always
throws on it.
-/

namespace Sentry.Backtrace

open StdString Number

/-- What the symbol lookup reports for an address that it finds; the pointers
to the names may be null. -/
structure FileLineDesc where
  mFilename : Option CString
  mFunctionname : Option CString
  mLine : UInt32

section Writer

-- `abi::__cxa_demangle`, with `none` for every status but zero.
variable (demangle : CString → Option CString)

def FileLineDesc.fileText (desc : FileLineDesc) : Bytes :=
  match desc.mFilename with
  | some file => file.bytes
  | none => lit "??"

def FileLineDesc.nameText (desc : FileLineDesc) : Bytes :=
  match desc.mFunctionname with
  | none => lit "??"
  | some name =>
      if name.bytes = [] then lit "??"
      else if name.bytes.head? = some 95 then ((demangle name).getD name).bytes
      else name.bytes

/-- The line of `translateAddressesBuf` for one address. The lookup is `none`
when `mFound` stays zero. -/
def translateAddress (addr : UInt64) (lookup : Option FileLineDesc) : Bytes :=
  match lookup with
  | none => lit "[0x" ++ print 16 addr.toNat ++ lit "] ?? ??:0"
  | some desc =>
      desc.fileText ++ lit ":" ++ print 10 desc.mLine.toNat ++ lit " " ++
        desc.nameText demangle ++ lit " " ++ print 10 addr.toNat

end Writer

structure FrameInfo where
  absFilePath : Bytes
  fileName : Bytes
  lineNumber : Nat
  functionName : Bytes
  address : Bytes
  deriving DecidableEq

/-- The constructor of `FrameInfo`. -/
def FrameInfo.ofLine (line : Bytes) : Except StdError FrameInfo := do
  let filePathEnd := find line 58
  let absFilePath ← substr line 0 filePathEnd
  let fileNameStart := rfind absFilePath 47
  let fileName ← substr absFilePath (sizeAdd fileNameStart 1) npos
  let linenumberEnd := find line 32
  let lineNumberStr ← substr line (sizeAdd filePathEnd 1)
    (sizeSub linenumberEnd (sizeAdd filePathEnd 1))
  let lineNumber ← stoul lineNumberStr 0
  let nameEnd := rfind line 32
  let functionName ← substr line (sizeAdd linenumberEnd 1)
    (sizeSub nameEnd (sizeAdd linenumberEnd 1))
  let address ← substr line (sizeAdd nameEnd 1) npos
  let addrInt ← stoul address 0
  return {
    absFilePath
    fileName
    lineNumber
    functionName
    address := print 16 addrInt }

example : (FrameInfo.ofLine (lit "/src/a.cpp:12 f(int) 255")).toOption = some {
    absFilePath := lit "/src/a.cpp"
    fileName := lit "a.cpp"
    lineNumber := 12
    functionName := lit "f(int)"
    address := lit "ff" } := by decide

/-- The part of a path after its last slash. -/
def baseName (path : Bytes) : Bytes := (path.reverse.takeWhile (· ≠ 47)).reverse

theorem substr_baseName {path : Bytes} (hlen : path.length < npos) :
    substr path (sizeAdd (rfind path 47) 1) npos = .ok (baseName path) := by
  have hnpos : npos = 2 ^ 64 - 1 := rfl
  by_cases hslash : 47 ∈ path
  · obtain ⟨a, b, rfl, hb⟩ := exists_last_split hslash
    have hcount : b.length ≤ npos := by
      simp only [List.length_append, List.length_cons] at hlen
      omega
    have hrev : (a ++ 47 :: b).reverse = b.reverse ++ 47 :: a.reverse := by simp
    rw [rfind_append_of_notMem a hb, substr_after (by omega), List.take_of_length_le hcount,
      baseName, hrev, takeWhile_append_of_notMem (by simpa using hb), List.reverse_reverse]
  · have hzero : sizeAdd (rfind path 47) 1 = 0 := by
      simp [rfind, hslash, npos, sizeAdd]
    rw [hzero, substr_of_le (by omega), List.drop_zero, List.take_of_length_le (by omega),
      baseName, takeWhile_of_notMem (by simpa using hslash), List.reverse_reverse]

/-- The text between the first colon and the first space of a line; all that
follows the colon when the space comes first and the length wraps. -/
def lineNumberStr (file rest : Bytes) : Bytes :=
  if 32 ∈ file then rest else rest.takeWhile (· ≠ 32)

theorem substr_lineNumberStr {file rest : Bytes} (hcolon : 58 ∉ file)
    (hspace : 32 ∈ file ++ 58 :: rest) (hlen : (file ++ 58 :: rest).length < 2 ^ 63) :
    substr (file ++ 58 :: rest) (sizeAdd (find (file ++ 58 :: rest) 58) 1)
      (sizeSub (find (file ++ 58 :: rest) 32) (sizeAdd (find (file ++ 58 :: rest) 58) 1)) =
      .ok (lineNumberStr file rest) := by
  rw [find_append_of_notMem hcolon, substr_after (by omega)]
  simp only [List.length_append, List.length_cons] at hlen
  rw [sizeAdd_of_lt (by omega), lineNumberStr]
  congr 1
  by_cases hfile : 32 ∈ file
  · obtain ⟨u, v, rfl, hu⟩ := List.eq_append_cons_of_mem hfile
    simp only [List.length_append, List.length_cons] at hlen
    rw [if_pos hfile, List.append_assoc, List.cons_append, find_append_of_notMem hu,
      sizeSub_of_lt (by simp only [List.length_append, List.length_cons]; omega)
        (by simp only [List.length_append, List.length_cons]; omega)]
    apply List.take_of_length_le
    simp only [List.length_append, List.length_cons]
    omega
  · have hrest : 32 ∈ rest := by simpa [hfile] using hspace
    obtain ⟨u, v, rfl, hu⟩ := List.eq_append_cons_of_mem hrest
    have hfind : find (file ++ 58 :: (u ++ 32 :: v)) 32 = file.length + 1 + u.length := by
      have hsplit : file ++ 58 :: (u ++ 32 :: v) = (file ++ 58 :: u) ++ 32 :: v := by simp
      rw [hsplit, find_append_of_notMem (by simp [hfile, hu])]
      simp only [List.length_append, List.length_cons]
      omega
    simp only [List.length_append, List.length_cons] at hlen
    rw [if_neg hfile, hfind, sizeSub_of_le (by omega) (by omega), Nat.add_sub_cancel_left,
      takeWhile_append_of_notMem hu, List.take_left]

/-- The text between the first and the last space of a line, when `front` is
what stands before the last; with a single space the length wraps, and the
text is all that follows it. -/
def functionNameStr (front last : Bytes) : Bytes :=
  if 32 ∈ front then (front.dropWhile (· ≠ 32)).tail else last

theorem substr_functionNameStr {front last : Bytes} (hlast : 32 ∉ last)
    (hlen : (front ++ 32 :: last).length < 2 ^ 63) :
    substr (front ++ 32 :: last) (sizeAdd (find (front ++ 32 :: last) 32) 1)
      (sizeSub (rfind (front ++ 32 :: last) 32)
        (sizeAdd (find (front ++ 32 :: last) 32) 1)) =
      .ok (functionNameStr front last) := by
  rw [rfind_append_of_notMem front hlast, functionNameStr]
  by_cases hfront : 32 ∈ front
  · obtain ⟨u, v, rfl, hu⟩ := List.eq_append_cons_of_mem hfront
    have hsplit : (u ++ 32 :: v) ++ 32 :: last = u ++ 32 :: (v ++ 32 :: last) := by simp
    have hcount : sizeSub (u ++ 32 :: v).length (sizeAdd u.length 1) = v.length := by
      simp only [List.length_append, List.length_cons] at hlen ⊢
      rw [sizeAdd_of_lt (by omega), sizeSub_of_le (by omega) (by omega)]
      omega
    rw [hsplit, find_append_of_notMem hu, substr_after (by rw [← hsplit]; omega), hcount,
      if_pos hfront, dropWhile_append_of_notMem hu, List.tail_cons, List.take_left]
  · have hcount : last.length ≤ sizeSub front.length (sizeAdd front.length 1) := by
      simp only [List.length_append, List.length_cons] at hlen
      rw [sizeAdd_of_lt (by omega), sizeSub_of_lt (by omega) (by omega)]
      omega
    rw [find_append_of_notMem hfront, substr_after (by omega), if_neg hfront,
      List.take_of_length_le hcount]

/-- What the reader makes of a line whose first colon ends `file` and whose
last space starts `last`: only the two conversions can throw. -/
theorem ofLine_eq {line file rest front last : Bytes} (hcolon : 58 ∉ file)
    (hlast : 32 ∉ last) (hfile : line = file ++ 58 :: rest)
    (hfront : line = front ++ 32 :: last) (hlen : line.length < 2 ^ 63) :
    FrameInfo.ofLine line = (do
      let lineNumber ← stoul (lineNumberStr file rest) 0
      let addrInt ← stoul last 0
      return {
        absFilePath := file
        fileName := baseName file
        lineNumber
        functionName := functionNameStr front last
        address := print 16 addrInt }) := by
  have hnpos : npos = 2 ^ 64 - 1 := rfl
  have hspace : 32 ∈ line := by simp [hfront]
  have hpath : substr line 0 (find line 58) = .ok file := by
    rw [hfile]
    exact substr_before hcolon rest
  have hbase : substr file (sizeAdd (rfind file 47) 1) npos = .ok (baseName file) := by
    apply substr_baseName
    simp only [hfile, List.length_append, List.length_cons] at hlen
    omega
  have hnumber : substr line (sizeAdd (find line 58) 1)
      (sizeSub (find line 32) (sizeAdd (find line 58) 1)) = .ok (lineNumberStr file rest) := by
    rw [hfile] at hspace hlen ⊢
    exact substr_lineNumberStr hcolon hspace hlen
  have hname : substr line (sizeAdd (find line 32) 1)
      (sizeSub (rfind line 32) (sizeAdd (find line 32) 1)) =
      .ok (functionNameStr front last) := by
    rw [hfront] at hlen ⊢
    exact substr_functionNameStr hlast hlen
  have haddress : substr line (sizeAdd (rfind line 32) 1) npos = .ok last := by
    rw [hfront] at hlen ⊢
    rw [rfind_append_of_notMem front hlast, substr_after (by omega)]
    simp only [List.length_append, List.length_cons] at hlen
    rw [List.take_of_length_le (by omega)]
  simp only [FrameInfo.ofLine, hpath, hbase, hnumber, hname, haddress, bind, Except.bind]

theorem ofLine_isOk {line file rest front last : Bytes} (hcolon : 58 ∉ file)
    (hlast : 32 ∉ last) (hfile : line = file ++ 58 :: rest)
    (hfront : line = front ++ 32 :: last) (hlen : line.length < 2 ^ 63) :
    (FrameInfo.ofLine line).isOk =
      ((stoul (lineNumberStr file rest) 0).isOk && (stoul last 0).isOk) := by
  rw [ofLine_eq hcolon hlast hfile hfront hlen]
  cases stoul (lineNumberStr file rest) 0 with
  | error e => rfl
  | ok lineNumber =>
      cases stoul last 0 with
      | error e => rfl
      | ok addrInt => rfl

end Sentry.Backtrace
