import SentryCpp.Backtrace.Accepted

/-!
What `FrameInfo.ofLine` reads out of the line of a found address. As long as
the file name has no colon, the file, the line number and the address come back
as they were written. The function name is looked for behind the first space of
the whole line, so that a space in the file name puts the rest of that name and
the line number in front of it.
-/

namespace Sentry.Backtrace

open StdString Number

variable (demangle : CString → Option CString)

/-- The frame that a line was written for. -/
def FileLineDesc.frame (desc : FileLineDesc) (addr : UInt64) : FrameInfo where
  absFilePath := desc.fileText
  fileName := baseName desc.fileText
  lineNumber := desc.mLine.toNat
  functionName := desc.nameText demangle
  address := print 16 addr.toNat

/-- The part of the line in front of the address. -/
def FileLineDesc.front (desc : FileLineDesc) : Bytes :=
  desc.fileText ++ 58 :: (print 10 desc.mLine.toNat ++ 32 :: desc.nameText demangle)

theorem ofLine_found_eq (addr : UInt64) (desc : FileLineDesc) (hcolon : 58 ∉ desc.fileText) :
    FrameInfo.ofLine (translateAddress demangle addr (some desc)) =
      .ok { desc.frame demangle addr with
        functionName := functionNameStr (desc.front demangle) (print 10 addr.toNat) } := by
  have hfile := translateAddress_found demangle addr desc
  have hfront : translateAddress demangle addr (some desc) =
      desc.front demangle ++ 32 :: print 10 addr.toNat := by
    simp [hfile, FileLineDesc.front]
  have hline := desc.mLine.toNat_lt
  have hnumber : stoul (lineNumberStr desc.fileText (print 10 desc.mLine.toNat ++
      32 :: (desc.nameText demangle ++ 32 :: print 10 addr.toNat))) 0 = .ok desc.mLine.toNat :=
    stoul_lineNumberStr_of_noColon _ (by omega) _
  have haddr : stoul (print 10 addr.toNat) 0 = .ok addr.toNat := stoul_print addr.toNat_lt
  rw [ofLine_eq hcolon (space_notMem_print _) hfile hfront
    (length_translateAddress_lt demangle addr (some desc)), hnumber, haddr]
  rfl

/-- The first space of the line is the one behind the line number. -/
theorem functionNameStr_of_noSpace {desc : FileLineDesc} (hspace : 32 ∉ desc.fileText)
    (last : Bytes) :
    functionNameStr (desc.front demangle) last = desc.nameText demangle := by
  have hsplit : desc.front demangle =
      (desc.fileText ++ 58 :: print 10 desc.mLine.toNat) ++ 32 :: desc.nameText demangle := by
    simp [FileLineDesc.front]
  have hfirst : 32 ∉ desc.fileText ++ 58 :: print 10 desc.mLine.toNat := by
    simp [hspace, space_notMem_print]
  rw [functionNameStr, hsplit, if_pos (by simp), dropWhile_append_of_notMem hfirst,
    List.tail_cons]

/-- The first space of the line is one of the file name: what is taken for the
function name is longer than the function name. -/
theorem length_functionNameStr_of_space {desc : FileLineDesc} (hspace : 32 ∈ desc.fileText)
    (last : Bytes) :
    (desc.nameText demangle).length <
      (functionNameStr (desc.front demangle) last).length := by
  obtain ⟨before, after, hfile, hbefore⟩ := List.eq_append_cons_of_mem hspace
  have hsplit : desc.front demangle = before ++ 32 ::
      (after ++ 58 :: (print 10 desc.mLine.toNat ++ 32 :: desc.nameText demangle)) := by
    simp [FileLineDesc.front, hfile]
  rw [functionNameStr, hsplit, if_pos (by simp), dropWhile_append_of_notMem hbefore,
    List.tail_cons]
  simp only [List.length_append, List.length_cons]
  omega

/-- The reader gives back the frame that the line was written for if and only
if the file name has no space. -/
theorem ofLine_eq_frame_iff (addr : UInt64) (desc : FileLineDesc)
    (hcolon : 58 ∉ desc.fileText) :
    FrameInfo.ofLine (translateAddress demangle addr (some desc)) =
      .ok (desc.frame demangle addr) ↔ 32 ∉ desc.fileText := by
  rw [ofLine_found_eq demangle addr desc hcolon, Except.ok.injEq]
  constructor
  · intro hframe hspace
    have hname := congrArg (fun info => info.functionName.length) hframe
    have hlonger := length_functionNameStr_of_space demangle hspace (print 10 addr.toNat)
    simp only [FileLineDesc.frame] at hname
    omega
  · intro hspace
    rw [functionNameStr_of_noSpace demangle hspace]
    rfl

/-- `/src/a.cpp`, line 12, in `f(int, int)`. -/
def plainDesc : FileLineDesc where
  mFilename := some ⟨lit "/src/a.cpp", by decide, by decide⟩
  mFunctionname := some ⟨lit "f(int, int)", by decide, by decide⟩
  mLine := 12

theorem ofLine_eq_frame_plainDesc :
    FrameInfo.ofLine (translateAddress (fun _ => none) 255 (some plainDesc)) =
      .ok (plainDesc.frame (fun _ => none) 255) :=
  (ofLine_eq_frame_iff (fun _ => none) 255 plainDesc (by decide)).mpr (by decide)

/-- The same place in `/my src/a.cpp`. -/
def spacedDesc : FileLineDesc :=
  { plainDesc with mFilename := some ⟨lit "/my src/a.cpp", by decide, by decide⟩ }

/-- The function name read for `spacedDesc` is `src/a.cpp:12 f(int, int)`. -/
theorem not_ofLine_eq_frame :
    ¬ ∀ (demangle : CString → Option CString) (addr : UInt64) (desc : FileLineDesc),
      58 ∉ desc.fileText → desc.nameText demangle ≠ [] →
      FrameInfo.ofLine (translateAddress demangle addr (some desc)) =
        .ok (desc.frame demangle addr) := by
  intro hall
  have hframe := hall (fun _ => none) 255 spacedDesc (by decide) (by decide)
  rw [ofLine_found_eq _ _ _ (by decide), Except.ok.injEq] at hframe
  have hname := congrArg FrameInfo.functionName hframe
  revert hname
  decide

end Sentry.Backtrace
