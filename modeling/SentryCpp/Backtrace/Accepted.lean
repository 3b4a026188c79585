import SentryCpp.Backtrace.Frame

/-!
Which of the lines that `translateAddress` writes `FrameInfo.ofLine` accepts.

The line of an address that was not found is never accepted. The line of a
found address is accepted whatever the function name, the line number and the
address are; only a colon in the file name can spoil it, since the reader then
takes what follows that colon for the line number.
-/

namespace Sentry.Backtrace

open StdString Number

variable (demangle : CString → Option CString)

theorem length_fileText_lt (desc : FileLineDesc) : desc.fileText.length < 2 ^ 29 := by
  unfold FileLineDesc.fileText
  split
  · rename_i file _
    exact file.length_lt
  · decide

theorem length_nameText_lt (desc : FileLineDesc) :
    (desc.nameText demangle).length < 2 ^ 29 := by
  have hunknown : (lit "??").length < 2 ^ 29 := by decide
  unfold FileLineDesc.nameText
  split
  · exact hunknown
  · rename_i name _
    split
    · exact hunknown
    · split
      · exact ((demangle name).getD name).length_lt
      · exact name.length_lt

theorem length_translateAddress_le (addr : UInt64) (lookup : Option FileLineDesc) :
    (translateAddress demangle addr lookup).length ≤ 2 ^ 30 + 200 := by
  cases lookup with
  | none =>
      have haddr : (print 16 addr.toNat).length ≤ 64 := length_print_le (by decide) addr.toNat_lt
      have hopen : (lit "[0x").length = 3 := by decide
      have hclose : (lit "] ?? ??:0").length = 9 := by decide
      simp only [translateAddress, List.length_append, hopen, hclose]
      omega
  | some desc =>
      have hfile := length_fileText_lt desc
      have hname := length_nameText_lt demangle desc
      have hline := desc.mLine.toNat_lt
      have hnumber : (print 10 desc.mLine.toNat).length ≤ 64 :=
        length_print_le (by decide) (by omega)
      have haddr : (print 10 addr.toNat).length ≤ 64 := length_print_le (by decide) addr.toNat_lt
      have hlit : (lit ":").length = 1 ∧ (lit " ").length = 1 := by decide
      simp only [translateAddress, List.length_append, hlit]
      omega

theorem length_translateAddress_lt (addr : UInt64) (lookup : Option FileLineDesc) :
    (translateAddress demangle addr lookup).length < 2 ^ 63 :=
  (length_translateAddress_le demangle addr lookup).trans_lt (by norm_num)

/-- The line of a found address, cut at the colon and the spaces that the
format writes. -/
theorem translateAddress_found (addr : UInt64) (desc : FileLineDesc) :
    translateAddress demangle addr (some desc) =
      desc.fileText ++ 58 :: (print 10 desc.mLine.toNat ++
        32 :: (desc.nameText demangle ++ 32 :: print 10 addr.toNat)) := by
  have hlit : lit ":" = [58] ∧ lit " " = [32] := by decide
  simp [translateAddress, hlit]

theorem space_notMem_print (n : Nat) : 32 ∉ print 10 n :=
  notMem_print (by decide) (by decide) (by decide) n

theorem stoul_print {n : Nat} (hn : n < 2 ^ 64) : stoul (print 10 n) 0 = .ok n := by
  simpa using stoul_print_append hn [] (by simp)

/-- The last space of the line is in front of `??:0`. -/
theorem ofLine_notFound (addr : UInt64) :
    FrameInfo.ofLine (translateAddress demangle addr none) = .error .invalidArgument := by
  have hcolon : (58 : Byte) ∉ lit "[0x" ++ print 16 addr.toNat ++ lit "] ?? ??" := by
    have hhex : (58 : Byte) ∉ print 16 addr.toNat :=
      notMem_print (by decide) (by decide) (by decide) _
    have hopen : (58 : Byte) ∉ lit "[0x" := by decide
    have hclose : (58 : Byte) ∉ lit "] ?? ??" := by decide
    simp [hhex, hopen, hclose]
  have hfile : translateAddress demangle addr none =
      (lit "[0x" ++ print 16 addr.toNat ++ lit "] ?? ??") ++ 58 :: lit "0" := by
    have htail : lit "] ?? ??:0" = lit "] ?? ??" ++ 58 :: lit "0" := by decide
    simp [translateAddress, htail]
  have hfront : translateAddress demangle addr none =
      (lit "[0x" ++ print 16 addr.toNat ++ lit "] ??") ++ 32 :: lit "??:0" := by
    have htail : lit "] ?? ??:0" = lit "] ??" ++ 32 :: lit "??:0" := by decide
    simp [translateAddress, htail]
  have hspace : 32 ∈ lit "[0x" ++ print 16 addr.toNat ++ lit "] ?? ??" := by
    have hclose : 32 ∈ lit "] ?? ??" := by decide
    simp [hclose]
  have hzero : stoul (lit "0") 0 = .ok 0 := by decide
  have hlast : stoul (lit "??:0") 0 = .error .invalidArgument := by decide
  rw [ofLine_eq hcolon (by decide) hfile hfront (length_translateAddress_lt demangle addr none),
    lineNumberStr, if_pos hspace, hzero, hlast]
  rfl

/-- A number stands right after the first colon of a file name, where the
reader looks for one: up to the next space, or up to the end of the name when
a space stands before that colon. -/
def NumberAfterColon (file : Bytes) : Prop :=
  let before := file.takeWhile (· ≠ 58)
  let after := (file.dropWhile (· ≠ 58)).tail
  (stoul (if 32 ∈ before then after else after.takeWhile (· ≠ 32)) 0).isOk = true

instance (file : Bytes) : Decidable (NumberAfterColon file) :=
  inferInstanceAs (Decidable (_ = true))

/-- Before a space there is nothing but the number, and after it nothing that
`stoul` reads. -/
theorem stoul_lineNumberStr_of_noColon (file : Bytes) {n : Nat} (hn : n < 2 ^ 64)
    (tail : Bytes) : stoul (lineNumberStr file (print 10 n ++ 32 :: tail)) 0 = .ok n := by
  have hdigits : (32 : Byte) ∉ print 10 n := space_notMem_print n
  unfold lineNumberStr
  split
  · apply stoul_print_append hn
    intro c hc
    simp only [List.head?_cons, Option.mem_def, Option.some.injEq] at hc
    subst c
    decide
  · rw [takeWhile_append_of_notMem hdigits]
    exact stoul_print hn

private theorem stoul_lineNumberStr_of_colon (before after : Bytes) (n : Nat) (tail : Bytes) :
    stoul (lineNumberStr before (after ++ 58 :: (print 10 n ++ 32 :: tail))) 0 =
      stoul (if 32 ∈ before then after else after.takeWhile (· ≠ 32)) 0 := by
  have hstop : isStop 58 = true := by decide
  have hdigits : (32 : Byte) ∉ print 10 n := space_notMem_print n
  unfold lineNumberStr
  split
  · exact stoul_append_of_stop hstop after _ 0
  · by_cases hafter : 32 ∈ after
    · obtain ⟨p, q, rfl, hp⟩ := List.eq_append_cons_of_mem hafter
      rw [List.append_assoc, List.cons_append, takeWhile_append_of_notMem hp,
        takeWhile_append_of_notMem hp]
    · have hsplit : after ++ 58 :: (print 10 n ++ 32 :: tail) =
          (after ++ 58 :: print 10 n) ++ 32 :: tail := by simp
      rw [hsplit, takeWhile_append_of_notMem (by simp [hafter, hdigits]),
        takeWhile_of_notMem hafter]
      exact stoul_append_of_stop hstop after _ 0

/-- The line of a found address: the address always converts, so the text that
is taken for the line number decides. -/
private theorem ofLine_found_isOk (addr : UInt64) (desc : FileLineDesc)
    {file rest : Bytes} (hcolon : 58 ∉ file)
    (hfile : translateAddress demangle addr (some desc) = file ++ 58 :: rest) :
    (FrameInfo.ofLine (translateAddress demangle addr (some desc))).isOk =
      (stoul (lineNumberStr file rest) 0).isOk := by
  have hfront : translateAddress demangle addr (some desc) =
      (desc.fileText ++ 58 :: (print 10 desc.mLine.toNat ++ 32 :: desc.nameText demangle)) ++
        32 :: print 10 addr.toNat := by
    simp [translateAddress_found]
  have haddr : (stoul (print 10 addr.toNat) 0).isOk = true := by
    rw [stoul_print addr.toNat_lt]
    rfl
  rw [ofLine_isOk hcolon (space_notMem_print addr.toNat) hfile hfront
    (length_translateAddress_lt demangle addr (some desc)), haddr, Bool.and_true]

/-- The line of a found address is accepted unless a colon in the file name
stands in front of something that is no number. -/
theorem ofLine_isOk_of_found (addr : UInt64) (desc : FileLineDesc) :
    (FrameInfo.ofLine (translateAddress demangle addr (some desc))).isOk = true ↔
      (58 ∈ desc.fileText → NumberAfterColon desc.fileText) := by
  have hfound := translateAddress_found demangle addr desc
  by_cases hcolon : 58 ∈ desc.fileText
  · obtain ⟨before, after, hsplit, hbefore⟩ := List.eq_append_cons_of_mem hcolon
    rw [hsplit, List.append_assoc, List.cons_append] at hfound
    rw [ofLine_found_isOk demangle addr desc hbefore hfound, stoul_lineNumberStr_of_colon,
      NumberAfterColon, hsplit, takeWhile_append_of_notMem hbefore,
      dropWhile_append_of_notMem hbefore, List.tail_cons]
    simp
  · have hline := desc.mLine.toNat_lt
    rw [ofLine_found_isOk demangle addr desc hcolon hfound,
      stoul_lineNumberStr_of_noColon _ (by omega)]
    simp [hcolon, Except.isOk, Except.toBool]

/-- The reader returns on the line of an address exactly when the lookup found
the address and no text that is not a number follows a colon in the file
name. -/
theorem ofLine_translateAddress_isOk_iff (addr : UInt64) (lookup : Option FileLineDesc) :
    (FrameInfo.ofLine (translateAddress demangle addr lookup)).isOk = true ↔
      ∃ desc, lookup = some desc ∧
        (58 ∈ desc.fileText → NumberAfterColon desc.fileText) := by
  cases lookup with
  | none =>
      rw [ofLine_notFound]
      simp [Except.isOk, Except.toBool]
  | some desc =>
      simp only [Option.some.injEq, exists_eq_left']
      exact ofLine_isOk_of_found demangle addr desc

theorem ofLine_throws_notFound :
    FrameInfo.ofLine (translateAddress (fun _ => none) 0x401000 none) =
      .error .invalidArgument := by decide

example : ¬ NumberAfterColon (lit "C:/src/a.cpp") := by decide

end Sentry.Backtrace
