import SentryCpp.External.Reading

/-!
Answers as servers write them: a status line, fields, and a body that announces
its length or comes in chunks. The client reads such an answer back and takes
exactly its bytes from the connection, so that the next answer begins where this
one ends.
-/

namespace SimpleWeb

open StdString Number

/-- A body with the means to tell where it ends. -/
inductive Framing where
  | length (body : Bytes)
  | chunked (chunks : List Bytes)
  deriving DecidableEq, Repr

namespace Framing

def field : Framing → Bytes × Bytes
  | length body => (lit "Content-Length", print 10 body.length)
  | chunked _ => (lit "Transfer-Encoding", lit "chunked")

def chunkBytes (chunk : Bytes) : Bytes :=
  print 16 chunk.length ++ lit "\r\n" ++ chunk ++ lit "\r\n"

def bytes : Framing → Bytes
  | length body => body
  | chunked chunks => chunks.flatMap chunkBytes ++ chunkBytes []

def body : Framing → Bytes
  | length body => body
  | chunked chunks => chunks.flatten

/-- The sizes fit, and no chunk but the last is empty. -/
def Fits : Framing → Prop
  | length body => body.length < 2 ^ 64
  | chunked chunks => ∀ chunk ∈ chunks, 0 < chunk.length ∧ chunk.length < 2 ^ 63

end Framing

/-- What a server answers. -/
structure Answer where
  httpVersion : Bytes
  statusCode : Bytes
  fields : Header
  framing : Framing
  deriving DecidableEq, Repr

namespace Answer

def headBytes (a : Answer) : Bytes :=
  lit "HTTP/" ++ a.httpVersion ++ lit " " ++ a.statusCode ++ lit "\r\n" ++
    (a.fields ++ [a.framing.field]).flatMap Client.headerLine ++ lit "\r\n"

def bytes (a : Answer) : Bytes := a.headBytes ++ a.framing.bytes

/-- Each part stays where it is written, and the framing is the only field about
the body. -/
structure WellFormed (a : Answer) : Prop where
  version : 32 ∉ a.httpVersion ∧ 10 ∉ a.httpVersion
  status : 10 ∉ a.statusCode
  fields : ∀ f ∈ a.fields, 58 ∉ f.1 ∧ 10 ∉ f.1 ∧ 10 ∉ f.2
  contentLength : findField a.fields (lit "Content-Length") = none
  transferEncoding : findField a.fields (lit "Transfer-Encoding") = none
  fits : a.framing.Fits

end Answer

namespace Framing

/-- The line of a chunk is read as its length. -/
theorem round_eq {chunk : Bytes} (hfits : chunk.length < 2 ^ 63) (rest : Bytes) :
    round (chunkBytes chunk ++ rest) =
      roundOf chunk.length 0 (chunk ++ (lit "\r\n" ++ rest)) := by
  have hreturn : 13 ∉ print 16 chunk.length := notMem_print (by decide) (by decide) (by decide) _
  have hnewline : 10 ∉ print 16 chunk.length ++ [13] := by
    simp [notMem_print (by decide : 1 < 16) (by decide) (c := 10) (by decide)]
  have hend : lit "\r\n" = [13, 10] := rfl
  have hbytes : chunkBytes chunk ++ rest =
      (print 16 chunk.length ++ [13]) ++ 10 :: (chunk ++ (lit "\r\n" ++ rest)) := by
    simp [chunkBytes, hend]
  have hlineEnd : Incoming.endOf (lit "\r\n") (chunkBytes chunk ++ rest) =
      some ((print 16 chunk.length).length + 2) := by
    rw [hbytes, List.append_assoc, hend]
    exact Incoming.endOf_of_notMem hreturn [10] _
  have htake : (chunkBytes chunk ++ rest).takeWhile (· ≠ 10) = print 16 chunk.length ++ [13] := by
    rw [hbytes, takeWhile_append_of_notMem hnewline]
  have hdrop : (chunkBytes chunk ++ rest).drop ((print 16 chunk.length ++ [13]).length + 1) =
      chunk ++ (lit "\r\n" ++ rest) := by
    rw [hbytes, List.drop_length_add_append]
    rfl
  simp only [round, hlineEnd, htake, hdrop, List.dropLast_concat,
    stoulHex_print (show chunk.length < 2 ^ 64 by omega)]
  rw [if_neg (by simp), List.length_append, List.length_singleton, Nat.sub_self]

theorem round_chunkBytes {chunk : Bytes} (hpos : 0 < chunk.length) (hfits : chunk.length < 2 ^ 63)
    (rest : Bytes) : round (chunkBytes chunk ++ rest) = .chunk chunk rest := by
  have hend : (lit "\r\n").length = 2 := rfl
  have hneeded : (2 + chunk.length) % 2 ^ 64 = 2 + chunk.length := Nat.mod_eq_of_lt (by omega)
  rw [round_eq hfits, roundOf, hneeded, if_neg, if_neg (by omega), if_neg (by omega),
    List.take_left, List.drop_length_add_append]
  · rfl
  · simp only [List.length_append, hend]
    omega

theorem round_last (rest : Bytes) : round (chunkBytes [] ++ rest) = .last rest := by
  have hend : (lit "\r\n").length = 2 := rfl
  rw [round_eq (by decide), roundOf, if_neg, if_pos List.length_nil]
  · rfl
  · simp only [List.length_append, hend, List.length_nil]
    omega

theorem length_le_flatMap (chunks : List Bytes) :
    chunks.length ≤ (chunks.flatMap chunkBytes).length := by
  induction chunks with
  | nil => simp
  | cons chunk chunks ih =>
      have hend : (lit "\r\n").length = 2 := rfl
      have hchunk : 2 ≤ (chunkBytes chunk).length := by
        simp only [chunkBytes, List.length_append, hend]
        omega
      rw [List.flatMap_cons, List.length_append, List.length_cons]
      omega

/-- The chunks come out of the loop one behind the other. -/
theorem readChunked_bytes (ending : ErrorCode) {chunks : List Bytes}
    (hfits : ∀ chunk ∈ chunks, 0 < chunk.length ∧ chunk.length < 2 ^ 63) {rest : Bytes}
    {fuel : Nat} (hfuel : chunks.length < fuel) {s : Session} (hgood : s.Good)
    (hs : s.total = chunks.flatMap chunkBytes ++ (chunkBytes [] ++ rest)) (before : Bytes) :
    ∃ s' b, s.readChunked ending fuel before = (s', .callback none) ∧
      s'.response = s.response ∧ s'.content.unread = b ++ (before ++ chunks.flatten) ∧
      b ++ s'.pieces.flatten = rest := by
  induction chunks generalizing fuel s before with
  | nil =>
      obtain ⟨fuel, rfl⟩ : ∃ n, fuel = n + 1 := ⟨fuel - 1, by simp at hfuel; omega⟩
      have hround := s.readChunked_round ending fuel hgood before
      rw [hs, List.flatMap_nil, List.nil_append, round_last] at hround
      simpa using hround
  | cons chunk chunks ih =>
      obtain ⟨fuel, rfl⟩ : ∃ n, fuel = n + 1 := ⟨fuel - 1, by simp at hfuel; omega⟩
      obtain ⟨⟨hpos, hlt⟩, hmore⟩ := List.forall_mem_cons.mp hfits
      have hround := s.readChunked_round ending fuel hgood before
      rw [hs, List.flatMap_cons, List.append_assoc, round_chunkBytes hpos hlt] at hround
      obtain ⟨s', hgood', htotal, hresponse, hnext⟩ := hround
      obtain ⟨s'', b, hend, hresponse', hcontent, hrest⟩ :=
        ih hmore (by simpa using hfuel) hgood' htotal (before ++ chunk)
      refine ⟨s'', b, hnext.trans hend, hresponse'.trans hresponse, ?_, hrest⟩
      rw [hcontent, List.flatten_cons, List.append_assoc before]

end Framing

namespace Answer

/-- The status line without its newline. -/
def statusLine (a : Answer) : Bytes :=
  lit "HTTP/" ++ a.httpVersion ++ 32 :: (a.statusCode ++ [13])

theorem headBytes_eq (a : Answer) :
    a.headBytes = a.statusLine ++
      10 :: ((a.fields ++ [a.framing.field]).flatMap Client.headerLine ++ lit "\r\n") := by
  have hblank : lit " " = [32] := rfl
  have hend : lit "\r\n" = [13, 10] := rfl
  simp [headBytes, statusLine, hblank, hend]

theorem newline_notMem_statusLine {a : Answer} (h : a.WellFormed) : 10 ∉ a.statusLine := by
  have hlit : 10 ∉ lit "HTTP/" := by decide
  simp [statusLine, hlit, h.version.2, h.status]

theorem written {a : Answer} (h : a.WellFormed) :
    ∀ f ∈ a.fields ++ [a.framing.field], 58 ∉ f.1 ∧ 10 ∉ f.1 ∧ 10 ∉ f.2 := by
  intro f hf
  rcases List.mem_append.mp hf with hf | hf
  · exact h.fields f hf
  · obtain rfl := List.mem_singleton.mp hf
    cases a.framing with
    | length body =>
        have hname : 58 ∉ lit "Content-Length" ∧ 10 ∉ lit "Content-Length" := by decide
        exact ⟨hname.1, hname.2, notMem_print (by decide) (by decide) (by decide) _⟩
    | chunked chunks =>
        have hfield : 58 ∉ lit "Transfer-Encoding" ∧ 10 ∉ lit "Transfer-Encoding" ∧
            10 ∉ lit "chunked" := by decide
        exact hfield

theorem statusLine_eq {a : Answer} (h : a.WellFormed) :
    ResponseMessage.statusLine a.statusLine = some (a.httpVersion, a.statusCode) := by
  have hblank : 32 ∉ lit "HTTP/" ++ a.httpVersion := by
    have hlit : 32 ∉ lit "HTTP/" := by decide
    simp [hlit, h.version.1]
  have hhttp : (lit "HTTP/").length = 5 := rfl
  have hversionEnd := idxOf?_append_of_notMem hblank (a.statusCode ++ [13])
  have hlength : a.statusLine.length = 5 + a.httpVersion.length + (a.statusCode.length + 2) := by
    simp only [statusLine, List.length_append, List.length_cons, hhttp, List.length_nil]
  have hversion : (a.statusLine.drop 5).take a.httpVersion.length = a.httpVersion := by
    rw [statusLine, List.append_assoc, ← hhttp, List.drop_left, List.take_left]
  have hstatus : (a.statusLine.drop (5 + a.httpVersion.length + 1)).take a.statusCode.length =
      a.statusCode := by
    have hfront : 5 + a.httpVersion.length = (lit "HTTP/" ++ a.httpVersion).length := by
      rw [List.length_append, hhttp]
    rw [statusLine, hfront, List.drop_length_add_append, List.drop_succ_cons, List.drop_zero,
      List.take_left]
  rw [← statusLine, List.length_append, hhttp] at hversionEnd
  have hcount : 5 + a.httpVersion.length - 5 = a.httpVersion.length := by omega
  have hcount' : 5 + a.httpVersion.length + (a.statusCode.length + 2) -
      (5 + a.httpVersion.length + 1) - 1 = a.statusCode.length := by omega
  simp only [ResponseMessage.statusLine, hversionEnd, hlength, hcount, hcount', hversion, hstatus]
  rw [if_neg (by omega), if_neg (by omega), if_neg (by omega)]

/-- The parser takes the head and nothing behind it. -/
theorem parse_headBytes (store : FieldStore) {a : Answer} (h : a.WellFormed) :
    ∃ header, header.Perm (a.fields ++ [a.framing.field]) ∧
      ∀ rest, ResponseMessage.parse store (IfStream.opened (a.headBytes ++ rest)) =
        .message ⟨a.httpVersion, a.statusCode, header⟩ (IfStream.opened rest) := by
  refine ⟨(a.fields ++ [a.framing.field]).foldl store.emplace [],
    by simpa using store.foldl_perm (a.fields ++ [a.framing.field]) [], ?_⟩
  intro rest
  have hline : a.headBytes ++ rest = a.statusLine ++
      10 :: ((a.fields ++ [a.framing.field]).flatMap Client.headerLine ++ lit "\r\n" ++ rest) := by
    rw [headBytes_eq, List.append_assoc, List.cons_append, List.append_assoc]
  rw [hline]
  simp only [ResponseMessage.parse, IfStream.getline_opened (newline_notMem_statusLine h),
    statusLine_eq h, HttpHeader.parse_fields store (written h)]

/-- The head ends at its empty line and nowhere before. -/
theorem endOf_headBytes {a : Answer} (h : a.WellFormed) :
    Incoming.endOf (lit "\r\n\r\n") a.headBytes = some a.headBytes.length := by
  have hends : lit "\r\n\r\n" <:+: a.headBytes := by
    have hend : lit "\r\n\r\n" = lit "\r\n" ++ lit "\r\n" := by decide
    refine ⟨lit "HTTP/" ++ a.httpVersion ++ lit " " ++ a.statusCode ++ lit "\r\n" ++
      a.fields.flatMap Client.headerLine ++ a.framing.field.1 ++ lit ": " ++ a.framing.field.2,
      [], ?_⟩
    simp [headBytes, Client.headerLine, hend]
  obtain ⟨n, hn⟩ :=
    Option.ne_none_iff_exists'.mp (mt Incoming.endOf_eq_none_iff.mp (not_not.mpr hends))
  obtain ⟨front, back, hsplit, hlength⟩ := Incoming.endOf_eq_some hn
  -- the lines behind the first are those of the fields and the empty one
  obtain ⟨records, hrecords⟩ := splitOn_of_head (newline_notMem_statusLine h)
    ((headBytes_eq a).symm.trans hsplit)
  have hlast : (lit "\r\n").splitOn 10 = [[13], []] := by decide
  have hlines : ∀ line ∈ (a.fields ++ [a.framing.field]).map HttpHeader.lineOf,
      58 ∈ line ∧ 10 ∉ line := by
    intro line hline
    obtain ⟨f, hf, rfl⟩ := List.mem_map.mp hline
    obtain ⟨-, hname, hvalue⟩ := written h f hf
    simp [HttpHeader.lineOf, hname, hvalue]
  rw [HttpHeader.flatMap_headerLine,
    HttpHeader.splitOn_flatMap (fun line hline => (hlines line hline).2), hlast] at hrecords
  have hreturn : [13] ∉ (a.fields ++ [a.framing.field]).map HttpHeader.lineOf := by
    intro hmem
    exact absurd (hlines [13] hmem).1 (by decide)
  obtain ⟨-, -, hback⟩ :=
    (List.append_cons_inj_of_notMem hreturn (by simp)).mp hrecords
  have hnil : back = [] := by
    have hjoin : [10].intercalate (back.splitOn 10) = back := List.intercalate_splitOn 10
    rw [← hjoin, ← hback]
    rfl
  rw [hn, hsplit, hlength, hnil, List.append_nil, List.length_append]

/-- What a store endpoint answers. -/
def stored : Answer :=
  ⟨lit "1.1", lit "200 OK", [(lit "Server", lit "nginx")], .chunked [lit "{}"]⟩

theorem wellFormed_stored : stored.WellFormed where
  version := by decide
  status := by decide
  fields := by
    intro f hf
    obtain rfl := List.mem_singleton.mp hf
    decide
  contentLength := by decide
  transferEncoding := by decide
  fits := by
    intro chunk hchunk
    obtain rfl := List.mem_singleton.mp hchunk
    decide

end Answer

namespace Session

/-- The wait for a head and its parser take the head off the stream. -/
theorem read_of_head (store : FieldStore) (ending : ErrorCode) {s : Session} (hgood : s.Good)
    {head rest : Bytes} (hs : s.total = head ++ rest)
    (hend : Incoming.endOf (lit "\r\n\r\n") head = some head.length) {response : Response}
    (hparse : ∀ more, ResponseMessage.parse store (IfStream.opened (head ++ more)) =
      .message response (IfStream.opened more)) :
    ∃ s' : Session, s'.Good ∧ s'.total = rest ∧ s'.response = response ∧
      s.read store ending =
        ((readBody ending s' s'.content.unread.length).1,
          some (readBody ending s' s'.content.unread.length).2) := by
  have hends : lit "\r\n\r\n" <:+: s.total := by
    by_contra hnone
    rw [← Incoming.endOf_eq_none_iff, hs, Incoming.endOf_append hend] at hnone
    cases hnone
  rcases s.readUntil_cases (lit "\r\n\r\n") with ⟨-, s₁, hs₁, hfollows, hbuffer⟩ | ⟨hnone, -⟩
  · have hgood₁ := hfollows.good hgood
    have hstream : s₁.content.unread ++ s₁.pieces.flatten = head ++ rest := hfollows.total.trans hs
    have hlineEnd : Incoming.endOf (lit "\r\n\r\n") s₁.content.unread = some head.length := by
      rw [Incoming.endOf_buffer (t := ⟨s₁.content.unread, s₁.pieces⟩) hbuffer]
      simp only [Incoming.total, hstream]
      exact Incoming.endOf_append hend rest
    have hle : head.length ≤ s₁.content.unread.length := by
      obtain ⟨front, back, hsplit, hlength⟩ := Incoming.endOf_eq_some hlineEnd
      rw [hsplit, hlength]
      simp only [List.length_append]
      omega
    obtain ⟨b, hb⟩ : head <+: s₁.content.unread :=
      List.prefix_of_prefix_length_le ⟨rest, rfl⟩ ⟨_, hstream⟩ hle
    have hrest : b ++ s₁.pieces.flatten = rest := by
      rw [← hb, List.append_assoc] at hstream
      exact List.append_cancel_left hstream
    have hparse₁ : ResponseMessage.parse store s₁.content =
        .message response (IfStream.opened b) := by
      rw [hgood₁, ← hb, hparse]
    have hadditional : s₁.content.unread.length - head.length = b.length := by
      rw [← hb, List.length_append, Nat.add_sub_cancel_left]
    refine ⟨{ s₁ with content := IfStream.opened b, response := response }, rfl, hrest, rfl, ?_⟩
    simp only [read, hs₁, Bool.not_true, Bool.false_eq_true, if_false, transferred, hlineEnd,
      Option.getD_some, hparse₁, hadditional]
    rfl
  · exact absurd hends hnone

/-- A well-formed answer, cut into pieces in any way, is read as it was written.
Not a byte of it is left on the connection. -/
theorem read_answer (store : FieldStore) (ending : ErrorCode) {a : Answer} (h : a.WellFormed)
    {s : Session} (hgood : s.Good) (hs : s.total = a.bytes) :
    ∃ s' header, s.read store ending = (s', some (.callback none)) ∧
      s'.response = ⟨a.httpVersion, a.statusCode, header⟩ ∧
      header.Perm (a.fields ++ [a.framing.field]) ∧
      s'.content.unread = a.framing.body ∧ s'.pieces.flatten = [] := by
  obtain ⟨header, hperm, hparse⟩ := Answer.parse_headBytes store h
  obtain ⟨s₁, hgood₁, htotal, hresponse, hread⟩ :=
    read_of_head store ending hgood hs (Answer.endOf_headBytes h) hparse
  suffices hbody : ∃ s', readBody ending s₁ s₁.content.unread.length = (s', .callback none) ∧
      s'.response = s₁.response ∧ s'.content.unread = a.framing.body ∧ s'.pieces.flatten = [] by
    obtain ⟨s', hs', hresponse', hcontent, hpieces⟩ := hbody
    rw [hs'] at hread
    exact ⟨s', header, hread, hresponse'.trans hresponse, hperm, hcontent, hpieces⟩
  have hlength : s₁.total.length = s₁.content.unread.length + s₁.pieces.flatten.length := by
    rw [total, List.length_append]
  have hcontentLength := findField_of_perm hperm h.contentLength
  have htransferEncoding := findField_of_perm hperm h.transferEncoding
  have hfits := h.fits
  cases hframing : a.framing with
  | length body =>
      rw [hframing] at hcontentLength htotal hfits
      have hname : caseInsensitiveEqual (lit "Content-Length") (lit "Content-Length") = true := by
        decide
      rw [Framing.field, if_pos hname] at hcontentLength
      rw [Framing.bytes] at htotal
      simp only [readBody, hresponse, hcontentLength, stoul_print hfits]
      rcases s₁.fill_cases (n := body.length) (Nat.le_refl _) with
        ⟨-, s', hs', hfollows, hbuffer⟩ | ⟨hlt, -⟩
      · have hstream : s'.content.unread ++ s'.pieces.flatten = body :=
          hfollows.total.trans htotal
        have hsplit := congrArg List.length hstream
        rw [List.length_append] at hsplit
        have hnil : s'.pieces.flatten = [] := List.eq_nil_of_length_eq_zero (by omega)
        rw [hnil, List.append_nil] at hstream
        rw [hs']
        exact ⟨s', rfl, hfollows.response.trans hresponse, hstream, hnil⟩
      · rw [htotal] at hlt
        omega
  | chunked chunks =>
      rw [hframing] at hcontentLength htransferEncoding htotal hfits
      have hname : caseInsensitiveEqual (lit "Transfer-Encoding") (lit "Content-Length") =
        false := by decide
      have hname' : caseInsensitiveEqual (lit "Transfer-Encoding") (lit "Transfer-Encoding") =
        true := by decide
      rw [Framing.field, hname, if_neg (by simp)] at hcontentLength
      rw [Framing.field, if_pos hname'] at htransferEncoding
      rw [Framing.bytes] at htotal
      have hfuel : chunks.length < s₁.total.length + 1 := by
        have hle := Framing.length_le_flatMap chunks
        rw [htotal, List.length_append]
        omega
      obtain ⟨s', b, hs', hresponse', hcontent, hrest⟩ := Framing.readChunked_bytes ending hfits
        hfuel hgood₁ (htotal.trans (by rw [List.append_nil])) []
      obtain ⟨rfl, hpieces⟩ := List.append_eq_nil_iff.mp hrest
      simp only [readBody, hresponse, hcontentLength, htransferEncoding, if_true]
      exact ⟨s', hs', hresponse'.trans hresponse, hcontent, hpieces⟩

theorem read_answer_stored :
    ∃ s' header,
      read FieldStore.inOrder .eof ⟨IfStream.opened [], [Answer.stored.bytes.take 30,
        Answer.stored.bytes.drop 30], ⟨[], [], []⟩⟩ = (s', some (.callback none)) ∧
      s'.response = ⟨lit "1.1", lit "200 OK", header⟩ ∧
      header.Perm [(lit "Server", lit "nginx"), (lit "Transfer-Encoding", lit "chunked")] ∧
      s'.content.unread = lit "{}" ∧ s'.pieces.flatten = [] :=
  read_answer FieldStore.inOrder .eof Answer.wellFormed_stored rfl
    (by simp [total, IfStream.opened])

end Session

end SimpleWeb
