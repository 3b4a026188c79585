import SentryCpp.External.HttpClient

/-!
What an answer comes to, as a function of the whole stream. The handlers see the
stream in pieces, but no decision of theirs depends on where it was cut, so
there is one reading of it: `reading`. Its loop over the chunks is iterated
rounds, and each round takes its bytes off the front of the stream.
-/

namespace SimpleWeb

open StdString Number

/-- One round of the loop over the chunks, on all that is still to come. -/
inductive Round where
  | starved
  | malformed
  | undefined
  | badAlloc
  | chunk (payload rest : Bytes)
  | last (rest : Bytes)
  deriving DecidableEq, Repr

/-- The round for a length. The stream `rest` begins behind the line, and `ahead`
bytes of it were waited for together with the line. -/
def roundOf (length ahead : Nat) (rest : Bytes) : Round :=
  if rest.length < ahead + (2 + length) % 2 ^ 64 then .starved
  else if length = 0 then .last (rest.drop 2)
  else if 2 ^ 63 ≤ length then .badAlloc
  else .chunk (rest.take length) (rest.drop (length + 2))

/-- A round. The wait is for the end of a line, but `getline` stops at a bare
newline in front of it. -/
def round (t : Bytes) : Round :=
  match Incoming.endOf (lit "\r\n") t with
  | none => .starved
  | some lineEnd =>
      let line := t.takeWhile (· ≠ 10)
      if line = [] then .undefined
      else
        match stoulHex line.dropLast with
        | .error _ => .malformed
        | .ok length => roundOf length (lineEnd - (line.length + 1)) (t.drop (line.length + 1))

namespace Session

/-- `content` has met no end and no failure. -/
def Good (s : Session) : Prop := s.content = IfStream.opened s.content.unread

/-- What a wait leaves as it was. -/
structure Follows (s' s : Session) : Prop where
  total : s'.total = s.total
  good : s.Good → s'.Good
  response : s'.response = s.response

theorem follows_received {s : Session} {incoming : Incoming Byte}
    (h : incoming.total = s.content.unread ++ s.pieces.flatten) :
    (s.received incoming).Follows s where
  total := h
  good := fun hgood => by
    rw [Good] at hgood ⊢
    simp only [received]
    rw [hgood]
    rfl
  response := rfl

theorem readUntil_cases (s : Session) (delimiter : Bytes) :
    (delimiter <:+: s.total ∧ ∃ s', s.readUntil delimiter = (s', true) ∧ s'.Follows s ∧
      delimiter <:+: s'.content.unread) ∨
    (¬ delimiter <:+: s.total ∧ ∃ s', s.readUntil delimiter = (s', false) ∧ s'.Follows s ∧
      s'.pieces = []) := by
  rcases Incoming.readUntil_cases delimiter s.content.unread s.pieces with
    ⟨hends, t, ht, htotal, hbuffer⟩ | ⟨hends, ht⟩
  · exact Or.inl ⟨hends, s.received t, by rw [readUntil, ht], follows_received htotal, hbuffer⟩
  · refine Or.inr ⟨hends, s.received ⟨s.total, []⟩, by rw [readUntil, ht]; rfl, ?_, rfl⟩
    exact follows_received (by simp [Incoming.total, total])

theorem readExactly_cases (s : Session) (n : Nat) :
    (n ≤ s.pieces.flatten.length ∧ ∃ s', s.readExactly n = (s', true) ∧ s'.Follows s ∧
      s'.content.unread.length = s.content.unread.length + n) ∨
    (s.pieces.flatten.length < n ∧ ∃ s', s.readExactly n = (s', false) ∧ s'.Follows s) := by
  rcases Incoming.readExactly_cases n s.content.unread s.pieces with
    ⟨hlength, t, ht, htotal, hbuffer⟩ | ⟨hlength, ht⟩
  · exact Or.inl ⟨hlength, s.received t, by rw [readExactly, ht], follows_received htotal, hbuffer⟩
  · refine Or.inr ⟨hlength, s.received ⟨s.total, []⟩, by rw [readExactly, ht]; rfl, ?_⟩
    exact follows_received (by simp [Incoming.total, total])

/-- The waits of the handlers for `n` bytes, of which the buffer has some. -/
theorem fill_cases (s : Session) {has n : Nat} (hhas : has ≤ s.content.unread.length) :
    (s.content.unread.length - has + n ≤ s.total.length ∧ ∃ s', s.fill has n = (s', true) ∧
      s'.Follows s ∧ s.content.unread.length - has + n ≤ s'.content.unread.length) ∨
    (s.total.length < s.content.unread.length - has + n ∧ ∃ s', s.fill has n = (s', false) ∧
      s'.Follows s) := by
  have htotal : s.total.length = s.content.unread.length + s.pieces.flatten.length := by
    rw [total, List.length_append]
  by_cases hlt : has < n
  · rw [fill, if_pos hlt]
    rcases s.readExactly_cases (n - has) with ⟨hlength, s', hs', hfollows, hbuffer⟩ |
      ⟨hlength, s', hs', hfollows⟩
    · exact Or.inl ⟨by omega, s', hs', hfollows, by omega⟩
    · exact Or.inr ⟨by omega, s', hs', hfollows⟩
  · rw [fill, if_neg hlt]
    exact Or.inl ⟨by omega, s, rfl, ⟨rfl, id, rfl⟩, by omega⟩

theorem readChunk_of_le {s : Session} (hgood : s.Good) {length : Nat} (hsmall : length < 2 ^ 63)
    (hlength : length + 2 ≤ s.content.unread.length) (chunks : Bytes) :
    s.readChunk chunks length =
      .ok ({ s with content := IfStream.opened (s.content.unread.drop (length + 2)) },
        chunks ++ s.content.unread.take length) := by
  have hget : ∀ bytes : Bytes, 2 ≤ bytes.length →
      (IfStream.opened bytes).get.get = IfStream.opened (bytes.drop 2) := by
    intro bytes hbytes
    rw [IfStream.get_opened (by omega), IfStream.get_opened (by rw [List.length_drop]; omega),
      List.drop_drop]
  rw [readChunk]
  split
  · rw [if_neg (by omega), hgood, IfStream.read_opened (by omega)]
    simp only [IfStream.opened, List.length_take]
    rw [if_neg (by omega)]
    have hread := hget (s.content.unread.drop length) (by rw [List.length_drop]; omega)
    rw [List.drop_drop] at hread
    simp only [IfStream.opened] at hread
    rw [hread]
  · obtain rfl : length = 0 := by omega
    rw [hgood, hget _ (by simpa using hlength)]
    simp [IfStream.opened]

/-- The ways in which the wait for a length ends. -/
theorem readLength_cases (ending : ErrorCode) {s : Session} (hgood : s.Good) :
    (round s.total = .starved ∧ ∃ s', s.readLength ending =
      (s', .error (.callback (some ending)))) ∨
    (round s.total = .undefined ∧ ∃ s', s.readLength ending = (s', .error .undefined)) ∨
    (round s.total = .malformed ∧ ∃ s', s.readLength ending =
      (s', .error (.callback (some .protocolError)))) ∨
    (∃ (s' : Session) (length ahead : Nat), s.readLength ending = (s', .ok (length, ahead)) ∧
      s'.Good ∧ s'.response = s.response ∧ ahead ≤ s'.content.unread.length ∧
      round s.total = roundOf length ahead s'.total) := by
  rw [readLength]
  rcases s.readUntil_cases (lit "\r\n") with ⟨hends, s₁, hs₁, hfollows, hbuffer⟩ |
    ⟨hends, s₁, hs₁, hfollows, -⟩
  · have hgood₁ := hfollows.good hgood
    have hend := Incoming.endOf_buffer (t := ⟨s₁.content.unread, s₁.pieces⟩) hbuffer
    obtain ⟨lineEnd, hlineEnd⟩ :=
      Option.ne_none_iff_exists'.mp (mt Incoming.endOf_eq_none_iff.mp (not_not.mpr hbuffer))
    have hle : lineEnd ≤ s₁.content.unread.length := by
      obtain ⟨front, back, hsplit, rfl⟩ := Incoming.endOf_eq_some hlineEnd
      rw [hsplit]
      simp only [List.length_append]
      omega
    have hnewline : 10 ∈ s₁.content.unread := hbuffer.subset (by decide)
    obtain ⟨line, b, hline, hfree⟩ := List.eq_append_cons_of_mem hnewline
    have hstream : s.total = line ++ 10 :: (b ++ s₁.pieces.flatten) := by
      rw [← hfollows.total, Session.total, hline]
      simp
    have hround : Incoming.endOf (lit "\r\n") s.total = some lineEnd := by
      rw [← hfollows.total]
      exact hend.symm.trans hlineEnd
    have htake : s.total.takeWhile (· ≠ 10) = line := by
      rw [hstream, takeWhile_append_of_notMem hfree]
    have hdrop : s.total.drop (line.length + 1) = b ++ s₁.pieces.flatten := by
      rw [hstream, List.drop_length_add_append]
      rfl
    have hgetline : s₁.content.getline [] = (IfStream.opened b, line) := by
      rw [hgood₁, hline, IfStream.getline_opened hfree]
    simp only [hs₁, Bool.not_true, Bool.false_eq_true, if_false, hgetline, transferred, hlineEnd,
      Option.getD_some, round, hround, htake, hdrop]
    by_cases hempty : line = []
    · exact Or.inr (Or.inl ⟨if_pos hempty, _, if_pos hempty⟩)
    · simp only [if_neg hempty]
      cases hlength : stoulHex line.dropLast with
      | error e => exact Or.inr (Or.inr (Or.inl ⟨rfl, _, rfl⟩))
      | ok length =>
          refine Or.inr (Or.inr (Or.inr ⟨_, length, _, rfl, rfl, hfollows.response, ?_, rfl⟩))
          rw [hline] at hle
          simp only [List.length_append, List.length_cons] at hle
          simp only [IfStream.opened]
          omega
  · exact Or.inl ⟨by rw [round, Incoming.endOf_eq_none_iff.mpr hends], s₁, by rw [hs₁]; rfl⟩

theorem Follows.trans {s₁ s₂ s₃ : Session} (h : s₁.Follows s₂) (h' : s₂.Follows s₃) :
    s₁.Follows s₃ where
  total := h.total.trans h'.total
  good := fun hgood => h.good (h'.good hgood)
  response := h.response.trans h'.response

/-- The handlers of one chunk make one round. -/
theorem readChunked_round (ending : ErrorCode) (fuel : Nat) {s : Session} (hgood : s.Good)
    (chunks : Bytes) :
    match round s.total with
    | .starved => (s.readChunked ending (fuel + 1) chunks).2 = .callback (some ending)
    | .malformed => (s.readChunked ending (fuel + 1) chunks).2 = .callback (some .protocolError)
    | .undefined => (s.readChunked ending (fuel + 1) chunks).2 = .undefined
    | .badAlloc => (s.readChunked ending (fuel + 1) chunks).2 = .badAlloc
    | .chunk payload rest => ∃ s' : Session, s'.Good ∧ s'.total = rest ∧
        s'.response = s.response ∧
        s.readChunked ending (fuel + 1) chunks = s'.readChunked ending fuel (chunks ++ payload)
    | .last rest => ∃ s' b, s.readChunked ending (fuel + 1) chunks = (s', .callback none) ∧
        s'.response = s.response ∧ s'.content.unread = b ++ chunks ∧
        b ++ s'.pieces.flatten = rest := by
  rcases readLength_cases ending hgood with ⟨hround, s₁, hs₁⟩ | ⟨hround, s₁, hs₁⟩ |
    ⟨hround, s₁, hs₁⟩ | ⟨s₁, length, ahead, hs₁, hgood₁, hresponse₁, hahead, hround⟩
  · simp only [hround, readChunked, hs₁]
  · simp only [hround, readChunked, hs₁]
  · simp only [hround, readChunked, hs₁]
  · rw [hround, roundOf]
    have hhas : s₁.content.unread.length - ahead ≤ s₁.content.unread.length := Nat.sub_le _ _
    have hahead' : s₁.content.unread.length - (s₁.content.unread.length - ahead) = ahead := by
      omega
    rcases s₁.fill_cases (n := (2 + length) % 2 ^ 64) hhas with
      ⟨hlength, s₂, hs₂, hfollows, hbuffer⟩ | ⟨hlength, s₂, hs₂, hfollows⟩
    · have hgood₂ := hfollows.good hgood₁
      rw [hahead'] at hlength hbuffer
      rw [if_neg (Nat.not_lt.mpr hlength), ← hfollows.total]
      have hstream : ∀ n, n ≤ s₂.content.unread.length →
          s₂.total.take n = s₂.content.unread.take n ∧
          s₂.total.drop n = s₂.content.unread.drop n ++ s₂.pieces.flatten := by
        intro n hn
        rw [total, List.take_append_of_le_length hn, List.drop_append_of_le_length hn]
        exact ⟨rfl, rfl⟩
      have hresponse₂ : s₂.response = s.response := hfollows.response.trans hresponse₁
      simp only [readChunked, hs₁, hs₂, Bool.not_true, Bool.false_eq_true, if_false]
      by_cases hzero : length = 0
      · subst length
        have hread := readChunk_of_le hgood₂ (by omega : 0 < 2 ^ 63) (by omega) chunks
        simp only [hread, Nat.lt_irrefl, if_false, if_true, List.take_zero, List.append_nil]
        exact ⟨_, _, rfl, hresponse₂, rfl, (hstream 2 (by omega)).2.symm⟩
      · by_cases hhuge : 2 ^ 63 ≤ length
        · simp only [if_neg hzero, if_pos hhuge, readChunk, if_pos (Nat.pos_of_ne_zero hzero)]
        · have hneeded : (2 + length) % 2 ^ 64 = 2 + length := Nat.mod_eq_of_lt (by omega)
          rw [hneeded] at hbuffer
          have hread := readChunk_of_le hgood₂ (Nat.lt_of_not_le hhuge) (by omega) chunks
          obtain ⟨htake, -⟩ := hstream length (by omega)
          obtain ⟨-, hdrop⟩ := hstream (length + 2) (by omega)
          simp only [if_neg hzero, if_neg hhuge, hread, if_pos (Nat.pos_of_ne_zero hzero), htake,
            hdrop]
          exact ⟨{ s₂ with
            content := IfStream.opened (s₂.content.unread.drop (length + 2)) },
            rfl, rfl, hresponse₂, rfl⟩
    · rw [hahead'] at hlength
      rw [if_pos hlength]
      simp only [readChunked, hs₁, hs₂, Bool.not_false, if_true]

end Session

theorem length_of_round {t payload rest : Bytes} (h : round t = .chunk payload rest) :
    rest.length < t.length := by
  rw [round] at h
  split at h
  · cases h
  · simp only at h
    split at h
    · cases h
    · rename_i hline
      split at h
      · cases h
      · rw [roundOf] at h
        split at h
        · cases h
        · split at h
          · cases h
          · split at h
            · cases h
            · cases h
              have hlength : (t.takeWhile (· ≠ 10)).length ≤ t.length :=
                (List.takeWhile_prefix _).length_le
              have hpos := List.length_pos_of_ne_nil hline
              simp only [List.length_drop]
              omega

/-- How the loop over the chunks ends. -/
def chunksEnd (ending : ErrorCode) : Nat → Bytes → End
  | 0, _ => .endless
  | fuel + 1, t =>
      match round t with
      | .starved => .callback (some ending)
      | .malformed => .callback (some .protocolError)
      | .undefined => .undefined
      | .badAlloc => .badAlloc
      | .chunk _ rest => chunksEnd ending fuel rest
      | .last _ => .callback none

/-- Each round takes bytes off the stream, so the loop comes to an end. -/
theorem chunksEnd_ne_endless (ending : ErrorCode) {fuel : Nat} {t : Bytes}
    (hfuel : t.length < fuel) : chunksEnd ending fuel t ≠ .endless := by
  induction fuel generalizing t with
  | zero => cases hfuel
  | succ fuel ih =>
      rw [chunksEnd]
      cases hround : round t with
      | chunk payload rest =>
          have hshorter := length_of_round hround
          exact ih (by omega)
      | _ => simp

theorem chunksEnd_ne_threw (ending : ErrorCode) (fuel : Nat) (t : Bytes) (e : StdError) :
    chunksEnd ending fuel t ≠ .threw e := by
  induction fuel generalizing t with
  | zero => simp [chunksEnd]
  | succ fuel ih =>
      rw [chunksEnd]
      cases round t with
      | chunk payload rest => exact ih rest
      | _ => simp

namespace Session

theorem response_readLength (ending : ErrorCode) (s : Session) :
    (s.readLength ending).1.response = s.response := by
  have huntil : (s.readUntil (lit "\r\n")).1.response = s.response := rfl
  rw [readLength]
  generalize s.readUntil (lit "\r\n") = result at huntil ⊢
  obtain ⟨s₁, found⟩ := result
  simp only at huntil ⊢
  split
  · exact huntil
  · split
    · exact huntil
    · split <;> exact huntil

theorem response_fill (s : Session) (has n : Nat) : (s.fill has n).1.response = s.response := by
  rw [fill]
  split <;> rfl

theorem response_of_readChunk {s s' : Session} {chunks chunks' : Bytes} {length : Nat}
    (h : s.readChunk chunks length = .ok (s', chunks')) : s'.response = s.response := by
  rw [readChunk] at h
  split at h
  · split at h
    · cases h
    · simp only at h
      split at h
      · cases h
      · cases h
        rfl
  · cases h
    rfl

/-- The loop over the chunks leaves the head as it was read. -/
theorem response_readChunked (ending : ErrorCode) (fuel : Nat) (s : Session) (chunks : Bytes) :
    (s.readChunked ending fuel chunks).1.response = s.response := by
  induction fuel generalizing s chunks with
  | zero => rfl
  | succ fuel ih =>
      have hlength := response_readLength ending s
      rw [readChunked]
      split
      · rename_i s₁ ended hs₁
        rwa [hs₁] at hlength
      · rename_i s₁ length bytesTransferred hs₁
        rw [hs₁] at hlength
        have hfill := response_fill s₁ (s₁.content.unread.length - bytesTransferred)
          ((2 + length) % 2 ^ 64)
        generalize s₁.fill (s₁.content.unread.length - bytesTransferred)
          ((2 + length) % 2 ^ 64) = result at hfill ⊢
        obtain ⟨s₂, found⟩ := result
        simp only at hfill hlength ⊢
        split
        · exact hfill.trans hlength
        · split
          · exact hfill.trans hlength
          · rename_i s₃ chunks' hs₃
            have hchunk := (response_of_readChunk hs₃).trans (hfill.trans hlength)
            split
            · exact (ih s₃ chunks').trans hchunk
            · exact hchunk

theorem readChunked_end (ending : ErrorCode) (fuel : Nat) {s : Session} (hgood : s.Good)
    (chunks : Bytes) :
    (s.readChunked ending fuel chunks).2 = chunksEnd ending fuel s.total := by
  induction fuel generalizing s chunks with
  | zero => rfl
  | succ fuel ih =>
      have hround := readChunked_round ending fuel hgood chunks
      rw [chunksEnd]
      cases hcases : round s.total with
      | starved | malformed | undefined | badAlloc =>
          simp only [hcases] at hround ⊢
          exact hround
      | chunk payload rest =>
          simp only [hcases] at hround ⊢
          obtain ⟨s', hgood', rfl, -, hnext⟩ := hround
          rw [hnext]
          exact ih hgood' (chunks ++ payload)
      | last rest =>
          simp only [hcases] at hround ⊢
          obtain ⟨s', b, hs', -⟩ := hround
          rw [hs']

end Session

/-- What an answer comes to for the caller of `read`. -/
inductive Reading where
  | broken
  | failed (ec : ErrorCode)
  | answered (response : Response)
  | threw (response : Response) (error : StdError)
  | badAlloc (response : Response)
  | undefined (response : Response)
  | endless
  deriving DecidableEq, Repr

def End.reading (response : Response) : End → Reading
  | .callback none => .answered response
  | .callback (some ec) => .failed ec
  | .threw e => .threw response e
  | .badAlloc => .badAlloc response
  | .undefined => .undefined response
  | .endless => .endless

/-- What `read` has come to. -/
def Session.reading : Session × Option End → Reading
  | (_, none) => .broken
  | (s, some ended) => ended.reading s.response

/-- The handler behind the head, where `additional` bytes follow the head and
`rest` is what its parser left. -/
def bodyEnd (ending : ErrorCode) (response : Response) (additional : Nat) (rest : Bytes) : End :=
  match findField response.header (lit "Content-Length") with
  | some value =>
      match stoul value 10 with
      | .error e => .threw e
      | .ok contentLength =>
          .callback (if contentLength ≤ additional then none else some ending)
  | none =>
      if findField response.header (lit "Transfer-Encoding") = some (lit "chunked") then
        chunksEnd ending (rest.length + 1) rest
      else if response.httpVersion < lit "1.1" ∨
          findField response.header (lit "Session") = some (lit "close") then
        .callback (if ending = .eof then none else some ending)
      else .callback none

/-- The answer in the stream `t`, which `ending` closes. -/
def reading (store : FieldStore) (ending : ErrorCode) (t : Bytes) : Reading :=
  match Incoming.endOf (lit "\r\n\r\n") t with
  | none => .broken
  | some headEnd =>
      match ResponseMessage.parse store (IfStream.opened t) with
      | .rejected => .failed .protocolError
      | .endless => .endless
      | .message response rest =>
          (bodyEnd ending response (t.length - headEnd) rest.unread).reading response

namespace Session

theorem readBody_reading (ending : ErrorCode) {s : Session} (hgood : s.Good) {additional : Nat}
    (hadditional : additional ≤ s.content.unread.length) :
    (readBody ending s additional).2.reading (readBody ending s additional).1.response =
      (bodyEnd ending s.response (additional + s.pieces.flatten.length) s.total).reading
        s.response := by
  rw [readBody, bodyEnd]
  cases findField s.response.header (lit "Content-Length") with
  | some value =>
      simp only
      cases stoul value 10 with
      | error e => rfl
      | ok contentLength =>
          have htotal : s.total.length = s.content.unread.length + s.pieces.flatten.length := by
            rw [total, List.length_append]
          rcases s.fill_cases (n := contentLength) hadditional with
            ⟨hlength, s', hs', hfollows, -⟩ | ⟨hlength, s', hs', hfollows⟩
          · simp only [hs', if_true, if_pos (show contentLength ≤
              additional + s.pieces.flatten.length by omega)]
            rw [End.reading, End.reading, hfollows.response]
          · simp only [hs', Bool.false_eq_true, if_false, if_neg (show ¬ contentLength ≤
              additional + s.pieces.flatten.length by omega)]
            rfl
  | none =>
      simp only
      split
      · rw [readChunked_end ending (s.total.length + 1) hgood [], response_readChunked]
      · split
        · rfl
        · rfl

/-- However the stream is cut into pieces, `read` comes to what the stream as a
whole says. -/
theorem reading_read (store : FieldStore) (ending : ErrorCode) {s : Session} (hgood : s.Good) :
    reading (s.read store ending) = SimpleWeb.reading store ending s.total := by
  rw [read, SimpleWeb.reading]
  rcases s.readUntil_cases (lit "\r\n\r\n") with ⟨hends, s₁, hs₁, hfollows, hbuffer⟩ |
    ⟨hends, s₁, hs₁, hfollows, -⟩
  · have hgood₁ := hfollows.good hgood
    have hend := Incoming.endOf_buffer (t := ⟨s₁.content.unread, s₁.pieces⟩) hbuffer
    obtain ⟨headEnd, hheadEnd⟩ :=
      Option.ne_none_iff_exists'.mp (mt Incoming.endOf_eq_none_iff.mp (not_not.mpr hbuffer))
    have htotal : Incoming.endOf (lit "\r\n\r\n") s.total = some headEnd := by
      rw [← hfollows.total]
      exact hend.symm.trans hheadEnd
    obtain ⟨front, back, hsplit, hlength⟩ := Incoming.endOf_eq_some hheadEnd
    have hstream : s.total = s₁.content.unread ++ s₁.pieces.flatten := hfollows.total.symm
    have hadditional : s₁.content.unread.length - headEnd = back.length := by
      rw [hsplit, hlength]
      simp only [List.length_append]
      omega
    rw [hs₁, htotal]
    simp only [Bool.not_true, Bool.false_eq_true, if_false, transferred, hheadEnd,
      Option.getD_some, hadditional]
    rcases ResponseMessage.parse_append store hsplit with hparse | ⟨response, ahead, hparse⟩
    · have hwhole := hparse []
      rw [List.append_nil, ← hgood₁] at hwhole
      rw [hwhole, hstream, hparse]
      rfl
    · have hwhole := hparse []
      rw [List.append_nil, List.append_nil, ← hgood₁] at hwhole
      rw [hwhole, hstream, hparse]
      have hbehind : back.length ≤ (IfStream.opened (ahead ++ back)).unread.length := by
        simp [IfStream.opened]
      have hbody := readBody_reading ending
        (s := { s₁ with content := IfStream.opened (ahead ++ back), response := response })
        rfl hbehind
      have hcount : (s₁.content.unread ++ s₁.pieces.flatten).length - headEnd =
          back.length + s₁.pieces.flatten.length := by
        rw [hsplit, hlength]
        simp only [List.length_append]
        omega
      simp only [hcount]
      rw [reading, hbody]
      simp only [total, IfStream.opened, List.append_assoc]
  · rw [Incoming.endOf_eq_none_iff.mpr hends, hs₁]
    rfl

end Session

/-- A stream with a whole head has no message for the parser, or it is read as what
stands behind the head says. -/
theorem reading_of_infix (store : FieldStore) (ending : ErrorCode) {t : Bytes}
    (hends : lit "\r\n\r\n" <:+: t) :
    (ResponseMessage.parse store (IfStream.opened t) = .rejected ∧
      reading store ending t = .failed .protocolError) ∨
    ∃ response rest additional,
      ResponseMessage.parse store (IfStream.opened t) = .message response rest ∧
      reading store ending t = (bodyEnd ending response additional rest.unread).reading response := by
  obtain ⟨headEnd, hheadEnd⟩ :=
    Option.ne_none_iff_exists'.mp (mt Incoming.endOf_eq_none_iff.mp (not_not.mpr hends))
  obtain ⟨front, back, hsplit, -⟩ := Incoming.endOf_eq_some hheadEnd
  rw [reading, hheadEnd]
  rcases ResponseMessage.parse_append store hsplit with hparse | ⟨response, ahead, hparse⟩
  · have hwhole := hparse []
    rw [List.append_nil] at hwhole
    exact Or.inl ⟨hwhole, by simp only [hwhole]⟩
  · have hwhole := hparse []
    rw [List.append_nil, List.append_nil] at hwhole
    exact Or.inr ⟨_, _, t.length - headEnd, hwhole, by simp only [hwhole]⟩

/-- Every stream is read to an end. -/
theorem reading_ne_endless (store : FieldStore) (ending : ErrorCode) (t : Bytes) :
    reading store ending t ≠ .endless := by
  by_cases hends : lit "\r\n\r\n" <:+: t
  swap
  · rw [reading, Incoming.endOf_eq_none_iff.mpr hends]
    simp
  rcases reading_of_infix store ending hends with ⟨-, hreading⟩ |
    ⟨response, rest, additional, -, hreading⟩
  · simp [hreading]
  · have hloop := chunksEnd_ne_endless ending (Nat.lt_succ_self rest.unread.length)
    rw [hreading, bodyEnd]
    split
    · split
      · simp [End.reading]
      · split <;> simp [End.reading]
    · split
      · cases hcases : chunksEnd ending (rest.unread.length + 1) rest.unread with
        | endless => exact absurd hcases hloop
        | callback ec => cases ec <;> simp [End.reading]
        | _ => simp [End.reading]
      · split
        · split <;> simp [End.reading]
        · simp [End.reading]

/-- The loop over the chunks comes to a line that no handler is prepared for: it
is empty, or the room for the chunk cannot be had. -/
inductive Fatal : Bytes → Prop where
  | here {t : Bytes} (h : round t = .undefined ∨ round t = .badAlloc) : Fatal t
  | later {t payload rest : Bytes} (h : round t = .chunk payload rest) (hrest : Fatal rest) :
      Fatal t

theorem chunksEnd_fatal_iff (ending : ErrorCode) {fuel : Nat} {t : Bytes}
    (hfuel : t.length < fuel) :
    (chunksEnd ending fuel t = .undefined ∨ chunksEnd ending fuel t = .badAlloc) ↔ Fatal t := by
  induction fuel generalizing t with
  | zero => cases hfuel
  | succ fuel ih =>
      rw [chunksEnd]
      cases hround : round t with
      | chunk payload rest =>
          have hshorter := length_of_round hround
          rw [ih (by omega)]
          constructor
          · exact .later hround
          · intro h
            cases h with
            | here h => simp [hround] at h
            | later h hrest =>
                rw [hround, Round.chunk.injEq] at h
                exact h.2 ▸ hrest
      | undefined => exact iff_of_true (Or.inl rfl) (.here (Or.inl hround))
      | badAlloc => exact iff_of_true (Or.inr rfl) (.here (Or.inr hround))
      | starved | malformed | last =>
          apply iff_of_false
          · simp
          · intro h
            cases h with
            | here h => simp [hround] at h
            | later h => simp [hround] at h

end SimpleWeb
