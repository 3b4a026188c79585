import SentryCpp.External.Framing

/-!
The connections of the client and the synchronous `request` over them. One
request is made at a time. It takes a connection that is not in use or opens one,
writes itself out and waits for the head of the answer. Where the head does not
come, it does all this once more on a connection that replaces the first; what
the first has given stays in the buffer of the answer.

What resolving, connecting, writing and reading come to is given for each
connection by a `Link`. `transmissions` is not data of the program: it names the
connections on which the request was written to its end.
-/

namespace SimpleWeb

open StdString Number

/-- The network, as far as one connection and one request are concerned. The
pieces arrive in answer to the request, and `ending` closes them. -/
structure Link where
  opening : Option ErrorCode
  writing : Option ErrorCode
  pieces : List Bytes
  ending : ErrorCode

/-- `unread` is what the socket holds that no request has read. -/
structure Connection where
  id : Nat
  inUse : Bool
  unread : List Bytes
  deriving DecidableEq, Repr

/-- The set `connections`, in the order of its iteration, and how many there have
been. -/
structure Pool where
  connections : List Connection
  created : Nat
  deriving DecidableEq, Repr

namespace Pool

def empty : Pool := ⟨[], 0⟩

/-- A new connection is put among the others. -/
def create (pool : Pool) : Pool × Connection :=
  let connection : Connection := ⟨pool.created, true, []⟩
  (⟨pool.connections ++ [connection], pool.created + 1⟩, connection)

/-- `get_connection`. The flag tells whether the socket is open already. -/
def getConnection (pool : Pool) : Pool × Connection × Bool :=
  match pool.connections.find? fun connection => !connection.inUse with
  | some connection =>
      ({ pool with connections := pool.connections.map fun other =>
          if other.id = connection.id then { other with inUse := true } else other },
        connection, true)
  | none => (pool.create.1, pool.create.2, false)

/-- `connections.erase`. -/
def erase (pool : Pool) (id : Nat) : Pool :=
  { pool with connections := pool.connections.filter fun connection => connection.id ≠ id }

/-- The loop of the callback: the connection that failed goes, and of those that
are not in use all but one. -/
def sweep (failed : Option Nat) : Nat → List Connection → List Connection
  | _, [] => []
  | unusedConnections, connection :: rest =>
      if failed = some connection.id then sweep failed unusedConnections rest
      else if connection.inUse then connection :: sweep failed unusedConnections rest
      else if 1 < unusedConnections + 1 then sweep failed (unusedConnections + 1) rest
      else connection :: sweep failed (unusedConnections + 1) rest

/-- The callback of `request` for the connection `id`, whose socket still holds
`unread`. -/
def callback (pool : Pool) (id : Nat) (unread : List Bytes) (ec : Option ErrorCode) : Pool :=
  let connections := pool.connections.map fun connection =>
    if connection.id = id then { connection with inUse := false, unread := unread }
    else connection
  { pool with connections := sweep (if ec.isSome then some id else none) 0 connections }

end Pool

/-- How far a request has come on one connection. -/
inductive Progress where
  | refused (ec : ErrorCode)
  | written (ended : Option End)

namespace Session

/-- `connect`, `write` and `read`. -/
def attempt (store : FieldStore) (isOpen : Bool) (link : Link) (s : Session) :
    Session × Progress :=
  match if isOpen then none else link.opening with
  | some ec => (s, .refused ec)
  | none =>
      match link.writing with
      | some ec => (s, .refused ec)
      | none =>
          let (s, ended) := read store link.ending { s with pieces := s.pieces ++ link.pieces }
          (s, .written ended)

end Session

/-- What a request has come to. -/
structure Requested where
  reading : Reading
  transmissions : List Nat
  pool : Pool

/-- The callback, if the handlers have come to it. -/
def Pool.finish (pool : Pool) (id : Nat) (s : Session) (ended : End) : Pool :=
  match ended with
  | .callback ec => pool.callback id s.pieces ec
  | .threw _ | .badAlloc | .undefined | .endless => pool

/-- The request once more, on the connection that replaces `id`, with
`attempt_reconnect` cleared. -/
def requestAgain (store : FieldStore) (pool : Pool) (id : Nat) (s : Session) (link : Link) :
    Requested :=
  let (pool, connection) := (pool.erase id).create
  match Session.attempt store false link { s with pieces := [] } with
  | (s, .refused ec) => ⟨.failed ec, [id], pool.callback connection.id s.pieces (some ec)⟩
  | (s, .written none) =>
      ⟨.failed link.ending, [id, connection.id],
        pool.callback connection.id s.pieces (some link.ending)⟩
  | (s, .written (some ended)) =>
      ⟨ended.reading s.response, [id, connection.id], pool.finish connection.id s ended⟩

/-- `request`. -/
def requestOver (store : FieldStore) (pool : Pool) (first second : Link) : Requested :=
  let (pool, connection, isOpen) := pool.getConnection
  let s : Session := ⟨IfStream.opened [], connection.unread, ⟨[], [], []⟩⟩
  match s.attempt store isOpen first with
  | (s, .refused ec) => ⟨.failed ec, [], pool.callback connection.id s.pieces (some ec)⟩
  | (s, .written none) =>
      if first.ending = .operationAborted then
        ⟨.failed first.ending, [connection.id],
          pool.callback connection.id s.pieces (some first.ending)⟩
      else requestAgain store pool connection.id s second
  | (s, .written (some ended)) =>
      ⟨ended.reading s.response, [connection.id], pool.finish connection.id s ended⟩

/-- The error code that keeps a request from being written. -/
def Link.refusal (isOpen : Bool) (link : Link) : Option ErrorCode :=
  (if isOpen then none else link.opening).or link.writing

namespace Session

theorem attempt_of_refusal (store : FieldStore) {isOpen : Bool} {link : Link} {ec : ErrorCode}
    (h : link.refusal isOpen = some ec) (s : Session) :
    s.attempt store isOpen link = (s, .refused ec) := by
  rw [Link.refusal] at h
  rw [attempt]
  cases hopening : if isOpen then none else link.opening with
  | some e =>
      rw [hopening] at h
      cases h
      rfl
  | none =>
      rw [hopening, Option.none_or] at h
      rw [h]

theorem attempt_of_written (store : FieldStore) {isOpen : Bool} {link : Link}
    (h : link.refusal isOpen = none) (s : Session) :
    s.attempt store isOpen link =
      ((read store link.ending { s with pieces := s.pieces ++ link.pieces }).1,
        .written (read store link.ending { s with pieces := s.pieces ++ link.pieces }).2) := by
  rw [Link.refusal, Option.or_eq_none_iff] at h
  rw [attempt, h.1, h.2]

theorem read_of_headless (store : FieldStore) (ending : ErrorCode) {s : Session}
    (h : ¬ lit "\r\n\r\n" <:+: s.total) :
    ∃ s', s.read store ending = (s', none) ∧ s'.Follows s ∧ s'.pieces = [] := by
  rcases s.readUntil_cases (lit "\r\n\r\n") with ⟨hends, -⟩ | ⟨-, s', hs', hfollows, hpieces⟩
  · exact absurd hends h
  · exact ⟨s', by rw [read, hs']; rfl, hfollows, hpieces⟩

theorem read_of_headed (store : FieldStore) (ending : ErrorCode) {s : Session} (hgood : s.Good)
    (h : lit "\r\n\r\n" <:+: s.total) :
    ∃ s' ended, s.read store ending = (s', some ended) ∧
      ended.reading s'.response = SimpleWeb.reading store ending s.total := by
  have hreading := reading_read store ending hgood
  cases hread : s.read store ending with
  | mk s' ended =>
      rw [hread] at hreading
      cases ended with
      | some ended => exact ⟨s', ended, rfl, hreading⟩
      | none =>
          rcases s.readUntil_cases (lit "\r\n\r\n") with ⟨-, s₁, hs₁, -⟩ | ⟨hnone, -⟩
          · rw [read, hs₁] at hread
            simp only [Bool.not_true, Bool.false_eq_true, if_false] at hread
            split at hread <;> cases hread
          · exact absurd h hnone

end Session

/-- What the connection at hand has left in its socket. -/
def Pool.held (pool : Pool) : Option Bytes :=
  (pool.connections.find? fun connection => !connection.inUse).map fun connection =>
    connection.unread.flatten

/-- The stream in which a request finds its answer, and what closes it. A stream
of two connections begins with what the first one has left. -/
def answerStream (held : Option Bytes) (first second : Link) :
    Except ErrorCode (Bytes × ErrorCode) :=
  match first.refusal held.isSome with
  | some ec => .error ec
  | none =>
      let given := held.getD [] ++ first.pieces.flatten
      if lit "\r\n\r\n" <:+: given then .ok (given, first.ending)
      else if first.ending = .operationAborted then .error .operationAborted
      else
        match second.refusal false with
        | some ec => .error ec
        | none =>
            let given := given ++ second.pieces.flatten
            if lit "\r\n\r\n" <:+: given then .ok (given, second.ending)
            else .error second.ending

/-- How the answer is read off its stream. -/
def readingOf (store : FieldStore) : Except ErrorCode (Bytes × ErrorCode) → Reading
  | .error ec => .failed ec
  | .ok (t, ending) => reading store ending t

theorem reading_requestAgain (store : FieldStore) (pool : Pool) (id : Nat) {s : Session}
    (hgood : s.Good) (link : Link) :
    (requestAgain store pool id s link).reading =
      readingOf store (match link.refusal false with
        | some ec => .error ec
        | none =>
            if lit "\r\n\r\n" <:+: s.content.unread ++ link.pieces.flatten then
              .ok (s.content.unread ++ link.pieces.flatten, link.ending)
            else .error link.ending) := by
  cases hrefusal : link.refusal false with
  | some ec =>
      simp only [requestAgain, Session.attempt_of_refusal store hrefusal]
      rfl
  | none =>
      have hattempt := Session.attempt_of_written store hrefusal { s with pieces := [] }
      simp only [List.nil_append] at hattempt
      have hgood' : Session.Good { s with pieces := link.pieces } := hgood
      by_cases hends : lit "\r\n\r\n" <:+: s.content.unread ++ link.pieces.flatten
      · obtain ⟨s', ended, hread, hreading⟩ :=
          Session.read_of_headed store link.ending hgood' hends
        simp only [requestAgain, hattempt, hread, if_pos hends]
        exact hreading
      · obtain ⟨s', hread, -⟩ := Session.read_of_headless store link.ending
          (s := { s with pieces := link.pieces }) hends
        simp only [requestAgain, hattempt, hread, if_neg hends]
        rfl

theorem held_getConnection (pool : Pool) :
    pool.held.isSome = pool.getConnection.2.2 ∧
      pool.held.getD [] = pool.getConnection.2.1.unread.flatten := by
  rw [Pool.held, Pool.getConnection]
  cases pool.connections.find? fun connection => !connection.inUse with
  | some connection => exact ⟨rfl, rfl⟩
  | none => exact ⟨rfl, rfl⟩

/-- A request comes to what its stream says, however the connections cut it. -/
theorem reading_requestOver (store : FieldStore) (pool : Pool) (first second : Link) :
    (requestOver store pool first second).reading =
      readingOf store (answerStream pool.held first second) := by
  obtain ⟨hopen, hheld⟩ := held_getConnection pool
  rw [answerStream, hopen, hheld, requestOver]
  obtain ⟨pool', connection, isOpen⟩ := pool.getConnection
  simp only
  cases hrefusal : first.refusal isOpen with
  | some ec =>
      simp only [Session.attempt_of_refusal store hrefusal]
      rfl
  | none =>
      have hattempt := Session.attempt_of_written store hrefusal
        ⟨IfStream.opened [], connection.unread, ⟨[], [], []⟩⟩
      have htotal : Session.total ⟨IfStream.opened [], connection.unread ++ first.pieces,
          ⟨[], [], []⟩⟩ = connection.unread.flatten ++ first.pieces.flatten := by
        rw [Session.total, List.flatten_append]
        rfl
      by_cases hends : lit "\r\n\r\n" <:+: connection.unread.flatten ++ first.pieces.flatten
      · obtain ⟨s', ended, hread, hreading⟩ := Session.read_of_headed store first.ending
          (s := ⟨IfStream.opened [], connection.unread ++ first.pieces, ⟨[], [], []⟩⟩) rfl
          (htotal ▸ hends)
        simp only [hattempt, hread, if_pos hends]
        rw [htotal] at hreading
        exact hreading
      · obtain ⟨s', hread, hfollows, hpieces⟩ := Session.read_of_headless store first.ending
          (s := ⟨IfStream.opened [], connection.unread ++ first.pieces, ⟨[], [], []⟩⟩)
          (htotal ▸ hends)
        have hunread : s'.content.unread =
            connection.unread.flatten ++ first.pieces.flatten := by
          rw [← htotal, ← hfollows.total, Session.total, hpieces, List.flatten_nil,
            List.append_nil]
        simp only [hattempt, hread, if_neg hends]
        by_cases haborted : first.ending = .operationAborted
        · rw [if_pos haborted, if_pos haborted, haborted]
          rfl
        · rw [if_neg haborted, if_neg haborted,
            reading_requestAgain store pool' connection.id (hfollows.good rfl) second, hunread]

/-- What the caller of `request` gets, where it gets something. -/
def Reading.returned : Reading → Option (Except Thrown Response)
  | .answered response => some (.ok response)
  | .failed _ => some (.error .systemError)
  | .threw _ e => some (.error (.std e))
  | .badAlloc _ => some (.error .badAlloc)
  | .undefined _ => some (.error .undefined)
  | .broken | .endless => none

/-- The outcome of the network that a reading stands for. -/
def Reading.outcome : Reading → Outcome
  | .answered response | .threw response _ => .response response
  | .badAlloc response => .chunkFault response .badAlloc
  | .undefined response => .chunkFault response .undefined
  | .failed _ | .broken | .endless => .errorCode

/-- A chunked answer whose loop comes to a line that no handler is prepared
for. -/
def FatalAnswer (store : FieldStore) (t : Bytes) : Prop :=
  ∃ response rest, ResponseMessage.parse store (IfStream.opened t) = .message response rest ∧
    findField response.header (lit "Content-Length") = none ∧
    findField response.header (lit "Transfer-Encoding") = some (lit "chunked") ∧
    Fatal rest.unread

theorem chunked_iff (header : Header) :
    chunked header = true ↔ findField header (lit "Content-Length") = none ∧
      findField header (lit "Transfer-Encoding") = some (lit "chunked") := by
  simp [chunked]

/-- The ways in which the handlers end behind a head. -/
theorem bodyEnd_cases (ending : ErrorCode) (response : Response) (additional : Nat)
    (rest : Bytes) :
    (contentLengthOk response.header = false ∧ ∃ e, readResponse response = .error (.std e) ∧
      bodyEnd ending response additional rest = .threw e) ∨
    (readResponse response = .ok response ∧ ¬ (chunked response.header = true ∧ Fatal rest) ∧
      ∃ ec, bodyEnd ending response additional rest = .callback ec) ∨
    (chunked response.header = true ∧ Fatal rest ∧
      (bodyEnd ending response additional rest = .badAlloc ∨
        bodyEnd ending response additional rest = .undefined)) := by
  rw [bodyEnd]
  cases hlength : findField response.header (lit "Content-Length") with
  | some value =>
      have hchunked : chunked response.header = false := by simp [chunked, hlength]
      cases hvalue : stoul value 10 with
      | error e =>
          exact Or.inl ⟨by simp [contentLengthOk, hlength, hvalue, Except.isOk, Except.toBool], e,
            by simp [readResponse, hlength, hvalue], by simp only [hvalue]⟩
      | ok contentLength =>
          exact Or.inr (Or.inl ⟨by simp [readResponse, hlength, hvalue], by simp [hchunked],
            _, by simp only [hvalue]; rfl⟩)
  | none =>
      have hread : readResponse response = .ok response := by simp [readResponse, hlength]
      refine Or.inr ?_
      simp only
      split
      · rename_i htransfer
        have hchunked : chunked response.header = true := (chunked_iff _).mpr ⟨hlength, htransfer⟩
        have hfatal := chunksEnd_fatal_iff ending (Nat.lt_succ_self rest.length)
        have hendless := chunksEnd_ne_endless ending (Nat.lt_succ_self rest.length)
        have hthrew := chunksEnd_ne_threw ending (rest.length + 1) rest
        rw [← hfatal, hchunked]
        cases hend : chunksEnd ending (rest.length + 1) rest with
        | callback ec => exact Or.inl ⟨hread, by simp, ec, rfl⟩
        | threw e => exact absurd hend (hthrew e)
        | endless => exact absurd hend hendless
        | badAlloc => exact Or.inr ⟨rfl, Or.inr rfl, Or.inl rfl⟩
        | undefined => exact Or.inr ⟨rfl, Or.inl rfl, Or.inr rfl⟩
      · rename_i htransfer
        have hchunked : chunked response.header = false := by simp [chunked, htransfer]
        refine Or.inl ⟨hread, by simp [hchunked], ?_⟩
        split
        · exact ⟨_, rfl⟩
        · exact ⟨_, rfl⟩

/-- Behind a head the handlers come to what `request` makes of an outcome, and to a
fault exactly where the loop over the chunks does. -/
theorem bodyEnd_reading (ending : ErrorCode) (response : Response) (additional : Nat)
    (rest : Bytes) :
    ((bodyEnd ending response additional rest).reading response).returned =
        some (request ((bodyEnd ending response additional rest).reading response).outcome) ∧
      (((bodyEnd ending response additional rest).reading response).outcome.faulty = true ↔
        chunked response.header = true ∧ Fatal rest) := by
  rcases bodyEnd_cases ending response additional rest with ⟨hlength, e, hread, hend⟩ |
    ⟨hread, hnot, ec, hend⟩ | ⟨hchunked, hfatal, hend⟩
  · have hchunked : chunked response.header = false := by
      rw [Bool.eq_false_iff]
      intro hchunked
      simp [contentLengthOk, ((chunked_iff _).mp hchunked).1] at hlength
    rw [hend]
    exact ⟨congrArg some hread.symm,
      by simp [End.reading, Reading.outcome, Outcome.faulty, hchunked]⟩
  · rw [hend]
    cases ec with
    | none => exact ⟨congrArg some hread.symm, iff_of_false (by simp [End.reading,
        Reading.outcome, Outcome.faulty]) hnot⟩
    | some ec => exact ⟨rfl, iff_of_false (by simp [End.reading, Reading.outcome,
        Outcome.faulty]) hnot⟩
  · rcases hend with hend | hend <;> rw [hend] <;>
      simp [End.reading, Reading.returned, Reading.outcome, request, ChunkFault.thrown,
        Outcome.faulty, hchunked, hfatal]

theorem infix_of_answerStream {held : Option Bytes} {first second : Link} {t : Bytes}
    {ending : ErrorCode} (h : answerStream held first second = .ok (t, ending)) :
    lit "\r\n\r\n" <:+: t := by
  rw [answerStream] at h
  split at h
  · cases h
  · simp only at h
    split at h
    · rename_i hends
      cases h
      exact hends
    · split at h
      · cases h
      · split at h
        · cases h
        · split at h
          · rename_i hends
            cases h
            exact hends
          · cases h

/-- A request comes to what the stream of its answer says, however the
connections cut that stream. For its caller this is what `request` makes of the
outcome that the stream stands for. The outcome has a fault exactly where the
answer is one that no handler is prepared for. -/
theorem requestOver_refines (store : FieldStore) (pool : Pool) (first second : Link) :
    (requestOver store pool first second).reading =
        readingOf store (answerStream pool.held first second) ∧
      (requestOver store pool first second).reading.returned =
        some (request (requestOver store pool first second).reading.outcome) ∧
      ((requestOver store pool first second).reading.outcome.faulty = false ↔
        ∀ t ending, answerStream pool.held first second = .ok (t, ending) →
          ¬ FatalAnswer store t) := by
  rw [reading_requestOver]
  refine ⟨rfl, ?_⟩
  cases hstream : answerStream pool.held first second with
  | error ec => exact ⟨rfl, iff_of_true rfl (by simp)⟩
  | ok stream =>
      obtain ⟨t, ending⟩ := stream
      have hends := infix_of_answerStream hstream
      have hstreams : (∀ t' ending', (.ok (t, ending) : Except ErrorCode (Bytes × ErrorCode)) =
          .ok (t', ending') → ¬ FatalAnswer store t') ↔ ¬ FatalAnswer store t := by
        constructor
        · intro h
          exact h t ending rfl
        · rintro h t' ending' heq
          cases heq
          exact h
      rw [hstreams, readingOf, FatalAnswer]
      rcases reading_of_infix store ending hends with ⟨hparse, hreading⟩ |
        ⟨response, rest, additional, hparse, hreading⟩
      · rw [hreading]
        exact ⟨rfl, iff_of_true rfl (by simp [hparse])⟩
      · obtain ⟨hreturned, hfaulty⟩ := bodyEnd_reading ending response additional rest.unread
        rw [hreading, ← Bool.not_eq_true, hfaulty, chunked_iff]
        simp only [hparse, Parsed.message.injEq]
        refine ⟨hreturned, not_congr ?_⟩
        constructor
        · rintro ⟨⟨hlength, hchunked⟩, hfatal⟩
          exact ⟨_, _, ⟨rfl, rfl⟩, hlength, hchunked, hfatal⟩
        · rintro ⟨_, _, ⟨rfl, rfl⟩, hlength, hchunked, hfatal⟩
          exact ⟨⟨hlength, hchunked⟩, hfatal⟩

end SimpleWeb
