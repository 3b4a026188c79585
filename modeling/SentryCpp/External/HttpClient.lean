import SentryCpp.External.HttpMessage
import SentryCpp.Foundation.Incoming

/-!
How the vendored client reads an answer. The bytes come in pieces of any size,
each wait of a handler is for a delimiter or for a number of bytes, and what a
wait has read too much stays in the stream buffer of the response for the next
handler. An error code of the socket ends a wait; it is the last thing that a
connection gives.

The handlers run one after the other, so each is a function here and calls the
next. Not every exception has a handler: `Content-Length` is converted without
one, and so is the room for a chunk allocated.
-/

namespace SimpleWeb

open StdString Number

inductive ErrorCode where
  | eof
  | operationAborted
  | protocolError
  | other
  deriving DecidableEq, Repr

/-- How the handlers of a request end: with the callback, with an exception that
leaves `io_service->run()`, outside of what the language defines, or never. -/
inductive End where
  | callback (ec : Option ErrorCode)
  | threw (error : StdError)
  | badAlloc
  | undefined
  | endless
  deriving DecidableEq, Repr

/-- `content` reads the stream buffer of the response, and `pieces` is what the
socket still gives. -/
structure Session where
  content : IfStream
  pieces : List Bytes
  response : Response

namespace Session

/-- The session when a read has changed the buffer and the socket. -/
def received (s : Session) (incoming : Incoming Byte) : Session :=
  { s with
    content := { s.content with unread := incoming.buffer }
    pieces := incoming.pieces }

/-- `async_read_until`. -/
def readUntil (s : Session) (delimiter : Bytes) : Session × Bool :=
  let (incoming, found) := Incoming.readUntil delimiter s.content.unread s.pieces
  (s.received incoming, found)

/-- `async_read` with `transfer_exactly(n)`. -/
def readExactly (s : Session) (n : Nat) : Session × Bool :=
  let (incoming, found) := Incoming.readExactly n s.content.unread s.pieces
  (s.received incoming, found)

/-- The `bytes_transferred` of a wait for `delimiter`. -/
def transferred (s : Session) (delimiter : Bytes) : Nat :=
  (Incoming.endOf delimiter s.content.unread).getD 0

/-- The wait of a handler for `n` bytes where `has` of them are in the buffer. -/
def fill (s : Session) (has n : Nat) : Session × Bool :=
  if has < n then s.readExactly (n - has) else (s, true)

/-- `read_chunked_transfer_encoded` as far as the length of the chunk, which comes
with the rest of `bytes_transferred` behind the line. -/
def readLength (ending : ErrorCode) (s : Session) : Session × Except End (Nat × Nat) :=
  let (s, found) := s.readUntil (lit "\r\n")
  if !found then (s, .error (.callback (some ending)))
  else
    let (content, line) := s.content.getline []
    let bytesTransferred := s.transferred (lit "\r\n") - (line.length + 1)
    let s := { s with content := content }
    -- `pop_back`
    if line = [] then (s, .error .undefined)
    else
      match stoulHex line.dropLast with
      | .error _ => (s, .error (.callback (some .protocolError)))
      | .ok length => (s, .ok (length, bytesTransferred))

/-- `read_chunked_transfer_encoded_chunk` up to the recursive call. Bytes of the
allocated room that were not read have no value. -/
def readChunk (s : Session) (chunks : Bytes) (length : Nat) : Except End (Session × Bytes) :=
  if 0 < length then
    if 2 ^ 63 ≤ length then .error .badAlloc
    else
      let (content, bytes) := s.content.read length
      if bytes.length < length then .error .undefined
      else .ok ({ s with content := content.get.get }, chunks ++ bytes)
  else .ok ({ s with content := s.content.get.get }, chunks)

/-- `read_chunked_transfer_encoded`. -/
def readChunked (ending : ErrorCode) : Nat → Session → Bytes → Session × End
  | 0, s, _ => (s, .endless)
  | fuel + 1, s, chunks =>
      match s.readLength ending with
      | (s, .error ended) => (s, ended)
      | (s, .ok (length, bytesTransferred)) =>
          let (s, found) :=
            s.fill (s.content.unread.length - bytesTransferred) ((2 + length) % 2 ^ 64)
          if !found then (s, .callback (some ending))
          else
            match s.readChunk chunks length with
            | .error ended => (s, ended)
            | .ok (s, chunks) =>
                if 0 < length then readChunked ending fuel s chunks
                else
                  ({ s with content := { s.content with
                    unread := s.content.unread ++ chunks } }, .callback none)

/-- What a session still has to read. -/
def total (s : Session) : Bytes := s.content.unread ++ s.pieces.flatten

/-- The handler of `read` behind the head. -/
def readBody (ending : ErrorCode) (s : Session) (numAdditionalBytes : Nat) : Session × End :=
  match findField s.response.header (lit "Content-Length") with
  | some value =>
      match stoul value 10 with
      | .error e => (s, .threw e)
      | .ok contentLength =>
          let (s, found) := s.fill numAdditionalBytes contentLength
          (s, .callback (if found then none else some ending))
  | none =>
      if findField s.response.header (lit "Transfer-Encoding") = some (lit "chunked") then
        s.readChunked ending (s.total.length + 1) []
      else if s.response.httpVersion < lit "1.1" ∨
          findField s.response.header (lit "Session") = some (lit "close") then
        ({ s with content := { s.content with unread := s.total }, pieces := [] },
          .callback (if ending = .eof then none else some ending))
      else (s, .callback none)

/-- `read`. `none` is the wait for the head that ended in `ending`. -/
def read (store : FieldStore) (ending : ErrorCode) (s : Session) : Session × Option End :=
  let (s, found) := s.readUntil (lit "\r\n\r\n")
  if !found then (s, none)
  else
    let numAdditionalBytes := s.content.unread.length - s.transferred (lit "\r\n\r\n")
    match ResponseMessage.parse store s.content with
    | .rejected => (s, some (.callback (some .protocolError)))
    | .endless => (s, some .endless)
    | .message response content =>
        let (s, ended) :=
          readBody ending { s with content := content, response := response } numAdditionalBytes
        (s, some ended)

end Session

end SimpleWeb
