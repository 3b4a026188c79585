import SentryCpp.Foundation.Number

/-!
The parts of the vendored HTTP client that the transport relies on: the table
of status lines, header fields with case-insensitive names, the split of a
`host:port` string, and what `request` hands back to its caller.

The network itself is an `Outcome`. The exchange ends in an error code, or the
head of a response arrives and then a body, which may be one that the loop over
its chunks is not prepared for. `request` turns an error code into
`system_error`. It converts the value of a `Content-Length` field before it
reads the body, and takes the room for a chunk as its line says; both are
outside of any handler.
-/

namespace SimpleWeb

open StdString Number

inductive StatusCode where
  | unknown
  | informationContinue
  | informationSwitchingProtocols
  | informationProcessing
  | successOk
  | successCreated
  | successAccepted
  | successNonAuthoritativeInformation
  | successNoContent
  | successResetContent
  | successPartialContent
  | successMultiStatus
  | successAlreadyReported
  | successImUsed
  | redirectionMultipleChoices
  | redirectionMovedPermanently
  | redirectionFound
  | redirectionSeeOther
  | redirectionNotModified
  | redirectionUseProxy
  | redirectionSwitchProxy
  | redirectionTemporaryRedirect
  | redirectionPermanentRedirect
  | clientErrorBadRequest
  | clientErrorUnauthorized
  | clientErrorPaymentRequired
  | clientErrorForbidden
  | clientErrorNotFound
  | clientErrorMethodNotAllowed
  | clientErrorNotAcceptable
  | clientErrorProxyAuthenticationRequired
  | clientErrorRequestTimeout
  | clientErrorConflict
  | clientErrorGone
  | clientErrorLengthRequired
  | clientErrorPreconditionFailed
  | clientErrorPayloadTooLarge
  | clientErrorUriTooLong
  | clientErrorUnsupportedMediaType
  | clientErrorRangeNotSatisfiable
  | clientErrorExpectationFailed
  | clientErrorImATeapot
  | clientErrorMisdirectionRequired
  | clientErrorUnprocessableEntity
  | clientErrorLocked
  | clientErrorFailedDependency
  | clientErrorUpgradeRequired
  | clientErrorPreconditionRequired
  | clientErrorTooManyRequests
  | clientErrorRequestHeaderFieldsTooLarge
  | clientErrorUnavailableForLegalReasons
  | serverErrorInternalServerError
  | serverErrorNotImplemented
  | serverErrorBadGateway
  | serverErrorServiceUnavailable
  | serverErrorGatewayTimeout
  | serverErrorHttpVersionNotSupported
  | serverErrorVariantAlsoNegotiates
  | serverErrorInsufficientStorage
  | serverErrorLoopDetected
  | serverErrorNotExtended
  | serverErrorNetworkAuthenticationRequired
  deriving DecidableEq, Repr

def statusCodeStrings : List (StatusCode × Bytes) := [
  (.unknown, lit ""),
  (.informationContinue, lit "100 Continue"),
  (.informationSwitchingProtocols, lit "101 Switching Protocols"),
  (.informationProcessing, lit "102 Processing"),
  (.successOk, lit "200 OK"),
  (.successCreated, lit "201 Created"),
  (.successAccepted, lit "202 Accepted"),
  (.successNonAuthoritativeInformation, lit "203 Non-Authoritative Information"),
  (.successNoContent, lit "204 No Content"),
  (.successResetContent, lit "205 Reset Content"),
  (.successPartialContent, lit "206 Partial Content"),
  (.successMultiStatus, lit "207 Multi-Status"),
  (.successAlreadyReported, lit "208 Already Reported"),
  (.successImUsed, lit "226 IM Used"),
  (.redirectionMultipleChoices, lit "300 Multiple Choices"),
  (.redirectionMovedPermanently, lit "301 Moved Permanently"),
  (.redirectionFound, lit "302 Found"),
  (.redirectionSeeOther, lit "303 See Other"),
  (.redirectionNotModified, lit "304 Not Modified"),
  (.redirectionUseProxy, lit "305 Use Proxy"),
  (.redirectionSwitchProxy, lit "306 Switch Proxy"),
  (.redirectionTemporaryRedirect, lit "307 Temporary Redirect"),
  (.redirectionPermanentRedirect, lit "308 Permanent Redirect"),
  (.clientErrorBadRequest, lit "400 Bad Request"),
  (.clientErrorUnauthorized, lit "401 Unauthorized"),
  (.clientErrorPaymentRequired, lit "402 Payment Required"),
  (.clientErrorForbidden, lit "403 Forbidden"),
  (.clientErrorNotFound, lit "404 Not Found"),
  (.clientErrorMethodNotAllowed, lit "405 Method Not Allowed"),
  (.clientErrorNotAcceptable, lit "406 Not Acceptable"),
  (.clientErrorProxyAuthenticationRequired, lit "407 Proxy Authentication Required"),
  (.clientErrorRequestTimeout, lit "408 Request Timeout"),
  (.clientErrorConflict, lit "409 Conflict"),
  (.clientErrorGone, lit "410 Gone"),
  (.clientErrorLengthRequired, lit "411 Length Required"),
  (.clientErrorPreconditionFailed, lit "412 Precondition Failed"),
  (.clientErrorPayloadTooLarge, lit "413 Payload Too Large"),
  (.clientErrorUriTooLong, lit "414 URI Too Long"),
  (.clientErrorUnsupportedMediaType, lit "415 Unsupported Media Type"),
  (.clientErrorRangeNotSatisfiable, lit "416 Range Not Satisfiable"),
  (.clientErrorExpectationFailed, lit "417 Expectation Failed"),
  (.clientErrorImATeapot, lit "418 I'm a teapot"),
  (.clientErrorMisdirectionRequired, lit "421 Misdirected Request"),
  (.clientErrorUnprocessableEntity, lit "422 Unprocessable Entity"),
  (.clientErrorLocked, lit "423 Locked"),
  (.clientErrorFailedDependency, lit "424 Failed Dependency"),
  (.clientErrorUpgradeRequired, lit "426 Upgrade Required"),
  (.clientErrorPreconditionRequired, lit "428 Precondition Required"),
  (.clientErrorTooManyRequests, lit "429 Too Many Requests"),
  (.clientErrorRequestHeaderFieldsTooLarge, lit "431 Request Header Fields Too Large"),
  (.clientErrorUnavailableForLegalReasons, lit "451 Unavailable For Legal Reasons"),
  (.serverErrorInternalServerError, lit "500 Internal Server Error"),
  (.serverErrorNotImplemented, lit "501 Not Implemented"),
  (.serverErrorBadGateway, lit "502 Bad Gateway"),
  (.serverErrorServiceUnavailable, lit "503 Service Unavailable"),
  (.serverErrorGatewayTimeout, lit "504 Gateway Timeout"),
  (.serverErrorHttpVersionNotSupported, lit "505 HTTP Version Not Supported"),
  (.serverErrorVariantAlsoNegotiates, lit "506 Variant Also Negotiates"),
  (.serverErrorInsufficientStorage, lit "507 Insufficient Storage"),
  (.serverErrorLoopDetected, lit "508 Loop Detected"),
  (.serverErrorNotExtended, lit "510 Not Extended"),
  (.serverErrorNetworkAuthenticationRequired, lit "511 Network Authentication Required")]

/-- `status_code(const std::string&)`: the code whose full line is `line`. -/
def statusCode (line : Bytes) : StatusCode :=
  match statusCodeStrings.find? fun entry => entry.2 = line with
  | some entry => entry.1
  | none => .unknown

/-- The fields of a `CaseInsensitiveMultimap`: in the order of its iteration
where they were parsed, in that of the calls of `emplace` where the program has
put them there. -/
abbrev Header := List (Bytes × Bytes)

def tolower (c : Byte) : Byte := if 65 ≤ c ∧ c ≤ 90 then c + 32 else c

def caseInsensitiveEqual (str1 str2 : Bytes) : Bool :=
  str1.map tolower == str2.map tolower

/-- `header.find(name)`, as the value of the field found. -/
def findField (header : Header) (name : Bytes) : Option Bytes :=
  (header.find? fun field => caseInsensitiveEqual field.1 name).map Prod.snd

structure Response where
  httpVersion : Bytes
  statusCode : Bytes
  header : Header
  deriving DecidableEq, Repr

/-- What the loop over the chunks of a body has no handler for: no room can be had
for a chunk, or the line of its length is empty. -/
inductive ChunkFault where
  | badAlloc
  | undefined
  deriving DecidableEq, Repr

/-- What the network makes of one request. A fault is that of the loop over the
chunks in what follows the head. -/
inductive Outcome where
  | response (response : Response)
  | chunkFault (response : Response) (fault : ChunkFault)
  | errorCode
  deriving DecidableEq, Repr

/-- How a call of the client ends without a response: with an exception, or
outside of what the language defines. -/
inductive Thrown where
  | systemError
  | std (error : StdError)
  | badAlloc
  | undefined
  deriving DecidableEq, Repr

def ChunkFault.thrown : ChunkFault → Thrown
  | .badAlloc => .badAlloc
  | .undefined => .undefined

structure Client where
  host : Bytes
  port : Nat
  deriving DecidableEq, Repr

/-- `ClientBase::parse_host_port`. The number is narrowed to
`unsigned short`. -/
def parseHostPort (hostPort : Bytes) (defaultPort : Nat) :
    Except StdError (Bytes × Nat) :=
  let hostEnd := find hostPort 58
  if hostEnd = npos then .ok (hostPort, defaultPort)
  else do
    let host ← substr hostPort 0 hostEnd
    let port ← stoul (← substr hostPort (sizeAdd hostEnd 1) npos) 10
    return (host, port % 2 ^ 16)

/-- The body comes in chunks. A `Content-Length` has precedence. -/
def chunked (header : Header) : Bool :=
  (findField header (lit "Content-Length")).isNone &&
    findField header (lit "Transfer-Encoding") = some (lit "chunked")

/-- `read` behind the head: it converts `Content-Length`. -/
def readResponse (response : Response) : Except Thrown Response :=
  match findField response.header (lit "Content-Length") with
  | none => .ok response
  | some value =>
      match stoul value 10 with
      | .ok _ => .ok response
      | .error e => .error (.std e)

/-- The synchronous `ClientBase::request`: the caller rethrows an error code as
`system_error`, and what the handlers of `read` throw leaves `io_service->run()`
as it is. -/
def request (outcome : Outcome) : Except Thrown Response :=
  match outcome with
  | .errorCode => .error .systemError
  | .response response => readResponse response
  | .chunkFault response fault =>
      if chunked response.header then .error fault.thrown else readResponse response

/-- The header block has no `Content-Length` that is not a number. -/
def contentLengthOk (header : Header) : Bool :=
  match findField header (lit "Content-Length") with
  | none => true
  | some value => (stoul value 10).isOk

/-- The head that has come. -/
def Outcome.head : Outcome → Option Response
  | .response r | .chunkFault r _ => some r
  | .errorCode => none

/-- The loop over the chunks comes to its fault. -/
def Outcome.faulty : Outcome → Bool
  | .chunkFault r _ => chunked r.header
  | .response _ | .errorCode => false

/-- What has come makes `request` end in another way than with a response or a
`system_error`. -/
def Outcome.unreadable (outcome : Outcome) : Bool :=
  outcome.faulty || outcome.head.any fun r => !contentLengthOk r.header

theorem readResponse_cases (response : Response) :
    (contentLengthOk response.header = true ∧ readResponse response = .ok response) ∨
    (contentLengthOk response.header = false ∧
      ∃ e, readResponse response = .error (.std e)) := by
  cases hfind : findField response.header (lit "Content-Length") with
  | none => exact Or.inl ⟨by simp [contentLengthOk, hfind], by simp [readResponse, hfind]⟩
  | some value =>
      cases hstoul : stoul value 10 with
      | ok n =>
          exact Or.inl ⟨by simp [contentLengthOk, hfind, hstoul, Except.isOk, Except.toBool],
            by simp [readResponse, hfind, hstoul]⟩
      | error e =>
          exact Or.inr ⟨by simp [contentLengthOk, hfind, hstoul, Except.isOk, Except.toBool],
            e, by simp [readResponse, hfind, hstoul]⟩

theorem request_cases (outcome : Outcome) :
    (outcome = .errorCode ∧ request outcome = .error .systemError) ∨
    (∃ r, outcome.head = some r ∧ outcome.unreadable = false ∧ request outcome = .ok r) ∨
    (∃ r e, outcome.head = some r ∧ outcome.unreadable = true ∧ e ≠ .systemError ∧
      request outcome = .error e) := by
  cases outcome with
  | errorCode => exact Or.inl ⟨rfl, rfl⟩
  | response r =>
      refine Or.inr ?_
      rcases readResponse_cases r with ⟨hlength, hread⟩ | ⟨hlength, e, hread⟩
      · exact Or.inl ⟨r, rfl, by simp [Outcome.unreadable, Outcome.faulty, Outcome.head, hlength],
          hread⟩
      · exact Or.inr ⟨r, .std e, rfl, by simp [Outcome.unreadable, Outcome.head, hlength],
          by simp, hread⟩
  | chunkFault r fault =>
      refine Or.inr ?_
      cases hchunked : chunked r.header with
      | true =>
          exact Or.inr ⟨r, fault.thrown, rfl, by simp [Outcome.unreadable, Outcome.faulty, hchunked],
            by cases fault <;> simp [ChunkFault.thrown], by simp [request, hchunked]⟩
      | false =>
          have hrequest : request (.chunkFault r fault) = readResponse r := by
            simp [request, hchunked]
          rw [hrequest]
          rcases readResponse_cases r with ⟨hlength, hread⟩ | ⟨hlength, e, hread⟩
          · exact Or.inl ⟨r, rfl,
              by simp [Outcome.unreadable, Outcome.faulty, Outcome.head, hlength, hchunked], hread⟩
          · exact Or.inr ⟨r, .std e, rfl, by simp [Outcome.unreadable, Outcome.head, hlength],
              by simp, hread⟩

end SimpleWeb
