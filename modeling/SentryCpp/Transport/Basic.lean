import SentryCpp.External.SimpleWeb
import SentryCpp.Foundation.RetryQueue

/-!
The transport: a queue of closures, one worker that runs them, and a state
that decides what the worker does with the queue. Each definition follows the
member function of the same name, one call at a time; how the calls of several
threads interleave is the subject of `SentryCpp.Transport.Worker`.

Readings of the system clock and the answers of the server are arguments. An
escaping exception is the `error` case. What is below the handler of `sendPost`
returns its result together with the transport, also when the result is an
exception: what was changed before the throw stays changed.

`History` is not data of the program. It records what the queue lock and the
network have seen, so that statements about whole runs can speak about it: the
bodies pushed by `sendEvent`, the POSTs made and the outcomes they had. The
number of a push also tags the closures made for it. No branch reads either.
-/

namespace Sentry

open StdString Number SimpleWeb

/-- Nanoseconds since the epoch of `std::chrono::system_clock`. -/
abbrev Time := Int

/-- `duration_cast<milliseconds>(d).count()`. -/
def durationMilliseconds (d : Int) : Int := d.tdiv 1000000

def reconnectionTimeoutMilliseconds : Nat := 10000

def millisecondsInSecond : Nat := 1000

structure SentryDSN where
  protocol : Bytes
  publicKey : Bytes
  secretKey : Bytes
  hostPath : Bytes
  projectID : Bytes
  baseURI : Bytes
  sentryEndpoint : Bytes
  sentryEndpointPath : Bytes
  deriving DecidableEq, Repr

namespace Transport

inductive State where
  | noConnection
  | sendEvents
  | dropEvents
  deriving DecidableEq, Repr

/-- A closure of the queue: the lambda of `sendEvent`, which calls
`sendPost(contents)`, or that of `sendEventRetry`, which calls
`sendPost(contents, header, true)`. -/
abbrev Task := RetryQueue.Job Bytes Header

/-- One POST as the client is asked to make it. -/
abbrev Post := RetryQueue.Attempt Bytes Header

structure History where
  pushed : List Bytes
  posts : List Post
  outcomes : List Outcome
  deriving DecidableEq, Repr

end Transport

structure Transport where
  lastConnectionRequestTime : Time
  retryAfterMilliseconds : UInt64
  lastRequestBeforeDroppingTime : Time
  tasks : List Transport.Task
  running : Bool
  shouldStop : Bool
  dsnStruct : SentryDSN
  httpClient : Option Client
  state : Transport.State
  history : Transport.History
  deriving DecidableEq, Repr

namespace Transport

/-- The constructor. It leaves `m_retryAfterMilliseconds` uninitialised. -/
def new (uninitialised : UInt64) : Transport where
  lastConnectionRequestTime := 0
  retryAfterMilliseconds := uninitialised
  lastRequestBeforeDroppingTime := 0
  tasks := []
  running := false
  shouldStop := false
  dsnStruct := ⟨[], [], [], [], [], [], [], []⟩
  httpClient := none
  state := .noConnection
  history := ⟨[], [], []⟩

/-- The client's constructor is `noexcept`: a port that is no number ends the
process, here `none`. -/
def setupClient (t : Transport) (dsn : SentryDSN) : Option Transport :=
  match parseHostPort dsn.hostPath 80 with
  | .ok (host, port) => some { t with dsnStruct := dsn, httpClient := some ⟨host, port⟩ }
  | .error _ => none

def changeState (t : Transport) (newState : State) : Transport :=
  { t with state := newState }

/-- The locked push of `addActionToQueue`. -/
def push (t : Transport) (actionToEnqueue : Task) : Transport :=
  { t with
    tasks := t.tasks ++ [actionToEnqueue]
    history := match actionToEnqueue with
      | .first _ contents => { t.history with pushed := t.history.pushed ++ [contents] }
      | .retry .. => t.history }

def addActionToQueue (t : Transport) (actionToEnqueue : Task) : Transport :=
  if !t.shouldStop then t.push actionToEnqueue else t

def sendEvent (t : Transport) (contents : Bytes) : Transport :=
  t.addActionToQueue (.first t.history.pushed.length contents)

def sendEventRetry (t : Transport) (event : Nat) (contents : Bytes) (header : Header) :
    Transport :=
  t.addActionToQueue (.retry event contents header)

def reconnectTimeoutReached (t : Transport) (now : Time) : Bool :=
  decide ((reconnectionTimeoutMilliseconds : Int) ≤
    durationMilliseconds (now - t.lastConnectionRequestTime))

def performNoConnection (t : Transport) (now : Time) : Transport :=
  if t.reconnectTimeoutReached now then t.changeState .sendEvents else t

/-- The elapsed milliseconds are cast to `uint64_t` before the comparison. -/
def droppingEventsTimeoutReached (t : Transport) (now : Time) : Bool :=
  decide (t.retryAfterMilliseconds ≤
    UInt64.ofInt (durationMilliseconds (now - t.lastRequestBeforeDroppingTime)))

/-- Defined in the source and called by nothing. -/
def performDropEvents (t : Transport) (now : Time) : Transport :=
  if t.droppingEventsTimeoutReached now then t.changeState .sendEvents else t

def sentryVersion : Nat := 7

def clientVersion : Bytes := lit "sentry_cpp/0.1"

/-- The fields are in the order of the calls of `emplace`. -/
def createHeader (t : Transport) (now : Time) : Header :=
  let timestamp := printInt (now.tdiv 1000000000)
  let secret :=
    if t.dsnStruct.secretKey ≠ [] then
      lit ", " ++ lit "sentry_secret=" ++ t.dsnStruct.secretKey
    else []
  let headerInfo :=
    lit "Sentry " ++ lit "sentry_version=" ++ print 10 sentryVersion ++ lit ", " ++
      lit "sentry_client=" ++ clientVersion ++ lit ", " ++
      lit "sentry_timestamp=" ++ timestamp ++ lit ", " ++
      lit "sentry_key=" ++ t.dsnStruct.publicKey ++ secret
  [(lit "X-Sentry-Auth", headerInfo), (lit "Content-Type", lit "application/json"),
    (lit "User-Agent", clientVersion)]

/-- The loop of `handleTooManyRequests` over the fields of the answer, with what
`m_retryAfterMilliseconds` holds at its end. -/
def retryAfterOf : UInt64 → Header → Except StdError Unit × UInt64
  | wait, [] => (.ok (), wait)
  | wait, h :: fields =>
      if h.1 = lit "Retry-After" then
        match stoul h.2 10 with
        | .ok seconds => retryAfterOf (UInt64.ofNat (seconds * millisecondsInSecond)) fields
        | .error e => (.error e, wait)
      else retryAfterOf wait fields

def handleTooManyRequests (t : Transport) (errorResponse : Response) :
    Except Thrown Unit × Transport :=
  match retryAfterOf (UInt64.ofNat reconnectionTimeoutMilliseconds) errorResponse.header with
  | (.ok (), wait) => (.ok (), { t with retryAfterMilliseconds := wait }.changeState .dropEvents)
  | (.error e, wait) => (.error (.std e), { t with retryAfterMilliseconds := wait })

def checkResponse (t : Transport) (response : Response) : Except Thrown Bool × Transport :=
  if SimpleWeb.statusCode response.statusCode = .successOk then (.ok true, t)
  else if SimpleWeb.statusCode response.statusCode = .clientErrorTooManyRequests then
    match t.handleTooManyRequests response with
    | (.ok (), t) => (.ok true, t)
    | (.error thrown, t) => (.error thrown, t)
  else (.ok false, t)

/-- The client makes the POST. -/
def recordPost (t : Transport) (post : Post) : Transport :=
  { t with history := { t.history with posts := t.history.posts ++ [post] } }

/-- The POST in flight has the outcome `outcome`. -/
def recordOutcome (t : Transport) (outcome : Outcome) : Transport :=
  { t with history := { t.history with outcomes := t.history.outcomes ++ [outcome] } }

/-- The first two statements of the `try` block of `sendPost`, once the POST
has its outcome. -/
def exchange (t : Transport) (outcome : Outcome) : Except Thrown Bool × Transport :=
  match request outcome with
  | .ok response => t.checkResponse response
  | .error thrown => (.error thrown, t)

/-- The handler of `sendPost` for `SimpleWeb::system_error`. -/
def connectionLost (t : Transport) (now : Time) : Transport :=
  { t.changeState .noConnection with lastConnectionRequestTime := now }

/-- `sendPost(content, header, isRetrying)`; `now` is the clock in the
handler, which takes `system_error` and nothing else. -/
def sendPost (t : Transport) (post : Post) (outcome : Outcome) (now : Time) :
    Except Thrown Transport :=
  match ((t.recordPost post).recordOutcome outcome).exchange outcome with
  | (.ok ok, t) =>
      if !ok && !post.isRetrying then .ok (t.sendEventRetry post.event post.content post.header)
      else .ok t
  | (.error thrown, t) =>
      if thrown = .systemError then .ok (t.connectionLost now) else .error thrown

/-- The clock readings of one call of `perform`: `now` in the dispatch or in
`createHeader`, `failed` in the handler of `sendPost`. -/
structure Readings where
  now : Time
  failed : Time

/-- `sendPost(content)`. Without a client it returns at once. -/
def sendPostContent (t : Transport) (event : Nat) (content : Bytes) (clock : Readings)
    (outcome : Outcome) : Except Thrown Transport :=
  match t.httpClient with
  | none => .ok t
  | some _ =>
      t.sendPost ⟨event, false, content, t.createHeader clock.now⟩ outcome clock.failed

/-- `funcToExecute()`. -/
def runTask (t : Transport) (task : Task) (clock : Readings) (outcome : Outcome) :
    Except Thrown Transport :=
  match task with
  | .first event contents => t.sendPostContent event contents clock outcome
  | .retry event contents header =>
      t.sendPost ⟨event, true, contents, header⟩ outcome clock.failed

def performSendEvents (t : Transport) (clock : Readings) (outcome : Outcome) :
    Except Thrown Transport :=
  match t.tasks with
  | [] => .ok t
  | front :: rest => { t with tasks := rest }.runTask front clock outcome

def perform (t : Transport) (clock : Readings) (outcome : Outcome) :
    Except Thrown Transport :=
  match t.state with
  | .noConnection => .ok (t.performNoConnection clock.now)
  | .sendEvents => t.performSendEvents clock outcome
  | .dropEvents => .ok t

end Transport

end Sentry
