import SentryCpp.Hub.Api
import SentryCpp.Hub.Payload

/-!
The handlers that a successful `init` installs, up to their call of
`closeHttpConnection`: the one for `std::terminate` and the one for seven
signals. Each of them reports an event of its own. When the report throws, the
handler is left by the exception and closes nothing.
-/

namespace Sentry

open StdString

/-- The signals of `installHandler`. -/
inductive Signal where
  | int
  | term
  | segv
  | abrt
  | bus
  | fpe
  | ill
  deriving DecidableEq, Repr

namespace Signal

def all : List Signal := [.int, .term, .segv, .abrt, .bus, .fpe, .ill]

/-- `sys_siglist` of the GNU C library. -/
def name : Signal → Bytes
  | .int => lit "Interrupt"
  | .term => lit "Terminated"
  | .segv => lit "Segmentation fault"
  | .abrt => lit "Aborted"
  | .bus => lit "Bus error"
  | .fpe => lit "Floating point exception"
  | .ill => lit "Illegal instruction"

end Signal

/-- What a handler takes from its surroundings. Without frames
`getStacktraceJSON` has not returned. -/
structure Circumstances where
  frames : Option Json
  uuid : Uuid
  clock : Clock

/-- `std::current_exception()`, with the type and the text of a
`std::exception`. -/
inductive CurrentException where
  | none
  | std (typeName what : Bytes)
  | other

def exceptionInterface (context currentAttributes : List (Bytes × Json)) : Json :=
  .object (Json.insertOrAssign (lit "exception") (.object currentAttributes) context)

/-- The event of `captureException`. -/
def exceptionEvent (typeName what : Bytes) (context : List (Bytes × Json)) (handled : Bool)
    (frames : Json) : Json :=
  exceptionInterface context
    [(lit "handled", .boolean handled), (lit "stacktrace", .object [(lit "frames", frames)]),
      (lit "type", .string typeName), (lit "value", .string what)]

/-- The event of `terminationHandler`. -/
def terminationEvent (typeName what : Bytes) (frames : Json) : Json :=
  exceptionEvent typeName what [(lit "logger", .string (lit "termination_handler"))] false frames

/-- The event of `signalsHandler`. -/
def signalEvent (sigName : Bytes) (frames : Json) : Json :=
  exceptionInterface [(lit "logger", .string (lit "signals_handler"))]
    [(lit "stacktrace", .object [(lit "frames", frames)]), (lit "type", .string sigName)]

variable (p : Platform)

namespace Hub

/-- The report of an event that is made from the frames: whether it returns,
and the hub. -/
def report (h : Hub) (event : Json → Json) (c : Circumstances) : Bool × Hub :=
  match c.frames with
  | none => (false, h)
  | some frames =>
      let (result, h) := h.captureEvent p (event frames) c.uuid c.clock
      (result.isOk, h)

/-- The handler has no `catch` for what is no `std::exception`. -/
def terminationReport (h : Hub) (current : CurrentException) (c : Circumstances) : Bool × Hub :=
  match current with
  | .none => (true, h)
  | .std typeName what => h.report p (terminationEvent typeName what) c
  | .other => (false, h)

def signalReport (h : Hub) (sig : Signal) (c : Circumstances) : Bool × Hub :=
  h.report p (signalEvent sig.name) c

/-- The report returns: there are frames, and `captureEvent` can dump the
event. -/
def reports (h : Hub) (event : Json → Json) (c : Circumstances) : Bool :=
  c.frames.any fun frames => h.returns p ⟨event frames, c.uuid, c.clock⟩

/-- Without an exception there is nothing to report. -/
def terminationReports (h : Hub) (current : CurrentException) (c : Circumstances) : Bool :=
  match current with
  | .none => true
  | .std typeName what => h.reports p (terminationEvent typeName what) c
  | .other => false

def signalReports (h : Hub) (sig : Signal) (c : Circumstances) : Bool :=
  h.reports p (signalEvent sig.name) c

end Hub

theorem report_fst (h : Hub) (event : Json → Json) (c : Circumstances) :
    (h.report p event c).1 = h.reports p event c := by
  unfold Hub.report Hub.reports
  cases c.frames with
  | none => rfl
  | some frames => exact captureEvent_isOk p h ⟨event frames, c.uuid, c.clock⟩

theorem stopped_report (h : Hub) (event : Json → Json) (c : Circumstances) :
    (h.report p event c).2.stopped = h.stopped := by
  unfold Hub.report
  cases c.frames with
  | none => rfl
  | some frames => exact stopped_captureEvent p h ⟨event frames, c.uuid, c.clock⟩

theorem stopped_terminationReport (h : Hub) (current : CurrentException) (c : Circumstances) :
    (h.terminationReport p current c).2.stopped = h.stopped := by
  cases current with
  | none | other => rfl
  | std typeName what => exact stopped_report p h _ c

theorem terminationReport_fst (h : Hub) (current : CurrentException) (c : Circumstances) :
    (h.terminationReport p current c).1 = h.terminationReports p current c := by
  cases current with
  | none | other => rfl
  | std typeName what => exact report_fst p h _ c

end Sentry
