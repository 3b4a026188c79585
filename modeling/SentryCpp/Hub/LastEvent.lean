import SentryCpp.Hub.Handlers
import SentryCpp.Hub.Trail

/-!
The id that `lastEventId` returns. The hub stores the id of an event before it
knows what becomes of the event, so after an event that was dropped, or that
threw, `lastEventId` names an event that was never reported. It names the last
event reported in every state of a run if and only if each event of the run
gets through, or has by chance the id that is there already
(`lastEventId_reported_iff`).
-/

namespace Sentry

open StdString

/-- The attributes that `captureException` sets. -/
def exceptionAttributes (typeName what : Bytes) (handled : Bool) (frames : Json) : Json :=
  .object [(lit "handled", .boolean handled), (lit "stacktrace", .object [(lit "frames", frames)]),
    (lit "type", .string typeName), (lit "value", .string what)]

variable (p : Platform)

/-- The event of `captureException`, unless the function is left before: by
`getStacktraceJSON`, or by `operator[]` on a context that is no object. -/
def thrownEvent (typeName what : Bytes) (context : Json) (handled : Bool)
    (c : Circumstances) : Option Json :=
  c.frames.bind fun frames =>
    (context.assign (lit "exception") (exceptionAttributes typeName what handled frames)).toOption

/-- Without a result an exception has left the function. -/
def Hub.captureException (h : Hub) (typeName what : Bytes) (context : Json) (handled : Bool)
    (c : Circumstances) : Option Bytes × Hub :=
  match thrownEvent typeName what context handled c with
  | none => (none, h)
  | some event =>
      let (result, h) := h.captureEvent p event c.uuid c.clock
      (result.toOption, h)

/-- A call of the program, or the report of an exception, for which the first
`init` has installed the handler. -/
inductive ReportingCall where
  | publicCall (call : PublicCall)
  | captureException (typeName what : Bytes) (context : Json) (handled : Bool) (c : Circumstances)

namespace ReportingCall

/-- The call of `captureEvent` that is made. -/
def captured (h : Hub) : ReportingCall → Option Call
  | .publicCall (.init ..) => none
  | .publicCall (.request (.captureEvent c)) => if h.initialised then some c else none
  | .publicCall (.request (.log level message uuid clock)) =>
      if h.initialised ∧ Api.isReported level then
        some ⟨Api.logEvent level message, uuid, clock⟩
      else none
  | .publicCall (.request _) => none
  | .captureException typeName what context handled c =>
      if h.initialised then
        (thrownEvent typeName what context handled c).map fun event =>
          ⟨event, c.uuid, c.clock⟩
      else none

/-- The hub after the call, unless the process has ended. -/
def exec (h : Hub) : ReportingCall → Option Hub
  | .publicCall call => publicStep p h call
  | .captureException typeName what context handled c =>
      if h.initialised then some (h.captureException p typeName what context handled c).2
      else none

end ReportingCall

/-- A hub, and the id returned by the last `captureEvent` that returned one. -/
structure Reporter where
  hub : Hub
  reported : Bytes

namespace Reporter

def new (userLogin hostName : Option Bytes) : Reporter := ⟨Hub.new userLogin hostName, []⟩

/-- The last id, when `captureEvent` has returned `eventId`. -/
def keepId (reported : Bytes) (eventId : Except Json.TypeError Bytes) : Bytes :=
  match eventId with
  | .ok eventId => if eventId = [] then reported else eventId
  | .error _ => reported

def step (r : Reporter) (call : ReportingCall) : Option Reporter :=
  (call.exec p r.hub).map fun h =>
    { hub := h
      reported :=
        match call.captured r.hub with
        | some c => keepId r.reported (r.hub.captureEvent p c.event c.uuid c.clock).1
        | none => r.reported }

end Reporter

/-- `terminationHandler` reports through `captureException`. -/
theorem report_terminationEvent (h : Hub) (typeName what : Bytes) (c : Circumstances) :
    h.report p (terminationEvent typeName what) c =
      ((h.captureException p typeName what
        (.object [(lit "logger", .string (lit "termination_handler"))]) false c).1.isSome,
      (h.captureException p typeName what
        (.object [(lit "logger", .string (lit "termination_handler"))]) false c).2) := by
  unfold Hub.report Hub.captureException thrownEvent
  cases c.frames with
  | none => rfl
  | some frames =>
      change ((h.captureEvent p (terminationEvent typeName what frames) c.uuid c.clock).1.isOk, _) =
        ((h.captureEvent p (terminationEvent typeName what frames) c.uuid
          c.clock).1.toOption.isSome, _)
      cases (h.captureEvent p (terminationEvent typeName what frames) c.uuid c.clock).1 <;> rfl

/-- The id is stored whatever becomes of the event. -/
theorem lastEventId_captureEvent (h : Hub) (c : Call) :
    (h.captureEvent p c.event c.uuid c.clock).2.lastEventId = Hub.generateUuid c.uuid := by
  rcases captureEvent_emits_cases p h c with ⟨-, result, -, hcapture⟩ | ⟨-, contents, -, hcapture⟩
  · rw [hcapture, Hub.entered]
  · rw [hcapture, sendSampled_eq]
    rfl

/-- The id is returned if the event gets through. -/
theorem keepId_captureEvent (reported : Bytes) (h : Hub) (c : Call) :
    Reporter.keepId reported (h.captureEvent p c.event c.uuid c.clock).1 =
      if h.emits p c then Hub.generateUuid c.uuid else reported := by
  rcases captureEvent_emits_cases p h c with
    ⟨hnot, result, hresult, hcapture⟩ | ⟨hemits, contents, -, hcapture⟩
  · rw [hcapture, hnot]
    rcases hresult with rfl | ⟨e, rfl⟩ <;> rfl
  · rw [hcapture, hemits]
    exact if_neg (generateUuid_ne_nil c.uuid)

theorem lastEventId_setOptions (h : Hub) (initParameters : SentryOptions) :
    (Api.setOptions h initParameters).lastEventId = h.lastEventId := by
  have htag (h : Hub) (key value : Bytes) : (h.setTag key value).lastEventId = h.lastEventId := by
    rw [setTag_eq]
  unfold Api.setOptions
  split <;> split <;> simp [htag]

/-- What a call does to the hub, as far as the ids go: it captures an event,
or it leaves the last id alone. -/
theorem exec_cases {h h' : Hub} {call : ReportingCall} (hexec : call.exec p h = some h') :
    (∃ c, call.captured h = some c ∧ h.initialised = true ∧
      h' = (h.captureEvent p c.event c.uuid c.clock).2) ∨
    (call.captured h = none ∧ h'.lastEventId = h.lastEventId ∧
      (h.initialised = true → h'.initialised = true)) := by
  cases call with
  | captureException typeName what context handled c =>
      simp only [ReportingCall.exec] at hexec
      split at hexec
      · rename_i hin
        cases hexec
        simp only [ReportingCall.captured, if_pos hin, Hub.captureException]
        cases hevent : thrownEvent typeName what context handled c with
        | none => exact Or.inr ⟨rfl, rfl, id⟩
        | some event => exact Or.inl ⟨_, rfl, hin, rfl⟩
      · cases hexec
  | publicCall call =>
      cases call with
      | init initParameters dsnEnv uninitialised =>
          refine Or.inr ⟨rfl, ?_⟩
          obtain ⟨⟨errorCode, after⟩, hinit, rfl⟩ := Option.map_eq_some_iff.mp hexec
          rcases init_cases hinit with ⟨-, -, rfl⟩ | ⟨-, -, rfl⟩ | ⟨-, -, t, -, rfl⟩
          · exact ⟨rfl, id⟩
          · exact ⟨rfl, id⟩
          · obtain ⟨hin, -⟩ := setOptions_scope
              { h.configured initParameters with httpClient := some t, initialised := true }
              initParameters
            exact ⟨lastEventId_setOptions _ initParameters, fun _ => hin⟩
      | request request =>
          cases hexec
          generalize hserve : Api.serve p h request = after
          cases Api.served_of_serve p hserve with
          | refused _ hnot =>
              refine Or.inr ⟨?_, rfl, id⟩
              cases request <;> simp [ReportingCall.captured, hnot]
          | captureEvent c hin =>
              exact Or.inl ⟨c, by simp [ReportingCall.captured, hin], hin, rfl⟩
          | addBreadcrumb | setExtra => exact Or.inr ⟨rfl, rfl, id⟩
          | setTag key value =>
              rw [setTag_eq]
              exact Or.inr ⟨rfl, rfl, id⟩
          | reported level message uuid clock hin hlevel =>
              refine Or.inl ⟨⟨Api.logEvent level message, uuid, clock⟩, ?_, hin, rfl⟩
              simp [ReportingCall.captured, hin, hlevel]
          | logged level message uuid clock hin hlevel =>
              refine Or.inr ⟨?_, rfl, id⟩
              simp [ReportingCall.captured, hlevel]

/-- Only `init` can end the process, and it captures nothing. -/
theorem captured_of_exec_eq_none {h : Hub} {call : ReportingCall} (hexec : call.exec p h = none) :
    call.captured h = none := by
  cases call with
  | captureException typeName what context handled c =>
      simp only [ReportingCall.exec] at hexec
      split at hexec
      · cases hexec
      · rename_i hnot
        rw [ReportingCall.captured, if_neg hnot]
  | publicCall call =>
      cases call with
      | init => rfl
      | request => cases hexec

namespace Reporter

/-- Before `init` there are no ids. -/
def Quiet (r : Reporter) : Prop :=
  r.hub.initialised = false → r.hub.lastEventId = [] ∧ r.reported = []

/-- The function `lastEventId` names the last event reported. -/
def Named (r : Reporter) : Prop := Api.lastEventId r.hub = r.reported

/-- If the call captures an event, then the event gets through, or it has the
last id by chance. -/
def Accounted (r : Reporter) (call : ReportingCall) : Prop :=
  ∀ c, call.captured r.hub = some c →
    r.hub.emits p c = true ∨ Hub.generateUuid c.uuid = Api.lastEventId r.hub

theorem named_iff {r : Reporter} (hin : r.hub.initialised = true) :
    r.Named ↔ r.hub.lastEventId = r.reported := by
  rw [Named, Api.lastEventId, if_neg (by simp [Hub.isInitialised, hin])]

theorem Quiet.step {r r' : Reporter} (h : r.Quiet) {call : ReportingCall}
    (hstep : r.step p call = some r') : r'.Quiet := by
  obtain ⟨after, hexec, rfl⟩ := Option.map_eq_some_iff.mp hstep
  intro hnot
  rcases exec_cases p hexec with ⟨c, -, hin, rfl⟩ | ⟨hnone, hid, hin⟩
  · rw [initialised_captureEvent, hin] at hnot
    cases hnot
  · have hbefore : r.hub.initialised = false := by
      rw [← Bool.not_eq_true]
      intro hbefore
      rw [hin hbefore] at hnot
      cases hnot
    rw [hnone]
    exact ⟨hid.trans (h hbefore).1, (h hbefore).2⟩

/-- The step lemma. -/
theorem named_step_iff {r r' : Reporter} (hquiet : r.Quiet) (hnamed : r.Named)
    {call : ReportingCall} (hstep : r.step p call = some r') :
    r'.Named ↔ r.Accounted p call := by
  obtain ⟨after, hexec, rfl⟩ := Option.map_eq_some_iff.mp hstep
  rcases exec_cases p hexec with ⟨c, hc, hin, rfl⟩ | ⟨hnone, hid, hin⟩
  · have hafter := (initialised_captureEvent p r.hub c).trans hin
    rw [named_iff hafter, Accounted, hc, hnamed]
    simp only [lastEventId_captureEvent, keepId_captureEvent, Option.some.injEq, forall_eq']
    cases r.hub.emits p c with
    | true => simp
    | false => simp
  · rw [hnone]
    refine iff_of_true ?_ (by simp [Accounted, hnone])
    cases hbefore : r.hub.initialised with
    | true =>
        rw [named_iff (hin hbefore), hid]
        exact (named_iff hbefore).mp hnamed
    | false =>
        obtain ⟨hempty, hreported⟩ := hquiet hbefore
        rw [Named, Api.lastEventId, hid, hempty, hreported, ite_self]

end Reporter

/-- In every state of a run `lastEventId` names the last event that was
reported, if and only if all events of the run get through, or have the last id
by chance. -/
theorem lastEventId_reported_iff (userLogin hostName : Option Bytes)
    (calls : List ReportingCall) :
    (∀ before r, before <+: calls →
      Transition.run (Reporter.step p) (Reporter.new userLogin hostName) before = some r →
      Api.lastEventId r.hub = r.reported) ↔
    Transition.AllSteps (Reporter.step p) (Reporter.Accounted p)
      (Reporter.new userLogin hostName) calls := by
  have hkeeps (r : Reporter) (call : ReportingCall) (r' : Reporter) (h : r.Quiet ∧ r.Named)
      (hstep : r.step p call = some r') : r'.Quiet ∧ r'.Named ↔ r.Accounted p call := by
    rw [and_iff_right (h.1.step p hstep)]
    exact Reporter.named_step_iff p h.1 h.2 hstep
  have hdisabled (r : Reporter) (call : ReportingCall) (hstep : r.step p call = none) :
      r.Accounted p call := by
    intro c hc
    rw [captured_of_exec_eq_none p (Option.map_eq_none_iff.mp hstep)] at hc
    cases hc
  have hquiet : (Reporter.new userLogin hostName).Quiet := fun _ => ⟨rfl, rfl⟩
  rw [← Transition.invariant_iff_allSteps hkeeps hdisabled ⟨hquiet, rfl⟩ calls]
  apply forall₄_congr
  intro before r _ hrun
  have hreached : r.Quiet := Transition.run_invariant (fun _ _ _ h hstep => h.step p hstep)
    hquiet hrun
  rw [and_iff_right hreached, Reporter.Named]

/-- The bytes of an id that is not that of `zeroUuid`. -/
def onesUuid : Uuid := ⟨List.replicate 16 1, rfl⟩

/-- `init`, and four events with the message `m` in one second. -/
def fourEvents : List ReportingCall :=
  .publicCall (.init twoCrumbs none 0) ::
    [reportAt 0, reportAt 0, reportAt 0, { reportAt 0 with uuid := onesUuid }].map fun c =>
      .publicCall (.request (.captureEvent c))

/-- The fourth event is dropped, and its id is the last id. -/
theorem fourEvents_not_named :
    ¬ ∀ (p : Platform) (calls : List ReportingCall) (r : Reporter),
      Transition.run (Reporter.step p) (Reporter.new none none) calls = some r →
      Api.lastEventId r.hub = r.reported := by
  intro hall
  have hids : (Transition.run (Reporter.step (platformOf [])) (Reporter.new none none)
      fourEvents).map (fun r => (Api.lastEventId r.hub, r.reported)) =
      some (Hub.generateUuid onesUuid, Hub.generateUuid zeroUuid) := by decide +kernel
  obtain ⟨r, hrun, hr⟩ := Option.map_eq_some_iff.mp hids
  obtain ⟨hid, hreported⟩ := Prod.mk.inj hr
  have hsame := hall (platformOf []) fourEvents r hrun
  rw [hid, hreported] at hsame
  revert hsame
  decide

end Sentry
