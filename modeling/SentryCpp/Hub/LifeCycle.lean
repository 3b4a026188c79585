import SentryCpp.Hub.Handlers
import SentryCpp.Hub.Init
import SentryCpp.Hub.Window

/-!
The thread of the transport. `init` starts it in a new transport, and
`closeHttpConnection` joins it: in the destructor, and in both handlers when
their report has returned. Neither looks at what was done before. So a second
`init` destroys a transport whose thread is joinable, a second closing joins a
thread that has been joined, and a handler on the worker joins itself. The
faults stay out if and only if openings and closings alternate and the worker
closes nothing, which is `fault_eq_none_iff`.

A schedule is a list of calls, each made when the one before is through with
the thread. The calls that a program makes through the API come in between and
change what a handler can report.
-/

namespace Sentry.LifeCycle

open StdString

/-- What `std::thread` answers with an exception or with `std::terminate`. -/
inductive ThreadFault where
  | joinNotJoinable
  | joinSelf
  | destroyedJoinable
  deriving DecidableEq, Repr

/-- Where a handler runs. -/
inductive Runner where
  | application
  | worker
  deriving DecidableEq, Repr

inductive LifeCall where
  | init (dsn : Bytes) (maxBreadcrumbs : Int) (sourceAvailable : Bool) (sampleRate : Int)
      (uninitialised : UInt64)
  | request (request : Api.Request)
  | terminationHandler (runner : Runner) (current : CurrentException) (c : Circumstances)
  | signalsHandler (runner : Runner) (sig : Signal) (c : Circumstances)
  | destructor

/-- `joinable` is that of the thread of the transport. `terminate` and `caught`
say which handlers are installed. When it is `gone`, the hub is destroyed or
the process has been aborted. -/
structure Process where
  hub : Hub
  joinable : Bool
  terminate : Bool
  caught : List Signal
  gone : Bool
  fault : Option ThreadFault

namespace Process

def start (userLogin hostName : Option Bytes) : Process where
  hub := Hub.new userLogin hostName
  joinable := false
  terminate := false
  caught := []
  gone := false
  fault := none

def installHandler (s : Process) : Process := { s with terminate := true, caught := Signal.all }

/-- With a port that is no number the process gets `std::terminate`, which is
the end of it unless the handler is installed. -/
def init (s : Process) (dsn : Bytes) (maxBreadcrumbs : Int) (sourceAvailable : Bool)
    (sampleRate : Int) (uninitialised : UInt64) : Process :=
  let s := { s with hub := s.hub.config maxBreadcrumbs sourceAvailable sampleRate }
  match SentryDSN.parseDSN dsn ⟨[], [], [], [], [], [], [], []⟩ with
  | (.noError, newDSNStruct) =>
      if s.joinable then { s with fault := some .destroyedJoinable }
      else
        let t := (Transport.new uninitialised).start
        let s := { s with hub := { s.hub with httpClient := some t }, joinable := true }
        match t.setupClient newDSNStruct with
        | some t =>
            let s := { s with hub := { s.hub with httpClient := some t, initialised := true } }
            s.installHandler
        | none => { s with gone := !s.terminate }
  | _ => s

/-- `stop` sets the flag before it joins. -/
def closeHttpConnection (s : Process) (runner : Runner) : Process :=
  match s.hub.httpClient with
  | none => s
  | some t =>
      let s := { s with hub := { s.hub with httpClient := some { t with shouldStop := true } } }
      if !s.joinable then { s with fault := some .joinNotJoinable }
      else if runner = .worker then { s with fault := some .joinSelf }
      else { s with joinable := false }

def handle (s : Process) (runner : Runner) (reported : Bool × Hub) : Process :=
  let s := { s with hub := reported.2 }
  if reported.1 then s.closeHttpConnection runner else s

/-- The handlers stay installed behind the destructor, and they still find the
transport. -/
def destroy (s : Process) : Process :=
  let s := s.closeHttpConnection .application
  if s.fault.isNone && s.joinable then { s with fault := some .destroyedJoinable }
  else { s with gone := true }

/-- The worker runs nothing when it has been joined. -/
def alive (s : Process) (runner : Runner) : Bool :=
  match runner with
  | .application => true
  | .worker => s.joinable

end Process

variable (p : Platform)

def step (s : Process) (call : LifeCall) : Option Process :=
  if s.fault.isSome then none
  else
    match call with
    | .init dsn maxBreadcrumbs sourceAvailable sampleRate uninitialised =>
        if s.gone then none
        else some (s.init dsn maxBreadcrumbs sourceAvailable sampleRate uninitialised)
    | .request request =>
        if s.gone then none else some { s with hub := Api.serve p s.hub request }
    | .terminationHandler runner current c =>
        if s.terminate && s.alive runner then
          some (s.handle runner (s.hub.terminationReport p current c))
        else none
    | .signalsHandler runner sig c =>
        if s.caught.contains sig && s.alive runner then
          some ({ s with caught := s.caught.erase sig }.handle runner
            (s.hub.signalReport p sig c))
        else none
    | .destructor => if s.gone then none else some s.destroy

/-- What a call does with the thread. -/
inductive Effect where
  | opens
  | closes
  deriving DecidableEq, Repr

/-- An `init` opens with a DSN that is accepted, and a handler closes when its
report returns. -/
def effect (h : Hub) : LifeCall → Option Effect
  | .init dsn .. =>
      if (SentryDSN.parseDSN dsn ⟨[], [], [], [], [], [], [], []⟩).1 = .noError then some .opens
      else none
  | .request _ => none
  | .terminationHandler _ current c =>
      if h.terminationReports p current c then some .closes else none
  | .signalsHandler _ sig c => if h.signalReports p sig c then some .closes else none
  | .destructor => some .closes

/-- The effects of the calls of a schedule, in order. -/
def effects (s : Process) : List LifeCall → List Effect
  | [] => []
  | call :: calls =>
      (effect p s.hub call).toList ++ (step p s call).elim [] fun s' => effects s' calls

def LifeCall.runner : LifeCall → Runner
  | .terminationHandler runner .. | .signalsHandler runner .. => runner
  | .init .. | .request _ | .destructor => .application

/-- The call does not close on the worker. -/
def Outside (s : Process) (call : LifeCall) : Prop :=
  call.runner = .worker → effect p s.hub call = none

instance Outside.decidable (s : Process) (call : LifeCall) : Decidable (Outside p s call) :=
  inferInstanceAs (Decidable (call.runner = .worker → effect p s.hub call = none))

/-- The effect that the last call with an effect had. -/
def Process.last (s : Process) : Option Effect :=
  if s.joinable then some .opens
  else if s.hub.stopped.isSome || s.gone then some .closes
  else none

/-- What holds as long as there is no fault: the thread is joinable until its
transport is stopped. -/
structure Coherent (s : Process) : Prop where
  fault : s.fault = none
  joinable : s.joinable = (s.hub.stopped == some false)
  installed : s.hub.stopped = none → s.terminate = false ∧ s.caught = []

/-- What a step can do. -/
inductive Change (s : Process) (call : LifeCall) (s' : Process) : Prop where
  | keeps (heffect : effect p s.hub call = none) (hs' : Coherent s') (hlast : s'.last = s.last)
  | moves (e : Effect) (heffect : effect p s.hub call = some e) (hother : s.last ≠ some e)
      (hrunner : call.runner = .application) (hs' : Coherent s') (hlast : s'.last = some e)
  | repeats (e : Effect) (heffect : effect p s.hub call = some e) (hsame : s.last = some e)
      (hfault : s'.fault ≠ none)
  | joinsSelf (e : Effect) (heffect : effect p s.hub call = some e)
      (hrunner : call.runner = .worker) (hfault : s'.fault ≠ none)

theorem stopped_config (h : Hub) (maxBreadcrumbs : Int) (sourceAvailable : Bool)
    (sampleRate : Int) :
    (h.config maxBreadcrumbs sourceAvailable sampleRate).stopped = h.stopped := rfl

/-- The hub may change in everything but the transport. -/
theorem Coherent.withHub {s : Process} (hs : Coherent s) {h : Hub}
    (hstopped : h.stopped = s.hub.stopped) :
    Coherent { s with hub := h } ∧ ({ s with hub := h } : Process).last = s.last := by
  refine ⟨⟨hs.fault, ?_, ?_⟩, ?_⟩
  · rw [hstopped]
    exact hs.joinable
  · rw [hstopped]
    exact hs.installed
  · rw [Process.last, Process.last, hstopped]

theorem Coherent.stopped_isSome {s : Process} (hs : Coherent s)
    (hinstalled : s.terminate = true ∨ s.caught ≠ []) : s.hub.stopped.isSome = true := by
  rw [Option.isSome_iff_ne_none]
  intro hnone
  obtain ⟨hterminate, hcaught⟩ := hs.installed hnone
  simp [hterminate, hcaught] at hinstalled

/-- Closing joins a thread that is joinable, unless it is its own. -/
theorem Coherent.close {s : Process} (hs : Coherent s) (hclient : s.hub.stopped.isSome = true)
    (runner : Runner) :
    (s.last = some .closes ∧ (s.closeHttpConnection runner).fault ≠ none) ∨
    (runner = .worker ∧ (s.closeHttpConnection runner).fault ≠ none) ∨
    (runner = .application ∧ s.last = some .opens ∧ Coherent (s.closeHttpConnection runner) ∧
      (s.closeHttpConnection runner).joinable = false ∧
      (s.closeHttpConnection runner).last = some .closes) := by
  obtain ⟨t, ht⟩ := Option.isSome_iff_exists.mp ((isSome_stopped s.hub).symm.trans hclient)
  cases hjoin : s.joinable with
  | false =>
      refine Or.inl ⟨by simp [Process.last, hjoin, hclient], ?_⟩
      simp [Process.closeHttpConnection, ht, hjoin]
  | true =>
      refine Or.inr ?_
      cases runner with
      | worker => exact Or.inl ⟨rfl, by simp [Process.closeHttpConnection, ht, hjoin]⟩
      | application =>
          have hclosed : s.closeHttpConnection .application = { s with
              hub := { s.hub with httpClient := some { t with shouldStop := true } }
              joinable := false } := by
            simp [Process.closeHttpConnection, ht, hjoin]
          rw [hclosed]
          refine Or.inr ⟨rfl, by simp [Process.last, hjoin], ⟨hs.fault, rfl, ?_⟩, rfl, rfl⟩
          intro hnone
          cases hnone

variable {p}

theorem change_init {s : Process} (hs : Coherent s) (dsn : Bytes) (maxBreadcrumbs : Int)
    (sourceAvailable : Bool) (sampleRate : Int) (uninitialised : UInt64) :
    Change p s (.init dsn maxBreadcrumbs sourceAvailable sampleRate uninitialised)
      (s.init dsn maxBreadcrumbs sourceAvailable sampleRate uninitialised) := by
  unfold Process.init
  rcases parseDSN_cases dsn ⟨[], [], [], [], [], [], [], []⟩ with ⟨d, hparse⟩ | hparse
  · have heffect : effect p s.hub
        (.init dsn maxBreadcrumbs sourceAvailable sampleRate uninitialised) = some .opens := by
      simp [effect, hparse]
    simp only [hparse]
    cases hjoin : s.joinable with
    | true => exact .repeats .opens heffect (by simp [Process.last, hjoin]) (by simp)
    | false =>
        have hother : s.last ≠ some .opens := by
          unfold Process.last
          rw [hjoin]
          split <;> simp_all
        cases hsetup : (Transport.new uninitialised).start.setupClient d with
        | some t =>
            have hstopped : t.shouldStop = false := shouldStop_of_setupClient hsetup
            refine .moves .opens heffect hother rfl ⟨hs.fault, ?_, ?_⟩ rfl
            · simp [Process.installHandler, Hub.stopped, hstopped]
            · intro hnone
              cases hnone
        | none =>
            refine .moves .opens heffect hother rfl ⟨hs.fault, rfl, ?_⟩ rfl
            intro hnone
            cases hnone
  · have heffect : effect p s.hub
        (.init dsn maxBreadcrumbs sourceAvailable sampleRate uninitialised) = none := by
      simp [effect, hparse]
    simp only [hparse]
    obtain ⟨hs', hlast⟩ :=
      hs.withHub (stopped_config s.hub maxBreadcrumbs sourceAvailable sampleRate)
    exact .keeps heffect hs' hlast

/-- As long as there is no fault, `Hub::init` is as a single call sees it: the
assignment of the new transport goes through if and only if there is no
joinable thread. -/
theorem Coherent.setHttpClient_isSome {s : Process} (hs : Coherent s) (t : Transport) :
    (s.hub.setHttpClient t).isSome = !s.joinable := by
  rw [hs.joinable]
  unfold Hub.setHttpClient Hub.stopped
  cases s.hub.httpClient with
  | none => rfl
  | some old => cases hstop : old.shouldStop <;> simp [hstop]

theorem Coherent.init_eq {s : Process} (hs : Coherent s) {dsn : Bytes}
    {maxBreadcrumbs sampleRate : Int} {sourceAvailable : Bool} {uninitialised : UInt64}
    {errorCode : EErrorCode} {h : Hub}
    (hinit : s.hub.init dsn maxBreadcrumbs sourceAvailable sampleRate uninitialised =
      some (errorCode, h)) :
    (s.init dsn maxBreadcrumbs sourceAvailable sampleRate uninitialised).hub = h ∧
      (s.init dsn maxBreadcrumbs sourceAvailable sampleRate uninitialised).fault = none := by
  unfold Hub.init at hinit
  unfold Process.init
  rcases parseDSN_cases dsn ⟨[], [], [], [], [], [], [], []⟩ with ⟨d, hparse⟩ | hparse
  · simp only [hparse, Option.bind_eq_some_iff, Option.map_eq_some_iff, Prod.mk.injEq] at hinit
    obtain ⟨h₁, hset, t, hsetup, -, rfl⟩ := hinit
    have hconfig : Coherent { s with
        hub := s.hub.config maxBreadcrumbs sourceAvailable sampleRate } :=
      (hs.withHub (stopped_config s.hub maxBreadcrumbs sourceAvailable sampleRate)).1
    have hjoin := hconfig.setHttpClient_isSome (Transport.new uninitialised)
    simp only [hset, Option.isSome_some] at hjoin
    have hjoin' : s.joinable = false := by simpa using hjoin.symm
    simp only [hparse, hjoin', hsetup, Bool.false_eq_true, if_false, Process.installHandler]
    refine ⟨?_, hs.fault⟩
    unfold Hub.setHttpClient at hset
    split at hset
    · cases hset
      rfl
    · cases hset
  · simp only [hparse, Option.some.injEq, Prod.mk.injEq] at hinit
    simp only [hparse]
    exact ⟨hinit.2, hs.fault⟩

/-- The end of a handler, from a state that differs from the one before the
call in what is installed. -/
theorem change_handle {s s₁ : Process} (hs₁ : Coherent s₁) (hhub : s₁.hub = s.hub)
    (hlast : s₁.last = s.last) (hclient : s.hub.stopped.isSome = true) {call : LifeCall}
    {reported : Bool × Hub} (hstopped : reported.2.stopped = s.hub.stopped)
    (heffect : effect p s.hub call = if reported.1 then some .closes else none) :
    Change p s call (s₁.handle call.runner reported) := by
  obtain ⟨hs₂, hlast₂⟩ := hs₁.withHub (hstopped.trans (congrArg Hub.stopped hhub).symm)
  unfold Process.handle
  cases hreturns : reported.1 with
  | false =>
      rw [hreturns] at heffect
      exact .keeps heffect hs₂ (hlast₂.trans hlast)
  | true =>
      rw [hreturns] at heffect
      have hclient₂ : reported.2.stopped.isSome = true := by rw [hstopped, hclient]
      rcases hs₂.close hclient₂ call.runner with ⟨hclosed, hfault⟩ | ⟨hworker, hfault⟩ |
        ⟨happlication, hopen, hs', -, hlast'⟩
      · exact .repeats .closes heffect (hlast ▸ hlast₂ ▸ hclosed) hfault
      · exact .joinsSelf .closes heffect hworker hfault
      · refine .moves .closes heffect ?_ happlication hs' hlast'
        rw [← hlast, ← hlast₂, hopen]
        simp

theorem change_destroy {s : Process} (hs : Coherent s) (hgone : s.gone = false) :
    Change p s .destructor s.destroy := by
  have hdestroy (hjoin : (s.closeHttpConnection .application).joinable = false) :
      s.destroy = { s.closeHttpConnection .application with gone := true } := by
    simp [Process.destroy, hjoin]
  cases hclient : s.hub.stopped.isSome with
  | false =>
      have hnone : s.hub.httpClient = none := by simpa [isSome_stopped] using hclient
      have hclose : s.closeHttpConnection .application = s := by
        rw [Process.closeHttpConnection, hnone]
      have hjoin : s.joinable = false := by rw [hs.joinable, Hub.stopped, hnone]; rfl
      have hlast : s.last = none := by simp [Process.last, hjoin, hclient, hgone]
      rw [hdestroy (by rw [hclose, hjoin]), hclose]
      refine .moves .closes rfl (by simp [hlast]) rfl ⟨hs.fault, hs.joinable, hs.installed⟩ ?_
      simp [Process.last, hjoin]
  | true =>
      rcases hs.close hclient .application with ⟨hclosed, hfault⟩ | ⟨hworker, -⟩ |
        ⟨-, hopen, hs', hjoin, -⟩
      · refine .repeats .closes rfl hclosed ?_
        rw [Process.destroy, if_neg (by simp [hfault])]
        exact hfault
      · cases hworker
      · rw [hdestroy hjoin]
        refine .moves .closes rfl (by simp [hopen]) rfl
          ⟨hs'.fault, hs'.joinable, hs'.installed⟩ ?_
        simp [Process.last, hjoin]

/-- All that a call can do, as long as there is no fault. -/
theorem change_of_step {s s' : Process} {call : LifeCall} (hs : Coherent s)
    (hstep : step p s call = some s') : Change p s call s' := by
  unfold step at hstep
  rw [if_neg (by simp [hs.fault])] at hstep
  cases call with
  | init dsn maxBreadcrumbs sourceAvailable sampleRate uninitialised =>
      simp only [Option.ite_none_left_eq_some, Option.some.injEq] at hstep
      rw [← hstep.2]
      exact change_init hs dsn maxBreadcrumbs sourceAvailable sampleRate uninitialised
  | request request =>
      simp only [Option.ite_none_left_eq_some, Option.some.injEq] at hstep
      obtain ⟨hs', hlast⟩ := hs.withHub (stopped_serve p s.hub request)
      rw [← hstep.2]
      exact .keeps rfl hs' hlast
  | terminationHandler runner current c =>
      simp only [Option.ite_none_right_eq_some, Option.some.injEq, Bool.and_eq_true] at hstep
      obtain ⟨⟨hterminate, -⟩, rfl⟩ := hstep
      have heffect : effect p s.hub (.terminationHandler runner current c) =
          if (s.hub.terminationReport p current c).1 then some .closes else none := by
        rw [terminationReport_fst, effect]
      exact change_handle hs rfl rfl (hs.stopped_isSome (Or.inl hterminate))
        (stopped_terminationReport p s.hub current c) heffect
  | signalsHandler runner sig c =>
      simp only [Option.ite_none_right_eq_some, Option.some.injEq, Bool.and_eq_true] at hstep
      obtain ⟨⟨hcaught, -⟩, rfl⟩ := hstep
      have heffect : effect p s.hub (.signalsHandler runner sig c) =
          if (s.hub.signalReport p sig c).1 then some .closes else none := by
        rw [Hub.signalReport, report_fst, effect, Hub.signalReports]
      have hne : s.caught ≠ [] := by
        rintro hnil
        simp [hnil] at hcaught
      have hs₁ : Coherent { s with caught := s.caught.erase sig } := by
        refine ⟨hs.fault, hs.joinable, ?_⟩
        intro hnone
        obtain ⟨hterminate, hnil⟩ := hs.installed hnone
        exact absurd hnil hne
      exact change_handle (s := s) hs₁ rfl rfl (hs.stopped_isSome (Or.inr hne))
        (stopped_report p s.hub (signalEvent sig.name) c) heffect
  | destructor =>
      simp only [Option.ite_none_left_eq_some, Option.some.injEq] at hstep
      rw [← hstep.2]
      exact change_destroy hs (by simpa using hstep.1)

/-- Nothing follows a fault. -/
theorem eq_of_run_of_fault {s u : Process} {calls : List LifeCall} (hfault : s.fault ≠ none)
    (hrun : Transition.run (step p) s calls = some u) : u = s := by
  cases calls with
  | nil => exact (Option.some.inj hrun).symm
  | cons call calls =>
      obtain ⟨s', hstep, -⟩ := Transition.run_cons_iff.mp hrun
      simp [step, Option.isSome_iff_ne_none.mpr hfault] at hstep

theorem fault_eq_none_iff_of_run {s u : Process} {calls : List LifeCall} (hs : Coherent s)
    (hrun : Transition.run (step p) s calls = some u) :
    u.fault = none ↔
      (s.last.toList ++ effects p s calls).IsChain (· ≠ ·) ∧
        Transition.AllSteps (step p) (Outside p) s calls := by
  induction calls generalizing s with
  | nil =>
      rw [← Option.some.inj hrun]
      refine iff_of_true hs.fault ⟨?_, trivial⟩
      cases s.last <;> simp [effects]
  | cons call calls ih =>
      obtain ⟨s', hstep, hrest⟩ := Transition.run_cons_iff.mp hrun
      have heffects : effects p s (call :: calls) =
          (effect p s.hub call).toList ++ effects p s' calls := by
        rw [effects, hstep, Option.elim_some]
      simp only [heffects, Transition.AllSteps, hstep, Option.some.injEq, forall_eq']
      cases change_of_step hs hstep with
      | keeps heffect hs' hlast =>
          have houtside : Outside p s call := fun _ => heffect
          rw [ih hs' hrest, hlast, heffect]
          simp [houtside]
      | moves e heffect hother hrunner hs' hlast =>
          have houtside : Outside p s call := by simp [Outside, hrunner]
          rw [ih hs' hrest, hlast, heffect]
          cases hbefore : s.last with
          | none => simp [houtside]
          | some before =>
              have hne : before ≠ e := fun heq => hother (by rw [hbefore, heq])
              simp [houtside, hne]
      | repeats e heffect hsame hfault =>
          rw [eq_of_run_of_fault hfault hrest, heffect, hsame]
          simp [hfault]
      | joinsSelf e heffect hrunner hfault =>
          rw [eq_of_run_of_fault hfault hrest]
          simp [hfault, Outside, hrunner, heffect]

theorem coherent_start (userLogin hostName : Option Bytes) :
    Coherent (Process.start userLogin hostName) :=
  ⟨rfl, rfl, fun _ => ⟨rfl, rfl⟩⟩

theorem coherent_of_run {userLogin hostName : Option Bytes} {calls : List LifeCall} {s : Process}
    (hrun : Transition.run (step p) (.start userLogin hostName) calls = some s)
    (hfault : s.fault = none) : Coherent s := by
  have hkeep : ∀ (s : Process) (call : LifeCall) (s' : Process),
      (s.fault = none → Coherent s) → step p s call = some s' → s'.fault = none →
      Coherent s' := by
    intro s call s' hs hstep hfault'
    have hbefore : s.fault = none := by
      rw [← Option.not_isSome_iff_eq_none]
      intro hfault
      simp [step, hfault] at hstep
    cases change_of_step (hs hbefore) hstep with
    | keeps heffect hs' hlast => exact hs'
    | moves e heffect hother hrunner hs' hlast => exact hs'
    | repeats e heffect hsame hfault => exact absurd hfault' hfault
    | joinsSelf e heffect hrunner hfault => exact absurd hfault' hfault
  exact Transition.run_invariant hkeep (fun _ => coherent_start userLogin hostName) hrun hfault

/-- The assertion at the head of both handlers: a handler that is installed
finds a transport. -/
theorem httpClient_of_run {userLogin hostName : Option Bytes} {calls : List LifeCall}
    {s : Process} (hrun : Transition.run (step p) (.start userLogin hostName) calls = some s)
    (hfault : s.fault = none) (hinstalled : s.terminate = true ∨ s.caught ≠ []) :
    s.hub.httpClient.isSome = true := by
  rw [← isSome_stopped]
  exact (coherent_of_run hrun hfault).stopped_isSome hinstalled

/-- No call of a schedule is a fault of the thread if and only if the calls
that open and those that close alternate and none of them closes on the
worker. -/
theorem fault_eq_none_iff {userLogin hostName : Option Bytes} {calls : List LifeCall}
    {s : Process} (hrun : Transition.run (step p) (.start userLogin hostName) calls = some s) :
    s.fault = none ↔
      (effects p (.start userLogin hostName) calls).IsChain (· ≠ ·) ∧
        Transition.AllSteps (step p) (Outside p) (.start userLogin hostName) calls :=
  fault_eq_none_iff_of_run (coherent_start userLogin hostName) hrun

/-- An `init` with a DSN that is accepted. -/
def openingInit : LifeCall := .init (lit "http://public@localhost:9000/1") 100 false 100 0

/-- The frames of an empty backtrace. -/
def noFrames : Circumstances := ⟨some (.array []), zeroUuid, ⟨0, 0, 0, 0⟩⟩

theorem fault_free_openedAndClosed :
    ∃ s, Transition.run (step (platformOf [])) (.start none none) [openingInit, .destructor] =
        some s ∧ s.fault = none := by
  obtain ⟨s, hrun⟩ : ∃ s, Transition.run (step (platformOf [])) (.start none none)
      [openingInit, .destructor] = some s := by
    rw [← Option.isSome_iff_exists]
    decide
  exact ⟨s, hrun, (fault_eq_none_iff hrun).mpr ⟨by decide, by decide⟩⟩

/-- `std::terminate` on a thread of the program: its handler closes the
connection and ends in `abort`, and the handler of `SIGABRT` closes it
again. -/
def terminated : List LifeCall :=
  [openingInit, .terminationHandler .application .none noFrames,
    .signalsHandler .application .abrt noFrames]

/-- The second closing of `terminated` joins a thread that is not joinable. -/
theorem terminated_joins_twice :
    ¬ ∀ (p : Platform) (calls : List LifeCall) (s : Process),
      Transition.run (step p) (.start none none) calls = some s → s.fault = none := by
  intro hall
  have hfault : (Transition.run (step (platformOf [])) (.start none none) terminated).map
      Process.fault = some (some .joinNotJoinable) := by decide
  obtain ⟨s, hrun, hs⟩ := Option.map_eq_some_iff.mp hfault
  rw [hall (platformOf []) terminated s hrun] at hs
  cases hs

end Sentry.LifeCycle
