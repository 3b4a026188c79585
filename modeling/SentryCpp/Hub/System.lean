import SentryCpp.Hub.LastEvent
import SentryCpp.Hub.Wire
import SentryCpp.Transport.Delivery

/-!
The program as a whole: callers of the API at one end, the worker and the
server at the other. A request is served by the hub in one step; what it hands
to the transport is a call of `sendEvent`, whose push is a step of its own. So
between the two the worker, `stop` and other callers can come in.
`request_then_push` says that the two taken together are the request as the
hub alone sees it.

Seen from the transport a run of the program is a run of the transport
(`exists_world_run`). What is added here is where the texts come from: each is
the payload of one captured event, and its identifier can be read in it.

A POST is a call of the client's `request` here. The client itself may write one
call twice (`SimpleWeb.requests_bounded`), so that the server can see it twice.
-/

namespace Sentry

open StdString Number

/-- `sent` is no data of the program. It lists the identifiers and the texts
of the events that were handed to the transport. -/
structure System where
  hub : Hub
  world : Transport.World
  sent : List (Bytes × Bytes)

namespace System

inductive Action where
  | request (request : Api.Request)
  | push (caller : Nat)
  | stop
  | work (now : Time)
  | answer (outcome : SimpleWeb.Outcome) (now : Time)

end System

variable (p : Platform)

/-- What `captureEvent` hands to the transport. -/
def Hub.handsOver (h : Hub) (c : Call) : Option Bytes :=
  if h.emits p c && ((p.rand (UInt32.ofNat c.clock.seed) % 100 : Nat) : Int) < h.sampleRate then
    (h.contents c).toOption
  else none

/-- What a request hands to the transport, with the identifier of the event. -/
def Api.handsOver (h : Hub) (request : Request) : Option (Bytes × Bytes) :=
  if h.initialised then
    request.call?.bind fun c => (h.handsOver p c).map fun contents =>
      (Hub.generateUuid c.uuid, contents)
  else none

namespace System

/-- The hub with the transport as it is. -/
def current (s : System) : Hub := { s.hub with httpClient := some s.world.transport }

def onWorld (s : System) (action : Transport.Action) : Option System :=
  (Transport.step s.world action).map fun world => { s with world := world }

def step (s : System) : Action → Option System
  | .request request =>
      match Api.handsOver p s.current request with
      | none => some { s with hub := Api.serve p s.current request }
      | some (eventId, contents) =>
          (Transport.step s.world (.call contents)).map fun world =>
            { hub := Api.serve p s.current request
              world := world
              sent := s.sent ++ [(eventId, contents)] }
  | .push caller => s.onWorld (.push caller)
  | .stop => s.onWorld .stop
  | .work now => s.onWorld (.work now)
  | .answer outcome now => s.onWorld (.answer outcome now)

/-- The program after `init`, when the worker has just been started. -/
def start (hub : Hub) (transport : Transport) : System where
  hub := hub
  world := ⟨transport, .loopTest .serving, []⟩
  sent := []

/-- What a step can do to the parts of the program. -/
inductive Move (s : System) : Action → System → Prop where
  | quiet (request : Api.Request) (hnone : Api.handsOver p s.current request = none) :
      Move s (.request request) { s with hub := Api.serve p s.current request }
  | call (request : Api.Request) (eventId contents : Bytes) (world : Transport.World)
      (hsome : Api.handsOver p s.current request = some (eventId, contents))
      (hstep : Transport.step s.world (.call contents) = some world) :
      Move s (.request request)
        ⟨Api.serve p s.current request, world, s.sent ++ [(eventId, contents)]⟩
  | transport (action : Action) (below : Transport.Action) (world : Transport.World)
      (hbelow : ∀ contents, below ≠ .call contents)
      (hstep : Transport.step s.world below = some world) :
      Move s action { s with world := world }

theorem move_of_step {s t : System} {a : Action} (h : step p s a = some t) : Move p s a t := by
  have hworld {a : Action} {below : Transport.Action} (hbelow : ∀ contents, below ≠ .call contents)
      (h : s.onWorld below = some t) : Move p s a t := by
    obtain ⟨world, hstep, rfl⟩ := Option.map_eq_some_iff.mp h
    exact .transport a below world hbelow hstep
  cases a with
  | request request =>
      cases hhands : Api.handsOver p s.current request with
      | none =>
          simp only [step, hhands, Option.some.injEq] at h
          subst t
          exact .quiet request hhands
      | some handed =>
          obtain ⟨eventId, contents⟩ := handed
          simp only [step, hhands] at h
          obtain ⟨world, hstep, rfl⟩ := Option.map_eq_some_iff.mp h
          exact .call request eventId contents world hhands hstep
  | push caller => exact hworld (by simp) h
  | stop => exact hworld (by simp) h
  | work now => exact hworld (by simp) h
  | answer outcome now => exact hworld (by simp) h

/-- Seen from the transport a run of the program is a run of the transport. -/
theorem exists_world_run {s t : System} {schedule : List Action}
    (hrun : Transition.run (step p) s schedule = some t) :
    ∃ below, Transition.run Transport.step s.world below = some t.world := by
  induction schedule generalizing s with
  | nil =>
      rw [Transition.run_nil] at hrun
      exact ⟨[], congrArg some (congrArg System.world (Option.some.inj hrun))⟩
  | cons a schedule ih =>
      obtain ⟨u, hstep, hrest⟩ := Transition.run_cons_iff.mp hrun
      obtain ⟨below, hbelow⟩ := ih hrest
      cases move_of_step p hstep with
      | quiet => exact ⟨below, hbelow⟩
      | call request eventId contents world hsome hcall =>
          exact ⟨.call contents :: below, Transition.run_cons_iff.mpr ⟨world, hcall, hbelow⟩⟩
      | transport action moved world hmoved hworld =>
          exact ⟨moved :: below, Transition.run_cons_iff.mpr ⟨world, hworld, hbelow⟩⟩

end System

theorem httpClient_handsOver (h : Hub) (c : Call) :
    (h.captureEvent p c.event c.uuid c.clock).2.httpClient =
      (h.handsOver p c).elim h.httpClient fun contents =>
        h.httpClient.map fun t => t.sendEvent contents := by
  rcases captureEvent_emits_cases p h c with
    ⟨hnot, result, -, hcapture⟩ | ⟨hemits, contents, hcontents, hcapture⟩
  · rw [hcapture, Hub.handsOver, hnot]
    rfl
  · rw [hcapture, Hub.handsOver, hemits, hcontents, Bool.true_and]
    simp only [Hub.addBreadcrumb, Hub.sendSampled]
    split
    · rename_i hlow
      rw [if_pos (by exact decide_eq_true hlow)]
      rfl
    · rename_i hhigh
      rw [if_neg (by rw [decide_eq_true_eq]; exact hhigh)]
      rfl

/-- A request changes the transport by what it hands over, and by nothing
else. -/
theorem httpClient_serve (h : Hub) (request : Api.Request) :
    (Api.serve p h request).httpClient =
      (Api.handsOver p h request).elim h.httpClient fun handed =>
        h.httpClient.map fun t => t.sendEvent handed.2 := by
  have hcall (c : Call) : ((h.handsOver p c).map fun contents =>
      (Hub.generateUuid c.uuid, contents)).elim h.httpClient (fun handed : Bytes × Bytes =>
        h.httpClient.map fun t => t.sendEvent handed.2) =
      (h.captureEvent p c.event c.uuid c.clock).2.httpClient := by
    rw [httpClient_handsOver]
    cases h.handsOver p c <;> rfl
  generalize hserve : Api.serve p h request = h'
  rw [Api.handsOver]
  cases Api.served_of_serve p hserve with
  | refused _ hnot => rw [hnot]; rfl
  | captureEvent c hin => rw [if_pos hin]; exact (hcall c).symm
  | addBreadcrumb crumb now hin => rw [if_pos hin]; rfl
  | setTag key value hin => rw [if_pos hin, setTag_eq]; rfl
  | setExtra key value hin => rw [if_pos hin]; rfl
  | reported level message uuid clock hin hlevel =>
      rw [if_pos hin, Api.Request.call?, if_pos hlevel]
      exact (hcall ⟨Api.logEvent level message, uuid, clock⟩).symm
  | logged level message uuid clock hin hlevel =>
      rw [if_pos hin, Api.Request.call?, hlevel]
      rfl

namespace System

/-- A request and the push that belongs to it, with nothing in between, are
the request as the hub alone sees it. -/
theorem request_then_push (s : System) (request : Api.Request) :
    ∃ schedule t, (∀ a ∈ schedule, a = .request request ∨ a = .push s.world.callers.length) ∧
      Transition.run (step p) s (.request request :: schedule) = some t ∧
      (Api.serve p s.current request).httpClient = some t.world.transport ∧
      t.world.callers = s.world.callers ∧ t.world.worker = s.world.worker := by
  rw [httpClient_serve]
  cases hhands : Api.handsOver p s.current request with
  | none =>
      refine ⟨[], { s with hub := Api.serve p s.current request }, by simp, ?_, rfl, rfl, rfl⟩
      simp [Transition.run, step, hhands]
  | some handed =>
      obtain ⟨eventId, contents⟩ := handed
      cases hstop : s.world.transport.shouldStop with
      | true =>
          refine ⟨[], ⟨Api.serve p s.current request, s.world, s.sent ++ [(eventId, contents)]⟩,
            by simp, ?_, ?_, rfl, rfl⟩
          · simp [Transition.run, step, hhands, Transport.step, hstop]
          · simp [current, Transport.sendEvent, Transport.addActionToQueue, hstop]
      | false =>
          refine ⟨[.push s.world.callers.length], ⟨Api.serve p s.current request,
            ⟨s.world.transport.sendEvent contents, s.world.worker, s.world.callers⟩,
            s.sent ++ [(eventId, contents)]⟩, by simp, ?_, rfl, rfl, rfl⟩
          simp [Transition.run, step, hhands, Transport.step, hstop, onWorld,
            Transport.sendEvent, Transport.addActionToQueue, List.eraseIdx_append_of_length_le]

/-- The texts that callers have brought, those first that are pushed. -/
def texts (w : Transport.World) : List Bytes := w.transport.history.pushed ++ w.callers

/-- Only a call brings a text. -/
theorem texts_step {w v : Transport.World} {a : Transport.Action}
    (hstep : Transport.step w a = some v) (hcall : ∀ contents, a ≠ .call contents) :
    (texts v).Perm (texts w) ∧ (w.callers.length ≤ 1 → texts v = texts w) ∧
      v.callers.length ≤ w.callers.length := by
  cases Transport.move_of_step hstep with
  | refused contents | call contents => exact absurd rfl (hcall contents)
  | push caller contents hcaller =>
      have hlt := (List.getElem?_eq_some_iff.mp hcaller).1
      refine ⟨?_, ?_, ?_⟩
      · simp only [texts, Transport.push, List.append_assoc, List.singleton_append]
        apply List.Perm.append_left
        rw [← (List.getElem?_eq_some_iff.mp hcaller).2]
        exact List.getElem_cons_eraseIdx_perm hlt
      · intro hone
        obtain ⟨only, honly⟩ := List.length_eq_one_iff.mp
          (show w.callers.length = 1 by omega)
        obtain rfl : caller = 0 := by omega
        rw [honly] at hcaller
        obtain rfl := Option.some.inj hcaller
        simp [texts, Transport.push, honly]
      · simp only [List.length_eraseIdx]
        split <;> omega
  | wait =>
      simp only [texts, Transport.performNoConnection]
      split <;> exact ⟨.refl _, fun _ => rfl, Nat.le_refl _⟩
  | _ => exact ⟨.refl _, fun _ => rfl, Nat.le_refl _⟩

theorem texts_call {w v : Transport.World} {contents : Bytes}
    (hstep : Transport.step w (.call contents) = some v) :
    v = w ∨ texts v = texts w ++ [contents] ∧ v.callers = w.callers ++ [contents] := by
  cases Transport.move_of_step hstep with
  | refused => exact Or.inl rfl
  | call => exact Or.inr ⟨by simp [texts], rfl⟩

/-- The floats that an action brings have been written by `dump_float`. -/
def Action.written : Action → Bool
  | .request r => r.written
  | .push _ | .stop | .work _ | .answer .. => true

/-- The identifier that an action uses up. -/
def Action.uuid? : Action → Option Uuid
  | .request r => r.call?.map fun c => c.uuid
  | .push _ | .stop | .work _ | .answer .. => none

/-- What every run keeps: each text names its event, and the transport has no
texts but those that the hub has handed over. -/
structure Inv (s : System) : Prop where
  connected : Transport.Connected s.world
  written : s.hub.scope.Written
  named : ∀ sent ∈ s.sent, readEventId sent.2 = some sent.1
  handed : (texts s.world).Subperm (s.sent.map Prod.snd)

end System

theorem exists_call_of_handsOver {h : Hub} {request : Api.Request} {eventId contents : Bytes}
    (hhands : Api.handsOver p h request = some (eventId, contents)) :
    ∃ c, request.call? = some c ∧ eventId = Hub.generateUuid c.uuid ∧
      h.contents c = .ok contents := by
  rw [Api.handsOver] at hhands
  split at hhands
  · obtain ⟨c, hcall, hmap⟩ := Option.bind_eq_some_iff.mp hhands
    obtain ⟨contents', hcontents, heq⟩ := Option.map_eq_some_iff.mp hmap
    cases heq
    refine ⟨c, hcall, rfl, ?_⟩
    rw [Hub.handsOver] at hcontents
    split at hcontents
    · exact eq_ok_of_toOption hcontents
    · cases hcontents
  · cases hhands

theorem call_written {request : Api.Request} (hrequest : request.written = true) {c : Call}
    (hcall : request.call? = some c) : c.event.floatsWritten = true := by
  cases request with
  | captureEvent call =>
      obtain rfl := Option.some.inj hcall
      exact hrequest
  | log level message uuid clock =>
      rw [Api.Request.call?] at hcall
      split at hcall
      · obtain rfl := Option.some.inj hcall
        rfl
      · cases hcall
  | addBreadcrumb | setTag | setExtra => cases hcall

namespace System

theorem Inv.step {s t : System} {a : Action} (h : Inv s) (hwritten : a.written = true)
    (hstep : step p s a = some t) : Inv t := by
  obtain ⟨hconnected, hscope, hnamed, hhanded⟩ := h
  cases move_of_step p hstep with
  | quiet request hnone =>
      exact ⟨hconnected, Api.written_serve p (h := s.current) hscope hwritten, hnamed, hhanded⟩
  | call request eventId contents world hsome hcall =>
      refine ⟨hconnected.step hcall, Api.written_serve p (h := s.current) hscope hwritten, ?_, ?_⟩
      · obtain ⟨c, hc, rfl, hcontents⟩ := exists_call_of_handsOver p hsome
        have hread := readEventId_contents (h := s.current) hscope (call_written hwritten hc)
          hcontents
        intro sent hsent
        rcases List.mem_append.mp hsent with hold | hnew
        · exact hnamed sent hold
        · rwa [List.mem_singleton.mp hnew]
      · rw [List.map_append]
        rcases texts_call hcall with rfl | ⟨htexts, -⟩
        · exact hhanded.trans (List.sublist_append_left _ _).subperm
        · rw [htexts]
          exact (List.subperm_append_right _).mpr hhanded
  | transport _ below world hbelow hworld =>
      refine ⟨hconnected.step hworld, hscope, hnamed, ?_⟩
      exact (texts_step hworld hbelow).1.subperm.trans hhanded

/-- The identifiers of what is handed over are those of the requests, in their
order. -/
theorem sent_of_run {s t : System} {schedule : List Action}
    (hrun : Transition.run (System.step p) s schedule = some t) :
    ∃ more, t.sent = s.sent ++ more ∧
      (more.map Prod.fst).Sublist ((schedule.filterMap Action.uuid?).map Hub.generateUuid) := by
  induction schedule generalizing s with
  | nil =>
      rw [Transition.run_nil] at hrun
      obtain rfl := Option.some.inj hrun
      exact ⟨[], by simp, by simp⟩
  | cons a schedule ih =>
      obtain ⟨u, hstep, hrest⟩ := Transition.run_cons_iff.mp hrun
      obtain ⟨more, hsent, hsub⟩ := ih hrest
      have hskip (hu : u.sent = s.sent) : ∃ more, t.sent = s.sent ++ more ∧
          (more.map Prod.fst).Sublist
            (((a :: schedule).filterMap Action.uuid?).map Hub.generateUuid) := by
        refine ⟨more, hu ▸ hsent, hsub.trans (List.Sublist.map _ ?_)⟩
        exact (List.sublist_cons_self a schedule).filterMap _
      cases move_of_step p hstep with
      | quiet => exact hskip rfl
      | call request eventId contents world hsome hcall =>
          obtain ⟨c, hc, rfl, -⟩ := exists_call_of_handsOver p hsome
          refine ⟨(Hub.generateUuid c.uuid, contents) :: more, by simpa using hsent, ?_⟩
          have huuid : (Action.request request).uuid? = some c.uuid := by
            rw [Action.uuid?, hc]
            rfl
          rw [List.filterMap_cons_some huuid, List.map_cons, List.map_cons]
          exact hsub.cons_cons _
      | transport => exact hskip rfl

end System

/-- A successful `init` leaves a connected transport that has been started. -/
theorem transport_of_init {h h' : Hub} {initParameters : SentryOptions} {dsnEnv : Option Bytes}
    {uninitialised : UInt64}
    (hinit : Api.init h initParameters dsnEnv uninitialised = some (.noError, h')) :
    ∃ dsn client, h'.httpClient =
      some (Transport.World.start uninitialised dsn (some client)).transport := by
  unfold Api.init at hinit
  split at hinit
  · cases hinit
  · obtain ⟨⟨errorCode, h₁⟩, hhub, hrest⟩ := Option.map_eq_some_iff.mp hinit
    rcases parseDSN_cases (Api.finalDsn initParameters dsnEnv) ⟨[], [], [], [], [], [], [], []⟩ with
      ⟨d, hparse⟩ | hparse
    · simp only [Hub.init, hparse, Option.bind_eq_some_iff, Option.map_eq_some_iff,
        Prod.mk.injEq] at hhub
      obtain ⟨h₂, -, t, hsetup, rfl, rfl⟩ := hhub
      obtain rfl := (Prod.mk.inj hrest).2
      rw [Transport.setupClient] at hsetup
      split at hsetup
      · rename_i host port _
        cases hsetup
        exact ⟨d, ⟨host, port⟩, (setOptions_scope _ initParameters).2.1⟩
      · cases hsetup
    · simp only [Hub.init, hparse, Option.some.injEq, Prod.mk.injEq] at hhub
      obtain ⟨rfl, rfl⟩ := hhub
      simp at hrest

/-- Two hexadecimal digits tell which byte it is. -/
theorem generateUuid_injective : Function.Injective Hub.generateUuid := by
  have hdigit {d e : Nat} (hd : d < 16) (he : e < 16) (h : digitChar d = digitChar e) : d = e := by
    have hvalue := digitOf_digitChar hd hd
    rw [h, digitOf_digitChar he he] at hvalue
    exact (Option.some.inj hvalue).symm
  have hbyte {b c : Byte} (hhigh : digitChar (b.toNat / 16) = digitChar (c.toNat / 16))
      (hlow : digitChar (b.toNat % 16) = digitChar (c.toNat % 16)) : b = c := by
    have hb := b.toNat_lt
    have hc := c.toNat_lt
    have hdiv := hdigit (by omega) (by omega) hhigh
    have hmod := hdigit (by omega) (by omega) hlow
    exact UInt8.toNat_inj.mp (by omega)
  have hbytes (bs cs : List Byte) (h : bs.length = cs.length)
      (heq : (bs.flatMap fun b => [digitChar (b.toNat / 16), digitChar (b.toNat % 16)]) =
        cs.flatMap fun b => [digitChar (b.toNat / 16), digitChar (b.toNat % 16)]) : bs = cs := by
    induction bs generalizing cs with
    | nil => exact (List.length_eq_zero_iff.mp h.symm).symm
    | cons b bs ih =>
        cases cs with
        | nil => cases h
        | cons c cs =>
            simp only [List.flatMap_cons, List.cons_append, List.nil_append,
              List.cons.injEq] at heq
            rw [hbyte heq.1 heq.2.1, ih cs (Nat.succ.inj h) heq.2.2]
  intro u v h
  cases u with
  | mk bs hbs =>
      cases v with
      | mk cs hcs =>
          obtain rfl := hbytes bs cs (hbs.trans hcs.symm) h
          rfl

namespace System

/-- A program that has called `init` with success. -/
structure Started (uninitialised : UInt64) (s : System) : Prop where
  begins : ∃ (userLogin hostName : Option Bytes) (initParameters : SentryOptions)
    (dsnEnv : Option Bytes) (hub : Hub) (transport : Transport),
    Api.init (Hub.new userLogin hostName) initParameters dsnEnv uninitialised =
      some (.noError, hub) ∧ hub.httpClient = some transport ∧ s = start hub transport

theorem inv_of_started {uninitialised : UInt64} {s : System} (h : Started uninitialised s) :
    Inv s ∧ s.sent = [] := by
  obtain ⟨userLogin, hostName, initParameters, dsnEnv, hub, transport, hinit, htransport, rfl⟩ :=
    h.begins
  obtain ⟨dsn, client, hclient⟩ := transport_of_init hinit
  obtain rfl := Option.some.inj (htransport.symm.trans hclient)
  refine ⟨⟨Transport.connected_start uninitialised dsn client,
    written_of_init (written_new _ _) hinit, by simp [start], ?_⟩, rfl⟩
  exact List.nil_subperm

theorem inv_of_run {uninitialised : UInt64} {s t : System} (hstart : Started uninitialised s)
    {schedule : List Action} (hwritten : ∀ a ∈ schedule, a.written = true)
    (hrun : Transition.run (step p) s schedule = some t) : Inv t :=
  Transition.run_invariant_of_allSteps (fun _ _ _ h hw hstep => h.step p hw hstep)
    (inv_of_started hstart).1 (Transition.allSteps_of_mem hwritten s) hrun

/-- The identifiers of the requests, in their order. -/
def eventIds (schedule : List Action) : List Bytes :=
  (schedule.filterMap Action.uuid?).map Hub.generateUuid

theorem readEventId_sent {t : System} (h : Inv t) :
    (t.sent.map Prod.snd).map readEventId = (t.sent.map Prod.fst).map some := by
  rw [List.map_map, List.map_map]
  exact List.map_congr_left h.named

/-- What the transport has got names the requests. -/
theorem readEventId_texts {t : System} (h : Inv t) :
    ((texts t.world).map readEventId).Subperm ((t.sent.map Prod.fst).map some) := by
  obtain ⟨l, hperm, hsub⟩ := h.handed
  exact readEventId_sent h ▸ ⟨l.map readEventId, hperm.map readEventId, hsub.map readEventId⟩

/-- Whatever the threads and the server do, each call that makes a POST has the
identifier of a request, and two with one identifier are the first attempt, which
was rejected, and its repetition. -/
theorem posts_named {uninitialised : UInt64} {s t : System} (hstart : Started uninitialised s)
    {schedule : List Action} (hwritten : ∀ a ∈ schedule, a.written = true)
    (hfresh : (schedule.filterMap Action.uuid?).Nodup)
    (hrun : Transition.run (step p) s schedule = some t) :
    (∀ post ∈ t.world.transport.history.posts, ∃ eventId ∈ eventIds schedule,
      readEventId post.content = some eventId) ∧
    ∀ (i j : Nat) (a b : Transport.Post), i < j → t.world.transport.history.posts[i]? = some a →
      t.world.transport.history.posts[j]? = some b →
      readEventId a.content = readEventId b.content →
      a.isRetrying = false ∧ b = { a with isRetrying := true } ∧
        ∃ outcome, t.world.transport.history.outcomes[i]? = some outcome ∧
          Transport.rejected outcome = true := by
  have hinv := inv_of_run p hstart hwritten hrun
  obtain ⟨more, hsent, hids⟩ := sent_of_run p hrun
  rw [(inv_of_started hstart).2, List.nil_append] at hsent
  have hnames := readEventId_texts hinv
  rw [hsent] at hnames
  constructor
  · intro post hpost
    have hpushed := List.mem_of_getElem? (hinv.connected.inv.content_of_attempt hpost)
    have hmem := hnames.subset (List.mem_map_of_mem (List.mem_append_left _ hpushed))
    obtain ⟨eventId, heventId, hread⟩ := List.mem_map.mp hmem
    exact ⟨eventId, hids.subset heventId, hread.symm⟩
  · intro i j a b hij ha hb hsame
    have hnodup : ((more.map Prod.fst).map some).Nodup :=
      ((hfresh.map generateUuid_injective).sublist hids).map (Option.some_injective _)
    have hkeys : (t.world.transport.history.pushed.map readEventId).Nodup := by
      obtain ⟨l, hperm, hsub⟩ := hnames
      have hall := hperm.nodup_iff.mp (hnodup.sublist hsub)
      rw [texts, List.map_append] at hall
      exact hall.of_append_left
    obtain ⟨hfirst, hagain, outcome, houtcome, hverdict⟩ :=
      hinv.connected.inv.again_of_key hkeys hij ha hb hsame
    exact ⟨hfirst, hagain, outcome, houtcome,
      (Transport.verdict_eq_rejected_iff outcome).mp hverdict⟩

/-- A program that reports to a local server. -/
def launched : Option System :=
  (Api.init (Hub.new none none) twoCrumbs none 0).bind fun result =>
    if result.1 = .noError then result.2.httpClient.map (start result.2) else none

theorem started_of_launched {s : System} (h : launched = some s) : Started 0 s := by
  obtain ⟨⟨errorCode, hub⟩, hinit, hrest⟩ := Option.bind_eq_some_iff.mp h
  split at hrest
  · rename_i hcode
    obtain ⟨transport, htransport, rfl⟩ := Option.map_eq_some_iff.mp hrest
    have hcode : errorCode = .noError := hcode
    exact ⟨none, none, twoCrumbs, none, hub, transport, hcode ▸ hinit, htransport, rfl⟩
  · cases hrest

def reportOf (message : Bytes) (uuid : Uuid) : Action :=
  .request (.captureEvent ⟨.object [(lit "message", .string message)], uuid, ⟨0, 0, 0, 0⟩⟩)

/-- The worker sends two events. The first is rejected and comes back behind
the second. -/
def firstRejected : List Action :=
  [.work 0, .work 10000000000, .work 0, .work 0, .work 0, .work 0,
    .answer (Transport.answerWith "500 Internal Server Error") 0, .work 0, .work 0,
    .work 0, .work 0, .work 0, .work 0, .answer (Transport.answerWith "200 OK") 0,
    .work 0, .work 0, .work 0, .work 0]

/-- The events are pushed in the order in which their callers get the lock. -/
def crossed : List Action :=
  [reportOf (lit "a") zeroUuid, reportOf (lit "b") onesUuid, .push 1, .push 0] ++ firstRejected

theorem posts_named_crossed :
    ∃ s t, Started 0 s ∧ Transition.run (step (platformOf [])) s crossed = some t ∧
      t.world.transport.history.posts.map (fun post => post.isRetrying) = [false, false, true] ∧
      ∀ post ∈ t.world.transport.history.posts, ∃ eventId ∈ eventIds crossed,
        readEventId post.content = some eventId := by
  have hposts : launched.bind (fun s =>
      (Transition.run (step (platformOf [])) s crossed).map fun t =>
        t.world.transport.history.posts.map fun post => post.isRetrying) =
      some [false, false, true] := by
    decide +kernel
  obtain ⟨s, hlaunched, hposts⟩ := Option.bind_eq_some_iff.mp hposts
  obtain ⟨t, hrun, hretrying⟩ := Option.map_eq_some_iff.mp hposts
  have hfresh : (crossed.filterMap Action.uuid?).Nodup :=
    List.Nodup.of_map (fun uuid => uuid.bytes) (by decide)
  have hstart := started_of_launched hlaunched
  exact ⟨s, t, hstart, hrun, hretrying,
    (posts_named (platformOf []) hstart (by decide) hfresh hrun).1⟩

/-- A request is made when no earlier caller is on its way to the queue. -/
def TakesTurns (s : System) : Action → Prop
  | .request _ => s.world.callers = []
  | .push _ | .stop | .work _ | .answer .. => True

instance (s : System) (a : Action) : Decidable (TakesTurns s a) := by
  unfold TakesTurns
  split <;> infer_instance

/-- With callers that take turns the transport gets the texts in the order in
which they are handed over. -/
structure InTurn (s : System) : Prop where
  callers : s.world.callers.length ≤ 1
  texts : (texts s.world).Sublist (s.sent.map Prod.snd)

theorem InTurn.step {s t : System} {a : Action} (h : InTurn s) (hturn : TakesTurns s a)
    (hstep : System.step p s a = some t) : InTurn t := by
  obtain ⟨hcallers, hsub⟩ := h
  cases move_of_step p hstep with
  | quiet => exact ⟨hcallers, hsub⟩
  | call request eventId contents world hsome hcall =>
      have hnone : s.world.callers = [] := hturn
      rcases texts_call hcall with rfl | ⟨htexts, hcaller⟩
      · refine ⟨hcallers, ?_⟩
        rw [List.map_append]
        exact hsub.trans (List.sublist_append_left _ _)
      · constructor
        · simp [hcaller, hnone]
        · rw [htexts, List.map_append]
          exact hsub.append (List.Sublist.refl _)
  | transport _ below world hbelow hworld =>
      obtain ⟨-, hsame, hfewer⟩ := texts_step hworld hbelow
      exact ⟨hfewer.trans hcallers, by rw [hsame hcallers]; exact hsub⟩

/-- With callers that take turns the client is asked to make the first attempts in
the order of the requests. -/
theorem posts_in_turn {uninitialised : UInt64} {s t : System} (hstart : Started uninitialised s)
    {schedule : List Action} (hwritten : ∀ a ∈ schedule, a.written = true)
    (hturns : Transition.AllSteps (step p) TakesTurns s schedule)
    (hrun : Transition.run (step p) s schedule = some t) :
    ((RetryQueue.firstAttempts t.world.transport.history.posts).map fun post =>
      readEventId post.content).Sublist ((eventIds schedule).map some) := by
  have hinv := inv_of_run p hstart hwritten hrun
  obtain ⟨more, hsent, hids⟩ := sent_of_run p hrun
  rw [(inv_of_started hstart).2, List.nil_append] at hsent
  have hbegin : InTurn s := by
    obtain ⟨_, _, _, _, hub, transport, hinit, htransport, rfl⟩ := hstart.begins
    obtain ⟨dsn, client, hclient⟩ := transport_of_init hinit
    obtain rfl := Option.some.inj (htransport.symm.trans hclient)
    exact ⟨Nat.zero_le _, List.nil_sublist _⟩
  have hturn : InTurn t := Transition.run_invariant_of_allSteps
    (fun _ _ _ h hturn hstep => h.step p hturn hstep) hbegin hturns hrun
  have hpushed : ((RetryQueue.firstAttempts t.world.transport.history.posts).map fun post =>
      post.content).Sublist (more.map Prod.snd) := by
    rw [← hsent]
    exact (hinv.connected.inv.firsts_prefix.sublist.trans
      (List.sublist_append_left _ _)).trans hturn.texts
  have hnames := hpushed.map readEventId
  rw [← hsent, readEventId_sent hinv, hsent, List.map_map] at hnames
  exact hnames.trans (hids.map some)

/-- Each event is pushed before the next one is captured. -/
def oneByOne : List Action :=
  [reportOf (lit "a") zeroUuid, .push 0, reportOf (lit "b") onesUuid, .push 0] ++ firstRejected

theorem posts_in_turn_oneByOne :
    ∃ s t, Started 0 s ∧ Transition.run (step (platformOf [])) s oneByOne = some t ∧
      t.world.transport.history.posts.length = 3 ∧
      ((RetryQueue.firstAttempts t.world.transport.history.posts).map fun post =>
        readEventId post.content).Sublist ((eventIds oneByOne).map some) := by
  have hturns : launched.bind (fun s =>
      (Transition.run (step (platformOf [])) s oneByOne).map fun t =>
        (t.world.transport.history.posts.length,
          decide (Transition.AllSteps (step (platformOf [])) TakesTurns s oneByOne))) =
      some (3, true) := by
    decide +kernel
  obtain ⟨s, hlaunched, hturns⟩ := Option.bind_eq_some_iff.mp hturns
  obtain ⟨t, hrun, hturns⟩ := Option.map_eq_some_iff.mp hturns
  obtain ⟨hposts, hturns⟩ := Prod.mk.inj hturns
  have hstart := started_of_launched hlaunched
  exact ⟨s, t, hstart, hrun, hposts, posts_in_turn (platformOf []) hstart (by decide)
    (of_decide_eq_true hturns) hrun⟩

end System

end Sentry
