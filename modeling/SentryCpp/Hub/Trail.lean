import SentryCpp.Hub.Api
import SentryCpp.Hub.Init
import SentryCpp.Hub.Payload
import SentryCpp.Hub.Window

/-!
The breadcrumbs that an event carries. The scope is a queue that loses its
oldest entry when it is full, so after a successful `init` with capacity `n`
it holds the last `n` of the breadcrumbs recorded since. An event takes them
as they are when it is captured. Its own breadcrumb is recorded behind that,
and only if the event is not dropped.
-/

namespace Sentry

open StdString Calendar

/-- The last `n` entries, oldest first. -/
def lastOf {α : Type*} (n : Nat) (l : List α) : List α := l.drop (l.length - n)

theorem length_lastOf {α : Type*} (n : Nat) (l : List α) :
    (lastOf n l).length = min n l.length := by
  rw [lastOf, List.length_drop]
  omega

/-- One more entry, and the oldest one out if there are too many. -/
theorem lastOf_concat {α : Type*} (n : Nat) (l : List α) (a : α) :
    lastOf n (l ++ [a]) =
      if n < (lastOf n l ++ [a]).length then (lastOf n l ++ [a]).tail else lastOf n l ++ [a] := by
  rw [List.length_append, length_lastOf, List.length_singleton]
  unfold lastOf
  rw [← List.drop_append_of_le_length (by omega)]
  split
  · rename_i hfull
    rw [List.tail_drop, List.length_append, List.length_singleton]
    congr 1
    omega
  · rename_i hroom
    rw [List.length_append, List.length_singleton]
    congr 1
    omega

theorem map_lastOf {α β : Type*} (f : α → β) (n : Nat) (l : List α) :
    (lastOf n l).map f = lastOf n (l.map f) := by
  simp [lastOf, List.map_drop]

/-- The fields of a breadcrumb for the attributes it is made from. -/
def crumbField (attributes : Json) (now : Nat) (key : Bytes) : Option Json :=
  if key = lit "timestamp" then some (.string (iso8601 now))
  else if key = lit "type" then some ((attributes.find key).getD (.string (lit "default")))
  else if key = lit "level" ∨ key = lit "category" then
    some ((attributes.find (lit "level")).getD (.string (lit "info")))
  else if key = lit "data" ∨ key = lit "message" then attributes.find key
  else none

/-- The value is a breadcrumb for the attributes. -/
def IsCrumb (attributes : Json) (now : Nat) (crumb : Json) : Prop :=
  ∃ members, crumb = .object members ∧
    ∀ key, Json.lookup key members = crumbField attributes now key

theorem lookup_copyField (attributes : Json) (key : Bytes) (members : List (Bytes × Json))
    (other : Bytes) :
    Json.lookup other (Hub.copyField attributes key members) =
      if other = key then (attributes.find key).or (Json.lookup key members)
      else Json.lookup other members := by
  unfold Hub.copyField
  split
  · rename_i value hfind
    rw [Json.lookup_insertOrAssign, hfind, Option.some_or]
  · rename_i hfind
    rw [hfind, Option.none_or]
    split
    · rename_i heq
      rw [heq]
    · rfl

theorem isCrumb_breadcrumbOf (attributes : Json) (now : Nat) :
    IsCrumb attributes now (.object (Hub.breadcrumbOf attributes (iso8601 now))) := by
  refine ⟨_, rfl, ?_⟩
  intro key
  simp only [Hub.breadcrumbOf, Json.lookup_insertOrAssign, lookup_copyField, Json.lookup_cons,
    Json.lookup_nil, crumbField]
  rcases Decidable.em (key = lit "category") with rfl | hcategory
  · simp +decide [Option.or_some]
  rcases Decidable.em (key = lit "level") with rfl | hlevel
  · simp +decide [Option.or_some]
  rcases Decidable.em (key = lit "type") with rfl | htype
  · simp +decide [Option.or_some]
  rcases Decidable.em (key = lit "timestamp") with rfl | htimestamp
  · simp +decide
  rcases Decidable.em (key = lit "data") with rfl | hdata
  · simp +decide
  rcases Decidable.em (key = lit "message") with rfl | hmessage
  · simp +decide
  simp [hcategory, hlevel, htype, htimestamp, hdata, hmessage, Ne.symm hlevel, Ne.symm htype,
    Ne.symm htimestamp]

variable (p : Platform)

/-- What a call of `captureEvent` records: the event, if it is not dropped. -/
def Api.capturedBy (h : Hub) (c : Call) : List (Json × Nat) :=
  match (captureEvent p h c).1 with
  | .ok eventId => if eventId = [] then [] else [(c.event, c.clock.crumb)]
  | .error _ => []

/-- The breadcrumbs that a request records, as the attributes and the times
they are made from. -/
def Api.recordedBy (h : Hub) : Request → List (Json × Nat)
  | .captureEvent c => capturedBy p h c
  | .addBreadcrumb crumb now => [(crumb, now)]
  | .setTag .. | .setExtra .. => []
  | .log level message uuid clock =>
      if isReported level then capturedBy p h ⟨logEvent level message, uuid, clock⟩
      else [(logBreadcrumb level message, clock.crumb)]

def Api.recordedAll (h : Hub) : List Request → List (Json × Nat)
  | [] => []
  | request :: requests => recordedBy p h request ++ recordedAll (serve p h request) requests

/-- The breadcrumb that is recorded. -/
def crumbOf (recorded : Json × Nat) : Json :=
  .object (Hub.breadcrumbOf recorded.1 (iso8601 recorded.2))

/-- The scope of a hub in use holds the last breadcrumbs recorded. -/
structure Trailing (n : Nat) (recorded : List (Json × Nat)) (h : Hub) : Prop where
  initialised : h.initialised = true
  capacity : h.scope.maxBreadcrumbs.toNat = n
  breadcrumbs : h.scope.breadcrumbs = (lastOf n recorded).map crumbOf

theorem addBreadcrumb_eq (s : Scope) (crumb : Json) :
    s.addBreadcrumb crumb = { s with
      breadcrumbs :=
        if s.maxBreadcrumbs.toNat < (s.breadcrumbs ++ [crumb]).length then
          (s.breadcrumbs ++ [crumb]).tail
        else s.breadcrumbs ++ [crumb] } := by
  unfold Scope.addBreadcrumb
  simp only
  split <;> rfl

theorem Trailing.addBreadcrumb {n : Nat} {recorded : List (Json × Nat)} {h : Hub}
    (ht : Trailing n recorded h) (attributes : Json) (now : Nat) :
    Trailing n (recorded ++ [(attributes, now)]) (h.addBreadcrumb attributes now) := by
  simp only [Hub.addBreadcrumb, addBreadcrumb_eq]
  refine ⟨ht.initialised, ht.capacity, ?_⟩
  rw [map_lastOf, List.map_append, List.map_singleton, lastOf_concat, ← map_lastOf,
    ← ht.breadcrumbs, ← ht.capacity, crumbOf]

/-- Only an event that is not dropped changes the scope. -/
theorem Trailing.captureEvent {n : Nat} {recorded : List (Json × Nat)} {h : Hub}
    (ht : Trailing n recorded h) (c : Call) :
    Trailing n (recorded ++ Api.capturedBy p h c)
      (h.captureEvent p c.event c.uuid c.clock).2 := by
  have hentered : Trailing n recorded (h.entered p c) :=
    ⟨ht.initialised, ht.capacity, ht.breadcrumbs⟩
  rw [Api.capturedBy, Api.captureEvent_of_initialised p ht.initialised]
  rcases captureEvent_cases p h c with ⟨-, e, hcapture⟩ | ⟨-, -, hcapture⟩ |
    ⟨-, -, e, -, hcapture⟩ | ⟨-, -, contents, -, hcapture⟩
  · simpa [hcapture] using hentered
  · simpa [hcapture] using hentered
  · simpa [hcapture] using hentered
  · simp only [hcapture, if_neg (generateUuid_ne_nil c.uuid)]
    apply Trailing.addBreadcrumb
    rw [sendSampled_eq]
    exact ⟨ht.initialised, ht.capacity, ht.breadcrumbs⟩

theorem Trailing.serve {n : Nat} {recorded : List (Json × Nat)} {h : Hub}
    (ht : Trailing n recorded h) (request : Api.Request) :
    Trailing n (recorded ++ Api.recordedBy p h request) (Api.serve p h request) := by
  generalize hserve : Api.serve p h request = h'
  cases Api.served_of_serve p hserve with
  | refused _ hnot =>
      rw [ht.initialised] at hnot
      cases hnot
  | captureEvent c => exact ht.captureEvent p c
  | addBreadcrumb crumb now => exact ht.addBreadcrumb crumb now
  | setTag key value =>
      rw [Api.recordedBy, List.append_nil]
      unfold Hub.setTag
      split <;> exact ⟨ht.initialised, ht.capacity, ht.breadcrumbs⟩
  | setExtra key value =>
      rw [Api.recordedBy, List.append_nil]
      exact ⟨ht.initialised, ht.capacity, ht.breadcrumbs⟩
  | reported level message uuid clock _ hlevel =>
      rw [Api.recordedBy, if_pos hlevel]
      exact ht.captureEvent p ⟨Api.logEvent level message, uuid, clock⟩
  | logged level message uuid clock _ hlevel =>
      rw [Api.recordedBy, if_neg (by simp [hlevel])]
      exact ht.addBreadcrumb (Api.logBreadcrumb level message) clock.crumb

/-- The run lemma. -/
theorem Trailing.serveAll {n : Nat} {recorded : List (Json × Nat)} {h : Hub}
    (ht : Trailing n recorded h) (requests : List Api.Request) :
    Trailing n (recorded ++ Api.recordedAll p h requests) (Api.serveAll p h requests) := by
  induction requests generalizing recorded h with
  | nil => simpa [Api.recordedAll, Api.serveAll] using ht
  | cons request requests ih =>
      have hrest := ih (ht.serve p request)
      rwa [List.append_assoc] at hrest

/-- A call of the program, `init` among them. -/
inductive PublicCall where
  | init (initParameters : SentryOptions) (dsnEnv : Option Bytes) (uninitialised : UInt64)
  | request (request : Api.Request)

/-- The hub after the call, unless the process has ended. -/
def publicStep (h : Hub) : PublicCall → Option Hub
  | .init initParameters dsnEnv uninitialised =>
      (Api.init h initParameters dsnEnv uninitialised).map Prod.snd
  | .request request => some (Api.serve p h request)

/-- A hub with a transport that nobody has stopped. -/
structure Running (h : Hub) : Prop where
  initialised : h.initialised = true
  transport : ∃ t, h.httpClient = some t ∧ t.shouldStop = false

/-- A hub as the calls of a program leave it: never initialised and without
breadcrumbs, or running. -/
def Public (h : Hub) : Prop :=
  (h.initialised = false ∧ h.scope.breadcrumbs = []) ∨ Running h

theorem running_iff (h : Hub) : Running h ↔ h.initialised = true ∧ h.stopped = some false := by
  constructor
  · rintro ⟨hinitialised, t, hclient, hstop⟩
    exact ⟨hinitialised, by rw [Hub.stopped, hclient, Option.map_some, hstop]⟩
  · rintro ⟨hinitialised, hstopped⟩
    exact ⟨hinitialised, Option.map_eq_some_iff.mp hstopped⟩

theorem Running.serve {h : Hub} (hr : Running h) (request : Api.Request) :
    Running (Api.serve p h request) := by
  rw [running_iff] at hr ⊢
  rw [initialised_serve, stopped_serve]
  exact hr

/-- Nothing is served before `init`. -/
theorem serve_of_not_initialised {h : Hub} (hnot : h.initialised = false)
    (request : Api.Request) : Api.serve p h request = h := by
  generalize hserve : Api.serve p h request = h'
  cases Api.served_of_serve p hserve with
  | refused => rfl
  | _ => simp_all

theorem configured_breadcrumbs (h : Hub) (initParameters : SentryOptions) :
    (h.configured initParameters).scope.breadcrumbs = h.scope.breadcrumbs := by
  simp only [Hub.configured, Hub.config]
  split <;> rfl

theorem Public.step {h h' : Hub} (hpublic : Public h) {call : PublicCall}
    (hstep : publicStep p h call = some h') : Public h' := by
  cases call with
  | request request =>
      cases hstep
      rcases hpublic with ⟨hnot, hcrumbs⟩ | hr
      · rw [serve_of_not_initialised p hnot]
        exact Or.inl ⟨hnot, hcrumbs⟩
      · exact Or.inr (hr.serve p request)
  | init initParameters dsnEnv uninitialised =>
      obtain ⟨⟨errorCode, h₁⟩, hinit, rfl⟩ := Option.map_eq_some_iff.mp hstep
      rcases init_cases hinit with ⟨-, -, rfl⟩ | ⟨-, -, rfl⟩ | ⟨-, -, t, ht, rfl⟩
      · exact hpublic
      · rcases hpublic with ⟨hnot, hcrumbs⟩ | hr
        · exact Or.inl ⟨hnot, by rw [configured_breadcrumbs, hcrumbs]⟩
        · exact Or.inr ⟨hr.initialised, hr.transport⟩
      · obtain ⟨hinitialised, hclient, -, -⟩ := setOptions_scope
          { h.configured initParameters with httpClient := some t, initialised := true }
          initParameters
        exact Or.inr ⟨hinitialised, t, hclient, ht⟩

/-- A successful `init` finds a hub that was never initialised. The capacity
is the number of the options in 16 bits. -/
theorem trailing_of_init {h h₀ : Hub} (hpublic : Public h) {initParameters : SentryOptions}
    {dsnEnv : Option Bytes} {uninitialised : UInt64} (hset : initParameters.maxBreadcrumbs ≠ -1)
    (hinit : Api.init h initParameters dsnEnv uninitialised = some (.noError, h₀)) :
    Trailing (UInt16.ofInt initParameters.maxBreadcrumbs).toNat [] h₀ := by
  rcases init_cases hinit with ⟨hcode, -⟩ | ⟨hcode, -⟩ | ⟨-, hstopped, t, -, rfl⟩
  · cases hcode
  · cases hcode
  · obtain ⟨hinitialised, -, hcrumbs, hmax⟩ := setOptions_scope
      { h.configured initParameters with httpClient := some t, initialised := true } initParameters
    rcases hpublic with ⟨-, hempty⟩ | ⟨-, old, hclient, hrunning⟩
    · refine ⟨hinitialised, ?_, ?_⟩
      · rw [hmax]
        simp only [Hub.configured, Hub.config]
        rw [if_pos hset, Scope.setMaxBreadcrumbs]
      · rw [hcrumbs, configured_breadcrumbs, hempty]
        simp [lastOf]
    · have hstop := hstopped old (by rw [hclient]; rfl)
      rw [hrunning] at hstop
      cases hstop

/-- The number of an `int` in 16 bits. -/
theorem toNat_ofInt16 (n : Int) : ((UInt16.ofInt n).toNat : Int) = n % 65536 := by
  rw [UInt16.ofInt, UInt16.toNat_ofNat']
  omega

theorem lookup_parts_breadcrumbs (s : Scope) :
    Json.lookup (lit "breadcrumbs") s.parts =
      if s.breadcrumbs = [] then none else some s.getBreadcrumbs := by
  have hother (c : Prop) [Decidable c] (key : Bytes) (value : Json)
      (hkey : key ≠ lit "breadcrumbs") :
      Json.lookup (lit "breadcrumbs") (if c then [(key, value)] else []) = none ∧
        Json.lookup (lit "breadcrumbs") (if c then [] else [(key, value)]) = none := by
    split <;> simp [Json.lookup_cons, hkey]
  have hlevel : lit "level" ≠ lit "breadcrumbs" := by decide
  simp only [Scope.parts, Json.lookup_append, Json.lookup_cons, Json.lookup_nil, if_neg hlevel,
    (hother _ (lit "tags") _ (by decide)).2, (hother _ (lit "extra") _ (by decide)).2,
    (hother _ (lit "transaction") _ (by decide)).1, (hother _ (lit "release") _ (by decide)).1,
    Option.or_none]
  by_cases hcrumbs : s.breadcrumbs = []
  · rw [if_neg (not_not.mpr hcrumbs), if_pos hcrumbs, Json.lookup_nil]
  · rw [if_pos hcrumbs, if_neg hcrumbs, Json.lookup_cons, if_pos rfl]

theorem new_breadcrumbs (userLogin hostName : Option Bytes) :
    (Scope.new userLogin hostName).breadcrumbs = [] := by
  cases userLogin <;> cases hostName <;> rfl

theorem public_new (userLogin hostName : Option Bytes) : Public (Hub.new userLogin hostName) :=
  Or.inl ⟨rfl, new_breadcrumbs userLogin hostName⟩

/-- An event that is not dropped has a payload, which is an object. -/
theorem payload_of_captured {h : Hub} {c : Call} {eventId : Bytes}
    (hcapture : (Api.captureEvent p h c).1 = .ok eventId) (hsent : eventId ≠ [])
    (hinitialised : h.initialised = true) :
    ∃ members, (∀ key, c.event.find key = Json.lookup key members) ∧
      Hub.payload h.scope c.event (Hub.generateUuid c.uuid) (iso8601 c.clock.timestamp) =
        .ok (.object (insertAll h.scope.parts
          (stamped members (Hub.generateUuid c.uuid) (iso8601 c.clock.timestamp)))) := by
  rw [Api.captureEvent_of_initialised p hinitialised] at hcapture
  rcases captureEvent_cases p h c with ⟨-, e, hcase⟩ | ⟨-, -, hcase⟩ |
    ⟨-, -, e, -, hcase⟩ | ⟨-, -, contents, hcontents, -⟩
  · simp [hcase] at hcapture
  · rw [hcase] at hcapture
    exact absurd (Except.ok.inj hcapture).symm hsent
  · simp [hcase] at hcapture
  · unfold Hub.contents at hcontents
    rcases payload_cases h.scope c.event (Hub.generateUuid c.uuid)
      (iso8601 c.clock.timestamp) with ⟨-, e, herror⟩ | ⟨members, -, hfind, hok⟩
    · simp [herror, bind, Except.bind] at hcontents
    · exact ⟨members, hfind, hok⟩

/-- The breadcrumbs in the payload of every event that is not dropped and has
none of its own. -/
theorem payload_breadcrumbs {userLogin hostName : Option Bytes} {before : List PublicCall}
    {h h₀ : Hub}
    (hbefore : Transition.run (publicStep p) (Hub.new userLogin hostName) before = some h)
    {initParameters : SentryOptions} {dsnEnv : Option Bytes} {uninitialised : UInt64} {n : Nat}
    (hcapacity : initParameters.maxBreadcrumbs = n) (hn : n ≤ 65535)
    (hinit : Api.init h initParameters dsnEnv uninitialised = some (.noError, h₀))
    (requests : List Api.Request) (c : Call) {eventId : Bytes}
    (hcapture : (Api.captureEvent p (Api.serveAll p h₀ requests) c).1 = .ok eventId)
    (hsent : eventId ≠ []) (hown : c.event.find (lit "breadcrumbs") = none) :
    ∃ payload crumbs,
      Hub.payload (Api.serveAll p h₀ requests).scope c.event (Hub.generateUuid c.uuid)
        (iso8601 c.clock.timestamp) = .ok payload ∧
      List.Forall₂ (fun recorded crumb => IsCrumb recorded.1 recorded.2 crumb)
        (lastOf n (Api.recordedAll p h₀ requests)) crumbs ∧
      payload.find (lit "breadcrumbs") =
        if crumbs = [] then none else some (.object [(lit "values", .array crumbs)]) := by
  have hpublic : Public h := Transition.run_invariant (fun _ _ _ h hstep => h.step p hstep)
    (public_new userLogin hostName) hbefore
  have hnarrow : (UInt16.ofInt initParameters.maxBreadcrumbs).toNat = n := by
    have hmod := toNat_ofInt16 initParameters.maxBreadcrumbs
    omega
  have htrail : Trailing n (Api.recordedAll p h₀ requests) (Api.serveAll p h₀ requests) :=
    hnarrow ▸ (trailing_of_init hpublic (by omega) hinit).serveAll p requests
  obtain ⟨members, hmembers, hpayload⟩ := payload_of_captured p hcapture hsent htrail.initialised
  refine ⟨_, (Api.serveAll p h₀ requests).scope.breadcrumbs, hpayload, ?_, ?_⟩
  · rw [htrail.breadcrumbs, List.forall₂_map_right_iff, List.forall₂_same]
    intro recorded _
    exact isCrumb_breadcrumbOf recorded.1 recorded.2
  · rw [Json.find, lookup_insertAll, lookup_stamped (by decide), ← hmembers, hown, Option.none_or,
      lookup_parts_breadcrumbs, Scope.getBreadcrumbs]

/-- A local server, and room for two breadcrumbs. -/
def twoCrumbs : SentryOptions := ⟨lit "http://key@localhost/1", [], [], 100, 2, false⟩

/-- Three breadcrumbs, one more than there is room for. -/
def threeCrumbs : List Api.Request :=
  [.addBreadcrumb (.object [(lit "message", .string (lit "a"))]) 0, .addBreadcrumb .null 1,
    .log .info (lit "b") zeroUuid ⟨2, 2, 2, 2⟩]

theorem payload_breadcrumbs_threeCrumbs :
    ∃ h₀ payload crumbs,
      Api.init (Hub.new none none) twoCrumbs none 0 = some (.noError, h₀) ∧
      Hub.payload (Api.serveAll (platformOf []) h₀ threeCrumbs).scope .null
        (Hub.generateUuid zeroUuid) (iso8601 3) = .ok payload ∧
      crumbs.length = 2 ∧
      payload.find (lit "breadcrumbs") =
        some (.object [(lit "values", .array crumbs)]) := by
  have hreported : (Api.init (Hub.new none none) twoCrumbs none 0).map (fun result =>
      (result.1, (Api.captureEvent (platformOf []) (Api.serveAll (platformOf []) result.2
        threeCrumbs) ⟨.null, zeroUuid, ⟨3, 3, 3, 3⟩⟩).1.toOption)) =
      some (.noError, some (Hub.generateUuid zeroUuid)) := by decide +kernel
  obtain ⟨⟨errorCode, h₀⟩, hinit, hresult⟩ := Option.map_eq_some_iff.mp hreported
  obtain ⟨rfl, hid⟩ := Prod.mk.inj hresult
  have hnew : Transition.run (publicStep (platformOf [])) (Hub.new none none) [] =
      some (Hub.new none none) := rfl
  obtain ⟨payload, crumbs, hpayload, hcrumbs, hfind⟩ := payload_breadcrumbs (platformOf [])
    hnew rfl (by decide) hinit threeCrumbs
    ⟨.null, zeroUuid, ⟨3, 3, 3, 3⟩⟩ (eq_ok_of_toOption hid) (generateUuid_ne_nil zeroUuid) rfl
  have hlength : crumbs.length = 2 := hcrumbs.length_eq.symm
  refine ⟨h₀, payload, crumbs, hinit, hpayload, hlength, ?_⟩
  rw [hfind, if_neg]
  rintro rfl
  cases hlength

end Sentry
