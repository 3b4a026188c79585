import SentryCpp.Hub.Basic
import SentryCpp.Transport.Dsn

/-!
`init`. The settings go into the hub one by one before the DSN is parsed, and
a DSN that is refused leaves them there. A hub that refuses a DSN is unchanged
if and only if it had these settings before, which is `init_keeps_iff`. The
other two ways through `init` do better: without a DSN it returns before it
touches the hub, and the release and the environment are set behind the test
of the error code.

The process can end inside `init`, here `none`: on a port that is no number,
and on the destruction of a transport whose thread was not joined.
-/

namespace Sentry

open StdString

structure SentryOptions where
  dsn : Bytes
  release : Bytes
  environment : Bytes
  sampleRate : Int
  maxBreadcrumbs : Int
  attachStackTrace : Bool
  deriving DecidableEq, Repr

/-- A transport as `start` leaves it. -/
def Transport.start (t : Transport) : Transport := { t with running := true }

namespace Hub

/-- The part of `init` in front of the DSN. -/
def config (h : Hub) (maxBreadcrumbs : Int) (sourceAvailable : Bool) (sampleRate : Int) : Hub :=
  { h with
    scope :=
      if maxBreadcrumbs ≠ -1 then h.scope.setMaxBreadcrumbs (UInt16.ofInt maxBreadcrumbs)
      else h.scope
    isSourceAvailable := sourceAvailable
    sampleRate := sampleRate }

/-- The assignment of a new transport destroys the old one. Its thread is
joinable until `stop`, which sets the flag, has joined it. -/
def setHttpClient (h : Hub) (t : Transport) : Option Hub :=
  if h.httpClient.all fun old => old.shouldStop then some { h with httpClient := some t }
  else none

def init (h : Hub) (dsn : Bytes) (maxBreadcrumbs : Int) (sourceAvailable : Bool)
    (sampleRate : Int) (uninitialised : UInt64) : Option (EErrorCode × Hub) :=
  let h := h.config maxBreadcrumbs sourceAvailable sampleRate
  match SentryDSN.parseDSN dsn ⟨[], [], [], [], [], [], [], []⟩ with
  | (.noError, newDSNStruct) =>
      (h.setHttpClient (Transport.new uninitialised)).bind fun h =>
        ((Transport.new uninitialised).start.setupClient newDSNStruct).map fun t =>
          (.noError, { h with httpClient := some t, initialised := true })
  | (errorCode, _) => some (errorCode, h)

end Hub

namespace Api

/-- The DSN that `init` uses: that of the options, or else the value of
`SENTRY_DSN`. -/
def finalDsn (initParameters : SentryOptions) (dsnEnv : Option Bytes) : Bytes :=
  if initParameters.dsn = [] then dsnEnv.getD [] else initParameters.dsn

/-- The part of `init` behind the test of the error code. -/
def setOptions (h : Hub) (initParameters : SentryOptions) : Hub :=
  let h :=
    if initParameters.release ≠ [] then h.setTag (lit "release") initParameters.release else h
  if initParameters.environment ≠ [] then
    h.setTag (lit "environment") initParameters.environment
  else h

def init (h : Hub) (initParameters : SentryOptions) (dsnEnv : Option Bytes)
    (uninitialised : UInt64) : Option (EErrorCode × Hub) :=
  if finalDsn initParameters dsnEnv = [] then some (.noDsn, h)
  else
    (h.init (finalDsn initParameters dsnEnv) initParameters.maxBreadcrumbs
      initParameters.attachStackTrace initParameters.sampleRate uninitialised).map
      fun (errorCode, h) =>
        if errorCode ≠ .noError then (errorCode, h) else (errorCode, setOptions h initParameters)

end Api

/-- The hub after the settings of the options. -/
def Hub.configured (h : Hub) (initParameters : SentryOptions) : Hub :=
  h.config initParameters.maxBreadcrumbs initParameters.attachStackTrace
    initParameters.sampleRate

/-- The release and the environment are tags. -/
theorem setOptions_scope (h : Hub) (initParameters : SentryOptions) :
    (Api.setOptions h initParameters).initialised = h.initialised ∧
    (Api.setOptions h initParameters).httpClient = h.httpClient ∧
    (Api.setOptions h initParameters).scope.breadcrumbs = h.scope.breadcrumbs ∧
    (Api.setOptions h initParameters).scope.maxBreadcrumbs = h.scope.maxBreadcrumbs := by
  have htag (h : Hub) (key value : Bytes) : (h.setTag key value).initialised = h.initialised ∧
      (h.setTag key value).httpClient = h.httpClient ∧
      (h.setTag key value).scope.breadcrumbs = h.scope.breadcrumbs ∧
      (h.setTag key value).scope.maxBreadcrumbs = h.scope.maxBreadcrumbs := by
    unfold Hub.setTag
    split <;> exact ⟨rfl, rfl, rfl, rfl⟩
  unfold Api.setOptions
  split <;> split <;> simp [htag]

/-- A new transport has not been stopped. -/
theorem shouldStop_of_setupClient {uninitialised : UInt64} {dsn : SentryDSN} {t : Transport}
    (hsetup : (Transport.new uninitialised).start.setupClient dsn = some t) :
    t.shouldStop = false := by
  unfold Transport.setupClient at hsetup
  split at hsetup
  · cases hsetup
    rfl
  · cases hsetup

/-- The two ways out of `Hub::init`. -/
theorem hubInit_cases {h h' : Hub} {dsn : Bytes} {maxBreadcrumbs sampleRate : Int}
    {sourceAvailable : Bool} {uninitialised : UInt64} {errorCode : EErrorCode}
    (hinit : h.init dsn maxBreadcrumbs sourceAvailable sampleRate uninitialised =
      some (errorCode, h')) :
    (errorCode = .wrongDsn ∧ h' = h.config maxBreadcrumbs sourceAvailable sampleRate) ∨
    (errorCode = .noError ∧ (∀ old ∈ h.httpClient, old.shouldStop = true) ∧ ∃ t,
      t.shouldStop = false ∧
      h' = { h.config maxBreadcrumbs sourceAvailable sampleRate with
        httpClient := some t, initialised := true }) := by
  unfold Hub.init at hinit
  rcases parseDSN_cases dsn ⟨[], [], [], [], [], [], [], []⟩ with ⟨d, hparse⟩ | hparse
  · refine Or.inr ?_
    simp only [hparse, Option.bind_eq_some_iff, Option.map_eq_some_iff, Prod.mk.injEq] at hinit
    obtain ⟨h₁, hset, t, hsetup, rfl, rfl⟩ := hinit
    rw [Hub.setHttpClient] at hset
    split at hset
    · rename_i hstopped
      cases hset
      refine ⟨rfl, ?_, t, shouldStop_of_setupClient hsetup, rfl⟩
      intro old hold
      exact (Option.all_eq_true _ _).mp hstopped old hold
    · cases hset
  · simp only [hparse, Option.some.injEq, Prod.mk.injEq] at hinit
    exact Or.inl ⟨hinit.1.symm, hinit.2.symm⟩

/-- The three ways out of `init`. -/
theorem init_cases {h h' : Hub} {initParameters : SentryOptions} {dsnEnv : Option Bytes}
    {uninitialised : UInt64} {errorCode : EErrorCode}
    (hinit : Api.init h initParameters dsnEnv uninitialised = some (errorCode, h')) :
    (errorCode = .noDsn ∧ Api.finalDsn initParameters dsnEnv = [] ∧ h' = h) ∨
    (errorCode = .wrongDsn ∧ Api.finalDsn initParameters dsnEnv ≠ [] ∧
      h' = h.configured initParameters) ∨
    (errorCode = .noError ∧ (∀ old ∈ h.httpClient, old.shouldStop = true) ∧ ∃ t,
      t.shouldStop = false ∧ h' = Api.setOptions { h.configured initParameters with
        httpClient := some t, initialised := true } initParameters) := by
  unfold Api.init at hinit
  split at hinit
  · rename_i hdsn
    cases hinit
    exact Or.inl ⟨rfl, hdsn, rfl⟩
  · rename_i hdsn
    obtain ⟨⟨errorCode', h₁⟩, hhub, hrest⟩ := Option.map_eq_some_iff.mp hinit
    rcases hubInit_cases hhub with ⟨rfl, rfl⟩ | ⟨rfl, hstopped, t, ht, rfl⟩
    · cases hrest
      exact Or.inr (Or.inl ⟨rfl, hdsn, rfl⟩)
    · cases hrest
      exact Or.inr (Or.inr ⟨rfl, hstopped, t, ht, rfl⟩)

/-- The settings of the options are those that the hub has. -/
def SameSettings (h : Hub) (initParameters : SentryOptions) : Prop :=
  (initParameters.maxBreadcrumbs = -1 ∨
    UInt16.ofInt initParameters.maxBreadcrumbs = h.scope.maxBreadcrumbs) ∧
  initParameters.attachStackTrace = h.isSourceAvailable ∧
  initParameters.sampleRate = h.sampleRate

theorem configured_eq_self_iff (h : Hub) (initParameters : SentryOptions) :
    h.configured initParameters = h ↔ SameSettings h initParameters := by
  constructor
  · intro hsame
    refine ⟨?_, congrArg Hub.isSourceAvailable hsame, congrArg Hub.sampleRate hsame⟩
    have hcapacity := congrArg (fun h => h.scope.maxBreadcrumbs) hsame
    simp only [Hub.configured, Hub.config] at hcapacity
    split at hcapacity
    · exact Or.inr hcapacity
    · rename_i hsentinel
      exact Or.inl (not_not.mp hsentinel)
  · rintro ⟨hcapacity, hsource, hrate⟩
    simp only [Hub.configured, Hub.config, hsource, hrate]
    split
    · rename_i hset
      rw [hcapacity.resolve_left hset, Scope.setMaxBreadcrumbs]
    · rfl

/-- An `init` that fails leaves the hub as it was if and only if there was no
DSN at all, or there was nothing to set. -/
theorem init_keeps_iff {h h' : Hub} {initParameters : SentryOptions} {dsnEnv : Option Bytes}
    {uninitialised : UInt64} {errorCode : EErrorCode}
    (hinit : Api.init h initParameters dsnEnv uninitialised = some (errorCode, h'))
    (hfails : errorCode ≠ .noError) :
    h' = h ↔ Api.finalDsn initParameters dsnEnv = [] ∨ SameSettings h initParameters := by
  rcases init_cases hinit with ⟨-, hdsn, rfl⟩ | ⟨-, hdsn, rfl⟩ | ⟨hok, -⟩
  · exact iff_of_true rfl (Or.inl hdsn)
  · rw [configured_eq_self_iff, or_iff_right hdsn]
  · exact absurd hok hfails

/-- A DSN that is refused, with the given capacity for breadcrumbs. -/
def refusedOptions (maxBreadcrumbs : Int) : SentryOptions :=
  ⟨lit "localhost", [], [], 100, maxBreadcrumbs, false⟩

theorem parseDSN_refused (newDSNStruct : SentryDSN) :
    SentryDSN.parseDSN (lit "localhost") newDSNStruct = (.wrongDsn, newDSNStruct) := by
  have hnone : (Regex.search dsnPattern (lit "localhost")).isNone = true := by decide
  rw [SentryDSN.parseDSN, Option.isNone_iff_eq_none.mp hnone]

theorem init_refused (h : Hub) (maxBreadcrumbs : Int) (uninitialised : UInt64) :
    Api.init h (refusedOptions maxBreadcrumbs) none uninitialised =
      some (.wrongDsn, h.configured (refusedOptions maxBreadcrumbs)) := by
  have hdsn : Api.finalDsn (refusedOptions maxBreadcrumbs) none = lit "localhost" := rfl
  rw [Api.init, hdsn, if_neg (by decide), Hub.init, parseDSN_refused]
  rfl

/-- With the settings of a new hub nothing is lost. -/
theorem init_keeps_defaults :
    ∃ h', Api.init (Hub.new none none) (refusedOptions 100) none 0 = some (.wrongDsn, h') ∧
      h' = Hub.new none none :=
  ⟨_, init_refused _ _ _, (init_keeps_iff (init_refused _ _ 0) (by decide)).mpr
    (Or.inr ⟨Or.inr (by decide), rfl, rfl⟩)⟩

/-- A new hub that refuses a DSN keeps the capacity that came with it. -/
theorem init_refused_changes :
    ¬ ∀ (h h' : Hub) (initParameters : SentryOptions) (dsnEnv : Option Bytes)
      (uninitialised : UInt64) (errorCode : EErrorCode),
      Api.init h initParameters dsnEnv uninitialised = some (errorCode, h') →
      errorCode ≠ .noError → h' = h := by
  intro hall
  have hsame := hall (Hub.new none none) _ _ none 0 _ (init_refused _ 5 0) (by decide)
  exact absurd (congrArg (fun h => h.scope.maxBreadcrumbs) hsame) (by decide)

end Sentry
