import SentryCpp.Hub.Trail

/-!
The capacity for breadcrumbs. `addBreadcrumb` takes out at most one entry, so
it restores the bound only if the list was not too long before. After
`setMaxBreadcrumbs` has gone below the length of the list it never catches up:
the list stays too long until it is cleared or the maximum is raised again
(`kept_after_add_iff`). From the options the capacity goes through a cast to
16 bits (`capacity_honoured_iff`).
-/

namespace Sentry

open StdString

/-- A call that concerns the list of the breadcrumbs. -/
inductive CrumbCall where
  | setMaxBreadcrumbs (maxBreadcrumbs : UInt16)
  | addBreadcrumb (crumb : Json)
  | clearBreadcrumbs

/-- A scope, and the breadcrumbs added to it since the list was cleared. -/
structure CrumbHistory where
  scope : Scope
  added : List Json

namespace CrumbHistory

def step (t : CrumbHistory) : CrumbCall → CrumbHistory
  | .setMaxBreadcrumbs maxBreadcrumbs =>
      { t with scope := t.scope.setMaxBreadcrumbs maxBreadcrumbs }
  | .addBreadcrumb crumb => ⟨t.scope.addBreadcrumb crumb, t.added ++ [crumb]⟩
  | .clearBreadcrumbs => ⟨t.scope.clearBreadcrumbs, []⟩

def run (t : CrumbHistory) (calls : List CrumbCall) : CrumbHistory := calls.foldl step t

/-- A new scope. -/
def new (userLogin hostName : Option Bytes) : CrumbHistory := ⟨Scope.new userLogin hostName, []⟩

/-- The list is not longer than the maximum. -/
def Fits (t : CrumbHistory) : Prop :=
  t.scope.breadcrumbs.length ≤ t.scope.maxBreadcrumbs.toNat

/-- The list holds the breadcrumbs added last, in their order, and no more
than the maximum. -/
structure Kept (t : CrumbHistory) : Prop where
  bounded : t.Fits
  newest : t.scope.breadcrumbs <:+ t.added
  nonempty : 0 < t.scope.maxBreadcrumbs.toNat → t.scope.breadcrumbs ≠ []

end CrumbHistory

theorem max_addBreadcrumb (s : Scope) (crumb : Json) :
    (s.addBreadcrumb crumb).maxBreadcrumbs = s.maxBreadcrumbs := by
  rw [addBreadcrumb_eq]

theorem length_addBreadcrumb (s : Scope) (crumb : Json) :
    (s.addBreadcrumb crumb).breadcrumbs.length =
      if s.maxBreadcrumbs.toNat ≤ s.breadcrumbs.length then s.breadcrumbs.length
      else s.breadcrumbs.length + 1 := by
  rw [addBreadcrumb_eq]
  simp only [List.length_append, List.length_singleton]
  split <;> split <;> simp <;> omega

/-- With room for one breadcrumb the new one stands last. -/
theorem getLast?_addBreadcrumb {s : Scope} (hroom : 0 < s.maxBreadcrumbs.toNat) (crumb : Json) :
    (s.addBreadcrumb crumb).breadcrumbs.getLast? = some crumb := by
  rw [addBreadcrumb_eq]
  split
  · rename_i hfull
    rw [List.length_append, List.length_singleton] at hfull
    have hnonempty : s.breadcrumbs ≠ [] := by
      intro hnil
      rw [hnil, List.length_nil] at hfull
      omega
    rw [List.tail_append_of_ne_nil hnonempty, List.getLast?_concat]
  · rw [List.getLast?_concat]

/-- One entry out restores the bound exactly if it held before. -/
theorem fits_add_iff (t : CrumbHistory) (crumb : Json) :
    (t.step (.addBreadcrumb crumb)).Fits ↔ t.Fits := by
  simp only [CrumbHistory.Fits, CrumbHistory.step, max_addBreadcrumb, length_addBreadcrumb]
  split <;> omega

theorem newest_step {t : CrumbHistory} (h : t.scope.breadcrumbs <:+ t.added) (call : CrumbCall) :
    (t.step call).scope.breadcrumbs <:+ (t.step call).added := by
  cases call with
  | setMaxBreadcrumbs maxBreadcrumbs => exact h
  | clearBreadcrumbs => exact List.nil_suffix
  | addBreadcrumb crumb =>
      have hall : t.scope.breadcrumbs ++ [crumb] <:+ t.added ++ [crumb] :=
        (List.suffix_append_inj_of_length_eq rfl).mpr ⟨h, rfl⟩
      simp only [CrumbHistory.step, addBreadcrumb_eq]
      split
      · exact (List.tail_suffix _).trans hall
      · exact hall

/-- The run lemma: whatever the maximum was in between, the list holds the
breadcrumbs added last. -/
theorem newest_run {t : CrumbHistory} (h : t.scope.breadcrumbs <:+ t.added)
    (calls : List CrumbCall) : (t.run calls).scope.breadcrumbs <:+ (t.run calls).added := by
  induction calls generalizing t with
  | nil => exact h
  | cons call calls ih => exact ih (newest_step h call)

theorem fits_new (userLogin hostName : Option Bytes) :
    (CrumbHistory.new userLogin hostName).Fits := by
  rw [CrumbHistory.Fits, CrumbHistory.new, new_breadcrumbs]
  exact Nat.zero_le _

/-- Only a maximum below the length of the list loses the bound. -/
theorem fits_step_iff {t : CrumbHistory} (h : t.Fits) (call : CrumbCall) :
    (t.step call).Fits ↔ ∀ maxBreadcrumbs, call = .setMaxBreadcrumbs maxBreadcrumbs →
      t.scope.breadcrumbs.length ≤ maxBreadcrumbs.toNat := by
  cases call with
  | setMaxBreadcrumbs maxBreadcrumbs =>
      simp [CrumbHistory.Fits, CrumbHistory.step, Scope.setMaxBreadcrumbs]
  | addBreadcrumb crumb => simp [fits_add_iff, h]
  | clearBreadcrumbs => simp [CrumbHistory.Fits, CrumbHistory.step, Scope.clearBreadcrumbs]

/-- A run in which no maximum goes below the length of the list keeps the
bound. -/
theorem fits_of_room (userLogin hostName : Option Bytes) {calls : List CrumbCall}
    (hroom : ∀ before maxBreadcrumbs, before ++ [.setMaxBreadcrumbs maxBreadcrumbs] <+: calls →
      ((CrumbHistory.new userLogin hostName).run before).scope.breadcrumbs.length ≤
        maxBreadcrumbs.toNat) :
    ((CrumbHistory.new userLogin hostName).run calls).Fits := by
  induction calls using List.reverseRecOn with
  | nil => exact fits_new userLogin hostName
  | append_singleton calls call ih =>
      have hbefore : ((CrumbHistory.new userLogin hostName).run calls).Fits := by
        apply ih
        intro before maxBreadcrumbs hinitial
        exact hroom before maxBreadcrumbs (hinitial.trans (List.prefix_append _ _))
      rw [CrumbHistory.run, List.foldl_concat, ← CrumbHistory.run, fits_step_iff hbefore]
      rintro maxBreadcrumbs rfl
      exact hroom calls maxBreadcrumbs (List.prefix_refl _)

theorem kept_add_iff {t : CrumbHistory} (h : t.scope.breadcrumbs <:+ t.added) (crumb : Json) :
    (t.step (.addBreadcrumb crumb)).Kept ↔ t.Fits := by
  constructor
  · intro hkept
    exact (fits_add_iff t crumb).mp hkept.bounded
  · intro hfits
    refine ⟨(fits_add_iff t crumb).mpr hfits, newest_step h _, ?_⟩
    intro hroom hempty
    have hlast := getLast?_addBreadcrumb (s := t.scope) (by rwa [← max_addBreadcrumb t.scope crumb])
      crumb
    have hnil : (t.scope.addBreadcrumb crumb).breadcrumbs = [] := hempty
    rw [hnil] at hlast
    cases hlast

/-- In a run of calls every `addBreadcrumb` leaves at most the maximum, the
breadcrumbs added last, if and only if each of them finds a list that is not
longer than the maximum. -/
theorem kept_after_add_iff (userLogin hostName : Option Bytes) (calls : List CrumbCall) :
    (∀ before crumb, before ++ [.addBreadcrumb crumb] <+: calls →
      ((CrumbHistory.new userLogin hostName).run (before ++ [.addBreadcrumb crumb])).Kept) ↔
    ∀ before crumb, before ++ [.addBreadcrumb crumb] <+: calls →
      ((CrumbHistory.new userLogin hostName).run before).Fits := by
  have hnewest (before : List CrumbCall) :
      ((CrumbHistory.new userLogin hostName).run before).scope.breadcrumbs <:+
        ((CrumbHistory.new userLogin hostName).run before).added := by
    apply newest_run
    rw [CrumbHistory.new, new_breadcrumbs]
  apply forall₃_congr
  intro before crumb _
  rw [CrumbHistory.run, List.foldl_concat, ← CrumbHistory.run]
  exact kept_add_iff (hnewest before) crumb

/-- Two breadcrumbs, then a maximum of one, then one more breadcrumb. -/
def lowered : List CrumbCall :=
  [.addBreadcrumb .null, .addBreadcrumb .null, .setMaxBreadcrumbs 1, .addBreadcrumb .null]

theorem lowered_not_kept :
    ¬ ∀ (userLogin hostName : Option Bytes) (calls before : List CrumbCall) (crumb : Json),
      before ++ [.addBreadcrumb crumb] <+: calls →
        ((CrumbHistory.new userLogin hostName).run (before ++ [.addBreadcrumb crumb])).Kept := by
  intro hall
  have hkept := hall none none lowered (lowered.take 3) .null (List.prefix_refl _)
  have hbounded := hkept.bounded
  unfold CrumbHistory.Fits at hbounded
  revert hbounded
  decide

variable (p : Platform)

/-- The requests for breadcrumbs with these attributes, at these times. -/
def crumbRequests (crumbs : List (Json × Nat)) : List Api.Request :=
  crumbs.map fun crumb => .addBreadcrumb crumb.1 crumb.2

theorem recordedAll_crumbRequests (h : Hub) (crumbs : List (Json × Nat)) :
    Api.recordedAll p h (crumbRequests crumbs) = crumbs := by
  induction crumbs generalizing h with
  | nil => rfl
  | cons crumb crumbs ih =>
      rw [crumbRequests, List.map_cons, ← crumbRequests, Api.recordedAll, ih]
      rfl

/-- The hub honours the number of the options: it holds that many breadcrumbs,
or all of them if there are less, and a negative number is no capacity. -/
def Honoured (maxBreadcrumbs : Int) (h₀ : Hub) (crumbs : List (Json × Nat)) : Prop :=
  (0 ≤ maxBreadcrumbs →
    ((Api.serveAll p h₀ (crumbRequests crumbs)).scope.breadcrumbs.length : Int) =
      min (crumbs.length : Int) maxBreadcrumbs) ∧
  (maxBreadcrumbs < 0 → maxBreadcrumbs ≠ -1 → h₀.scope.maxBreadcrumbs.toNat = 0)

/-- The cast to 16 bits does not show. -/
def Representable (maxBreadcrumbs : Int) (k : Nat) : Prop :=
  maxBreadcrumbs = -1 ∨ (maxBreadcrumbs < 0 ∧ maxBreadcrumbs % 65536 = 0) ∨
    (0 ≤ maxBreadcrumbs ∧ (maxBreadcrumbs < 65536 ∨ (k : Int) ≤ maxBreadcrumbs % 65536))

/-- The capacity of the options is honoured if and only if it has 16 bits, or
the breadcrumbs fit in what is left of it. -/
theorem capacity_honoured_iff {userLogin hostName : Option Bytes} {before : List PublicCall}
    {h h₀ : Hub}
    (hbefore : Transition.run (publicStep p) (Hub.new userLogin hostName) before = some h)
    {initParameters : SentryOptions} {dsnEnv : Option Bytes} {uninitialised : UInt64}
    (hinit : Api.init h initParameters dsnEnv uninitialised = some (.noError, h₀))
    (crumbs : List (Json × Nat)) :
    Honoured p initParameters.maxBreadcrumbs h₀ crumbs ↔
      Representable initParameters.maxBreadcrumbs crumbs.length := by
  unfold Honoured Representable
  rcases Decidable.em (initParameters.maxBreadcrumbs = -1) with hsentinel | hset
  · simp [hsentinel]
  have hpublic : Public h := Transition.run_invariant (fun _ _ _ h hstep => h.step p hstep)
    (public_new userLogin hostName) hbefore
  have htrail := trailing_of_init hpublic hset hinit
  have hmod := toNat_ofInt16 initParameters.maxBreadcrumbs
  have hlength : (Api.serveAll p h₀ (crumbRequests crumbs)).scope.breadcrumbs.length =
      min (UInt16.ofInt initParameters.maxBreadcrumbs).toNat crumbs.length := by
    rw [(htrail.serveAll p _).breadcrumbs, List.length_map, length_lastOf, List.nil_append,
      recordedAll_crumbRequests]
  rw [hlength, htrail.capacity]
  omega

/-- Room for two breadcrumbs and three to record. -/
theorem capacity_honoured_twoCrumbs :
    ∃ h₀, Api.init (Hub.new none none) twoCrumbs none 0 = some (.noError, h₀) ∧
      Honoured (platformOf []) 2 h₀ [(.null, 0), (.null, 1), (.null, 2)] := by
  have hcode : (Api.init (Hub.new none none) twoCrumbs none 0).map Prod.fst = some .noError := by
    decide +kernel
  obtain ⟨⟨errorCode, h₀⟩, hinit, rfl⟩ := Option.map_eq_some_iff.mp hcode
  have hnew : Transition.run (publicStep (platformOf [])) (Hub.new none none) [] =
      some (Hub.new none none) := rfl
  have hfew : Representable twoCrumbs.maxBreadcrumbs 3 := by
    simp [Representable, twoCrumbs]
  exact ⟨h₀, hinit, (capacity_honoured_iff (platformOf []) hnew hinit
    [(.null, 0), (.null, 1), (.null, 2)]).mpr hfew⟩

/-- A local server, and one more than 16 bits can count. -/
def wrappedCapacity : SentryOptions := ⟨lit "http://key@localhost/1", [], [], 100, 65537, false⟩

/-- With `wrappedCapacity` there is room for one breadcrumb. -/
theorem wrappedCapacity_not_honoured :
    ¬ ∀ (p : Platform) (h h₀ : Hub) (before : List PublicCall) (initParameters : SentryOptions)
      (crumbs : List (Json × Nat)),
      Transition.run (publicStep p) (Hub.new none none) before = some h →
      Api.init h initParameters none 0 = some (.noError, h₀) →
      Honoured p initParameters.maxBreadcrumbs h₀ crumbs := by
  intro hall
  have hheld : (Api.init (Hub.new none none) wrappedCapacity none 0).map (fun result =>
      (result.1, (Api.serveAll (platformOf []) result.2
        (crumbRequests [(.null, 0), (.null, 1)])).scope.breadcrumbs.length)) =
      some (.noError, 1) := by decide +kernel
  obtain ⟨⟨errorCode, h₀⟩, hinit, hresult⟩ := Option.map_eq_some_iff.mp hheld
  obtain ⟨rfl, hone⟩ := Prod.mk.inj hresult
  have htwo := (hall (platformOf []) _ h₀ [] wrappedCapacity [(.null, 0), (.null, 1)] rfl
    hinit).1 (by decide)
  rw [hone] at htwo
  revert htwo
  decide

end Sentry
