import SentryCpp.Hub.Atomicity
import SentryCpp.Hub.Capacity

/-!
The breadcrumb that a call of `log` leaves. Below `LEVEL_ERROR` the call
records it itself. From there on it leaves it to `captureEvent`, which records
its breadcrumb behind the return for an event that the limiter drops. So the
trail has a gap wherever an event was dropped, and nowhere else.
-/

namespace Sentry

open StdString Calendar

/-- The breadcrumb of a call of `log`: the message, the level, and the time at which
it is recorded. -/
structure IsLogged (level : EventLevel) (message : Bytes) (now : Nat) (crumb : Json) : Prop where
  message : crumb.find (lit "message") = some (.string message)
  level : crumb.find (lit "level") = some (.string (levelToString level))
  timestamp : crumb.find (lit "timestamp") = some (.string (iso8601 now))

/-- From `s` to `s'` there is one breadcrumb more, and it is that of the call. -/
def LeavesCrumb (level : EventLevel) (message : Bytes) (now : Nat) (s s' : Scope) : Prop :=
  ∃ crumb, s'.breadcrumbs = (s.addBreadcrumb crumb).breadcrumbs ∧
    s'.breadcrumbs.getLast? = some crumb ∧ IsLogged level message now crumb

/-- The list is full of one breadcrumb, recorded in this very second for the same
message and level. Then a value does not tell whether there is one more. -/
def Saturated (level : EventLevel) (message : Bytes) (now : Nat) (s : Scope) : Prop :=
  s.maxBreadcrumbs.toNat ≤ s.breadcrumbs.length ∧
    ∃ crumb, (∀ breadcrumb ∈ s.breadcrumbs, breadcrumb = crumb) ∧
      IsLogged level message now crumb

theorem cons_eq_concat_iff (first last : Json) (crumbs : List Json) :
    first :: crumbs = crumbs ++ [last] ↔ ∀ breadcrumb ∈ first :: crumbs, breadcrumb = last := by
  induction crumbs generalizing first with
  | nil => simp
  | cons second crumbs ih =>
      rw [List.cons_append, List.cons.injEq, ih, List.forall_mem_cons (a := first)]
      constructor
      · rintro ⟨rfl, hall⟩
        exact ⟨hall first List.mem_cons_self, hall⟩
      · rintro ⟨rfl, hall⟩
        exact ⟨(hall second List.mem_cons_self).symm, hall⟩

/-- A list stays as it is only if it is full, and of one breadcrumb. -/
theorem addBreadcrumb_eq_self_iff {s : Scope} (hroom : 0 < s.maxBreadcrumbs.toNat) (crumb : Json) :
    s.breadcrumbs = (s.addBreadcrumb crumb).breadcrumbs ↔
      s.maxBreadcrumbs.toNat ≤ s.breadcrumbs.length ∧
        ∀ breadcrumb ∈ s.breadcrumbs, breadcrumb = crumb := by
  rw [addBreadcrumb_eq]
  simp only [List.length_append, List.length_singleton]
  split
  · rename_i hfull
    rw [and_iff_right (by omega)]
    cases hcrumbs : s.breadcrumbs with
    | nil =>
        rw [hcrumbs, List.length_nil] at hfull
        omega
    | cons first crumbs => exact cons_eq_concat_iff first crumb crumbs
  · rename_i hfew
    constructor
    · intro hsame
      have hlength := congrArg List.length hsame
      simp at hlength
    · rintro ⟨hfull, -⟩
      omega

/-- Where nothing happens, a breadcrumb can be seen only in a list full of it. -/
theorem leavesCrumb_self_iff {level : EventLevel} {message : Bytes} {now : Nat} {s : Scope}
    (hroom : 0 < s.maxBreadcrumbs.toNat) :
    LeavesCrumb level message now s s ↔ Saturated level message now s := by
  constructor
  · rintro ⟨crumb, hsame, -, hlogged⟩
    obtain ⟨hfull, hall⟩ := (addBreadcrumb_eq_self_iff hroom crumb).mp hsame
    exact ⟨hfull, crumb, hall, hlogged⟩
  · rintro ⟨hfull, crumb, hall, hlogged⟩
    have hsame := (addBreadcrumb_eq_self_iff hroom crumb).mpr ⟨hfull, hall⟩
    refine ⟨crumb, hsame, ?_, hlogged⟩
    rw [hsame, getLast?_addBreadcrumb hroom]

theorem isLogged_breadcrumbOf {level : EventLevel} {message : Bytes} {attributes : Json}
    (hmessage : attributes.find (lit "message") = some (.string message))
    (hlevel : attributes.find (lit "level") = some (.string (levelToString level))) (now : Nat) :
    IsLogged level message now (.object (Hub.breadcrumbOf attributes (iso8601 now))) := by
  obtain ⟨members, hmembers, hfield⟩ := isCrumb_breadcrumbOf attributes now
  rw [hmembers]
  constructor
  · rw [Json.find, hfield, ← hmessage]
    rfl
  · rw [Json.find, hfield, crumbField, if_neg (by decide), if_neg (by decide),
      if_pos (Or.inl rfl), hlevel, Option.getD_some]
  · rw [Json.find, hfield, crumbField, if_pos rfl]

theorem leavesCrumb_addBreadcrumb {level : EventLevel} {message : Bytes} {attributes : Json}
    (hmessage : attributes.find (lit "message") = some (.string message))
    (hlevel : attributes.find (lit "level") = some (.string (levelToString level)))
    {h : Hub} (hroom : 0 < h.scope.maxBreadcrumbs.toNat) (now : Nat) :
    LeavesCrumb level message now h.scope (h.addBreadcrumb attributes now).scope :=
  ⟨_, rfl, getLast?_addBreadcrumb hroom _, isLogged_breadcrumbOf hmessage hlevel now⟩

variable (p : Platform)

/-- The call of `captureEvent` that `log` makes. -/
def logCall (level : EventLevel) (message : Bytes) (uuid : Uuid) (clock : Clock) : Call :=
  ⟨Api.logEvent level message, uuid, clock⟩

/-- The ways through `log`. -/
theorem log_cases {h : Hub} (hin : h.initialised = true) (level : EventLevel) (message : Bytes)
    (uuid : Uuid) (clock : Clock) :
    (Api.isReported level = false ∧ Api.log p h level message uuid clock =
      (.ok (), h.addBreadcrumb (Api.logBreadcrumb level message) clock.crumb)) ∨
    (Api.isReported level = true ∧ Api.log p h level message uuid clock =
      ((Api.captureEvent p h (logCall level message uuid clock)).1.map fun _ => (),
        (Api.captureEvent p h (logCall level message uuid clock)).2)) := by
  unfold Api.log
  rw [if_neg (by simp [Hub.isInitialised, hin])]
  cases hlevel : Api.isReported level with
  | false =>
      refine Or.inl ⟨rfl, ?_⟩
      rw [if_neg (by simp), Api.addBreadcrumb, if_neg (by simp [Hub.isInitialised, hin])]
  | true =>
      refine Or.inr ⟨rfl, ?_⟩
      rw [if_pos rfl]
      rfl

/-- What `captureEvent` reports, it records. -/
theorem leavesCrumb_captureEvent {h h' : Hub} {c : Call} {level : EventLevel} {message : Bytes}
    (hmessage : c.event.find (lit "message") = some (.string message))
    (hlevel : c.event.find (lit "level") = some (.string (levelToString level)))
    (hroom : 0 < h.scope.maxBreadcrumbs.toNat)
    (hpasses : tooOften p h.lastUniqueEvents c = false) {eventId : Bytes}
    (hcapture : h.captureEvent p c.event c.uuid c.clock = (.ok eventId, h')) :
    LeavesCrumb level message c.clock.crumb h.scope h'.scope := by
  rcases captureEvent_cases p h c with ⟨-, e, hcase⟩ | ⟨-, htoo, -⟩ | ⟨-, -, e, -, hcase⟩ |
    ⟨-, -, contents, -, hcase⟩
  · rw [hcase] at hcapture
    cases hcapture
  · rw [hpasses] at htoo
    cases htoo
  · rw [hcase] at hcapture
    cases hcapture
  · rw [hcase, sendSampled_eq] at hcapture
    cases hcapture
    exact leavesCrumb_addBreadcrumb hmessage hlevel hroom c.clock.crumb

theorem captureEvent_dropped {h : Hub} {c : Call} (hmessage : messageOk c.event = true)
    (htoo : tooOften p h.lastUniqueEvents c = true) :
    h.captureEvent p c.event c.uuid c.clock = (.ok [], h.entered p c) := by
  rcases captureEvent_cases p h c with ⟨hbad, -⟩ | ⟨-, -, hcapture⟩ | ⟨-, hfew, -⟩ | ⟨-, hfew, -⟩
  · rw [hmessage] at hbad
    cases hbad
  · exact hcapture
  · rw [htoo] at hfew
    cases hfew
  · rw [htoo] at hfew
    cases hfew

theorem leavesCrumb_log {h h' : Hub} (hin : h.initialised = true)
    (hroom : 0 < h.scope.maxBreadcrumbs.toNat) {level : EventLevel} {message : Bytes} {uuid : Uuid}
    {clock : Clock}
    (hpasses : Api.isReported level = false ∨
      tooOften p h.lastUniqueEvents (logCall level message uuid clock) = false)
    (hlog : Api.log p h level message uuid clock = (.ok (), h')) :
    LeavesCrumb level message clock.crumb h.scope h'.scope := by
  rcases log_cases p hin level message uuid clock with ⟨-, hlogged⟩ | ⟨hlevel, hreported⟩
  · rw [hlogged] at hlog
    cases hlog
    exact leavesCrumb_addBreadcrumb rfl rfl hroom clock.crumb
  · have hfew := hpasses.resolve_left (by simp [hlevel])
    rw [hreported, Api.captureEvent_of_initialised p hin] at hlog
    cases hcapture : h.captureEvent p (logCall level message uuid clock).event
        (logCall level message uuid clock).uuid (logCall level message uuid clock).clock with
    | mk result after =>
        rw [hcapture] at hlog
        cases result with
        | error e => cases hlog
        | ok eventId =>
            cases hlog
            exact leavesCrumb_captureEvent p rfl rfl hroom hfew hcapture

/-- A report that the limiter drops leaves the scope alone. -/
theorem log_dropped {h : Hub} (hin : h.initialised = true) {level : EventLevel} {message : Bytes}
    {uuid : Uuid} {clock : Clock} (hlevel : Api.isReported level = true)
    (htoo : tooOften p h.lastUniqueEvents (logCall level message uuid clock) = true) :
    ∃ h', Api.log p h level message uuid clock = (.ok (), h') ∧ h'.scope = h.scope := by
  rcases log_cases p hin level message uuid clock with ⟨hbelow, -⟩ | ⟨-, hreported⟩
  · rw [hlevel] at hbelow
    cases hbelow
  · rw [hreported, Api.captureEvent_of_initialised p hin, captureEvent_dropped p rfl htoo]
    exact ⟨_, rfl, rfl⟩

/-- A call of `log` that returns leaves its breadcrumb if and only if the level
is below `LEVEL_ERROR`, or the limiter lets the event pass, or the list is full
of what this call would record. -/
theorem log_leavesCrumb_iff {h : Hub} (hin : h.initialised = true)
    (hroom : 0 < h.scope.maxBreadcrumbs.toNat) (level : EventLevel) (message : Bytes)
    (uuid : Uuid) (clock : Clock) :
    (∀ h', Api.log p h level message uuid clock = (.ok (), h') →
      LeavesCrumb level message clock.crumb h.scope h'.scope) ↔
    Api.isReported level = false ∨
      tooOften p h.lastUniqueEvents (logCall level message uuid clock) = false ∨
      Saturated level message clock.crumb h.scope := by
  rw [← leavesCrumb_self_iff hroom, ← or_assoc]
  rcases Decidable.em (Api.isReported level = false ∨
    tooOften p h.lastUniqueEvents (logCall level message uuid clock) = false) with
    hpasses | hdropped
  · exact iff_of_true (fun h' hlog => leavesCrumb_log p hin hroom hpasses hlog) (Or.inl hpasses)
  · rw [or_iff_right hdropped]
    rw [not_or, Bool.not_eq_false, Bool.not_eq_false] at hdropped
    obtain ⟨after, hlog, hscope⟩ := log_dropped p hin hdropped.1 hdropped.2
    constructor
    · intro hall
      have hleaves := hall after hlog
      rwa [hscope] at hleaves
    · intro hleaves h' hlog'
      cases hlog.symm.trans hlog'
      rwa [hscope]

theorem room_freshHub : 0 < freshHub.scope.maxBreadcrumbs.toNat := by decide

/-- An error for a hub that has seen no event. -/
def firstError : Except Json.TypeError Unit × Hub :=
  Api.log (platformOf []) freshHub .error (lit "m") zeroUuid ⟨0, 0, 0, 0⟩

theorem log_leavesCrumb_firstError :
    firstError.1 = .ok () ∧
      LeavesCrumb .error (lit "m") 0 freshHub.scope firstError.2.scope := by
  have hok : firstError.1 = .ok () := by decide +kernel
  have hpasses : tooOften (platformOf []) freshHub.lastUniqueEvents
      (logCall .error (lit "m") zeroUuid ⟨0, 0, 0, 0⟩) = false := by decide
  exact ⟨hok, (log_leavesCrumb_iff (platformOf []) rfl room_freshHub .error (lit "m") zeroUuid
    ⟨0, 0, 0, 0⟩).mpr (Or.inr (Or.inl hpasses)) firstError.2 (Prod.ext hok rfl)⟩

/-- The table after three events with the message `m` in one second. -/
def fullTable : EventTable :=
  ((Multimap.empty.emplace (lit "m") (Calendar.iso8601 0)).emplace (lit "m")
    (Calendar.iso8601 0)).emplace (lit "m") (Calendar.iso8601 0)

def fullHub : Hub := { freshHub with lastUniqueEvents := fullTable }

/-- The fourth error with the message `m` leaves no breadcrumb. -/
theorem log_fourth_error :
    ¬ ∀ (p : Platform) (h h' : Hub) (level : EventLevel) (message : Bytes) (uuid : Uuid)
      (clock : Clock), h.initialised = true → 0 < h.scope.maxBreadcrumbs.toNat →
      Utf8.valid message = true → Api.log p h level message uuid clock = (.ok (), h') →
      LeavesCrumb level message clock.crumb h.scope h'.scope := by
  intro hall
  have htoo : tooOften (platformOf []) fullHub.lastUniqueEvents
      (logCall .error (lit "m") zeroUuid ⟨0, 0, 0, 0⟩) = true := by decide
  obtain ⟨h', hlog, hscope⟩ := log_dropped (platformOf []) (h := fullHub) rfl rfl htoo
  obtain ⟨crumb, -, hlast, -⟩ := hall _ fullHub h' _ _ _ _ rfl room_freshHub (by decide) hlog
  rw [hscope] at hlast
  cases hlast

end Sentry
