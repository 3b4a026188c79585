import SentryCpp.Hub.Limiter

/-!
The limit of three equal events an hour, over runs of `captureEvent`. The
sweep erases a message with all its entries as soon as one of them is expired.
If the entries of a message always expire together, the table holds the last
admissions of the message, and more than an hour lies between the ends of any
four of them, which is `spaced_of_run`. If not, events that are still young
are forgotten together with an old one.
-/

namespace Sentry

open StdString Calendar

/-- The hub and the admissions made so far. -/
structure Reported where
  hub : Hub
  admissions : List Admission

variable (p : Platform)

/-- The event passes `checkIfEventTooOften`. -/
def Hub.admission (h : Hub) (c : Call) : Option Admission :=
  match c.event.find (lit "message"), (h.limit p c.event c.clock).1 with
  | some (.string message), .ok false => some ⟨message, c.clock.timestamp, c.clock.currTime⟩
  | _, _ => none

def captureStep (r : Reported) (c : Call) : Option Reported :=
  some {
    hub := (r.hub.captureEvent p c.event c.uuid c.clock).2
    admissions := r.admissions ++ (r.hub.admission p c).toList }

/-- The admissions of one message, in order. -/
def admissionsOf (message : Bytes) (admissions : List Admission) : List Admission :=
  admissions.filter fun a => a.message = message

/-- Among any four admissions the last is more than an hour after the first. -/
def Spaced (admissions : List Admission) : Prop :=
  ∀ (i j : Nat) (a b : Admission), i + 3 ≤ j → admissions[i]? = some a →
    admissions[j]? = some b →
    a.timestamp + Hub.maxEventsRepetitionIntervalInSeconds < b.currTime

/-- The entries of the message are all expired, or none of them is. -/
def ExpireTogether (message : Bytes) (table : EventTable) (c : Call) : Prop :=
  ∀ t ∈ table.values message, ∀ t' ∈ table.values message,
    Hub.oldEnoughToRemove p c.clock.currTime (message, t) =
      Hub.oldEnoughToRemove p c.clock.currTime (message, t')

instance (message : Bytes) (table : EventTable) (c : Call) :
    Decidable (ExpireTogether p message table c) :=
  inferInstanceAs (Decidable (∀ t ∈ table.values message, ∀ t' ∈ table.values message, _ = _))

/-- On the readings of the run `isTimeDiffGreaterThan` is the true difference
in seconds. -/
def TrueDifferences (calls : List Call) : Prop :=
  ∀ c ∈ calls, ∀ c' ∈ calls,
    p.isTimeDiffGreaterThan (iso8601 c.clock.timestamp) (iso8601 c'.clock.currTime)
      Hub.maxEventsRepetitionIntervalInSeconds =
    decide (c.clock.timestamp + Hub.maxEventsRepetitionIntervalInSeconds < c'.clock.currTime)

theorem admission_eq (h : Hub) (c : Call) :
    h.admission p c = (tableStep p h.lastUniqueEvents c).2 := by
  unfold Hub.admission tableStep
  rcases limit_cases p h c with ⟨hmessage, e, hlimit⟩ | ⟨hmessage, hlimit⟩
  · rw [hlimit]
    unfold messageOk at hmessage
    split at hmessage <;> simp_all
  · rw [hlimit]
    unfold messageOk at hmessage
    unfold tooOften
    cases hfind : c.event.find (lit "message") with
    | none => rfl
    | some message =>
        cases message with
        | string message =>
            by_cases hcount : Hub.maxEventsPerInterval ≤
                (h.lastUniqueEvents.sweep (Hub.oldEnoughToRemove p c.clock.currTime)).count
                  message <;>
              simp [hcount]
        | _ => simp [hfind] at hmessage

/-- What a call does to the entries of a message: it leaves them, or sweeps
them, or sweeps them and adds one. -/
theorem values_tableStep (table : EventTable) (c : Call) (message : Bytes) :
    ((tableStep p table c).2 = none ∧
      (tableStep p table c).1.values message = table.values message) ∨
    ((∀ a, (tableStep p table c).2 = some a → a.message ≠ message) ∧
      (tableStep p table c).1.values message =
        (table.sweep (Hub.oldEnoughToRemove p c.clock.currTime)).values message) ∨
    ((tableStep p table c).2 = some ⟨message, c.clock.timestamp, c.clock.currTime⟩ ∧
      ((table.sweep (Hub.oldEnoughToRemove p c.clock.currTime)).values message).length <
        Hub.maxEventsPerInterval ∧
      (tableStep p table c).1.values message =
        (table.sweep (Hub.oldEnoughToRemove p c.clock.currTime)).values message ++
          [iso8601 c.clock.timestamp]) := by
  unfold tableStep
  cases hfind : c.event.find (lit "message") with
  | none => exact Or.inl ⟨rfl, rfl⟩
  | some value =>
      refine Or.inr ?_
      cases value with
      | string text =>
          by_cases hcount : Hub.maxEventsPerInterval ≤
              (table.sweep (Hub.oldEnoughToRemove p c.clock.currTime)).count text
          · exact Or.inl (by simp [hcount])
          · simp only [if_neg hcount, Multimap.values_emplace]
            by_cases htext : message = text
            · subst text
              rw [Multimap.count_eq_length_values, not_le] at hcount
              exact Or.inr ⟨rfl, hcount, by simp⟩
            · exact Or.inl (by simp [htext, Ne.symm htext])
      | _ => exact Or.inl ⟨by simp, rfl⟩

/-- What a step does to the log and to the entries of a message. -/
theorem captureStep_cases {r r' : Reported} {c : Call} (hstep : captureStep p r c = some r')
    (message : Bytes) :
    (admissionsOf message r'.admissions = admissionsOf message r.admissions ∧
      r'.hub.lastUniqueEvents.values message = r.hub.lastUniqueEvents.values message) ∨
    (admissionsOf message r'.admissions = admissionsOf message r.admissions ∧
      r'.hub.lastUniqueEvents.values message =
        (r.hub.lastUniqueEvents.sweep (Hub.oldEnoughToRemove p c.clock.currTime)).values
          message) ∨
    (admissionsOf message r'.admissions =
        admissionsOf message r.admissions ++
          [⟨message, c.clock.timestamp, c.clock.currTime⟩] ∧
      ((r.hub.lastUniqueEvents.sweep (Hub.oldEnoughToRemove p c.clock.currTime)).values
        message).length < Hub.maxEventsPerInterval ∧
      r'.hub.lastUniqueEvents.values message =
        (r.hub.lastUniqueEvents.sweep (Hub.oldEnoughToRemove p c.clock.currTime)).values
          message ++ [iso8601 c.clock.timestamp]) := by
  cases hstep
  have hlog : admissionsOf message (r.admissions ++ (r.hub.admission p c).toList) =
      admissionsOf message r.admissions ++
        admissionsOf message (tableStep p r.hub.lastUniqueEvents c).2.toList := by
    rw [admission_eq]
    exact List.filter_append ..
  simp only [hlog, table_captureEvent]
  rcases values_tableStep p r.hub.lastUniqueEvents c message with
    ⟨hnone, hvalues⟩ | ⟨hother, hvalues⟩ | ⟨hsome, hcount, hvalues⟩
  · refine Or.inl ⟨?_, hvalues⟩
    rw [hnone]
    exact List.append_nil _
  · refine Or.inr (Or.inl ⟨?_, hvalues⟩)
    cases hadmission : (tableStep p r.hub.lastUniqueEvents c).2 with
    | none => exact List.append_nil _
    | some a => simp [admissionsOf, hother a hadmission]
  · refine Or.inr (Or.inr ⟨?_, hcount, hvalues⟩)
    rw [hsome]
    simp [admissionsOf]

/-- The table holds the last admissions of the message, and the others are
more than an hour old. -/
structure Remembers (message : Bytes) (calls : List Call) (r : Reported) (now : Nat) : Prop where
  split : ∃ forgotten kept, admissionsOf message r.admissions = forgotten ++ kept ∧
    r.hub.lastUniqueEvents.values message = kept.map (fun a => iso8601 a.timestamp) ∧
    ∀ a ∈ forgotten, a.timestamp + Hub.maxEventsRepetitionIntervalInSeconds < now
  spaced : Spaced (admissionsOf message r.admissions)
  read : ∀ a ∈ admissionsOf message r.admissions,
    ∃ c ∈ calls, a.timestamp = c.clock.timestamp

theorem remembers_start {message : Bytes} {calls : List Call} {h : Hub}
    (hempty : h.lastUniqueEvents = .empty) (now : Nat) :
    Remembers message calls ⟨h, []⟩ now where
  split := ⟨[], [], rfl, by rw [hempty, Multimap.values_empty]; rfl, by simp⟩
  spaced := by simp [Spaced, admissionsOf]
  read := by simp [admissionsOf]

/-- The sweep forgets all entries of the message or none. -/
theorem Remembers.sweep {message : Bytes} {calls : List Call} {r : Reported} {now : Nat}
    (h : Remembers message calls r now) (htrue : TrueDifferences p calls) {c : Call}
    (hc : c ∈ calls) (hnow : now ≤ c.clock.currTime)
    (htogether : ExpireTogether p message r.hub.lastUniqueEvents c) :
    ∃ forgotten kept, admissionsOf message r.admissions = forgotten ++ kept ∧
      (r.hub.lastUniqueEvents.sweep (Hub.oldEnoughToRemove p c.clock.currTime)).values message =
        kept.map (fun a => iso8601 a.timestamp) ∧
      ∀ a ∈ forgotten,
        a.timestamp + Hub.maxEventsRepetitionIntervalInSeconds < c.clock.currTime := by
  obtain ⟨forgotten, kept, hsplit, hvalues, hold⟩ := h.split
  have hforgotten : ∀ a ∈ forgotten,
      a.timestamp + Hub.maxEventsRepetitionIntervalInSeconds < c.clock.currTime :=
    fun a ha => (hold a ha).trans_le hnow
  rw [Multimap.values_sweep]
  split
  · rename_i hany
    obtain ⟨t, ht, hexpired⟩ := List.any_eq_true.mp hany
    refine ⟨forgotten ++ kept, [], by simp [hsplit], rfl, ?_⟩
    intro a ha
    rcases List.mem_append.mp ha with hmem | hmem
    · exact hforgotten a hmem
    · have hentry : iso8601 a.timestamp ∈ r.hub.lastUniqueEvents.values message := by
        rw [hvalues]
        exact List.mem_map_of_mem hmem
      have hexpired' : Hub.oldEnoughToRemove p c.clock.currTime
          (message, iso8601 a.timestamp) = true := by
        rw [← htogether t ht _ hentry]
        exact hexpired
      obtain ⟨c', hc', htime⟩ := h.read a (by rw [hsplit]; exact List.mem_append_right _ hmem)
      rw [Hub.oldEnoughToRemove, htime, htrue c' hc' c hc, decide_eq_true_eq] at hexpired'
      rwa [htime]
  · exact ⟨forgotten, kept, hsplit, hvalues, hforgotten⟩

private theorem spaced_snoc {admissions : List Admission} (h : Spaced admissions) {b : Admission}
    (hlast : ∀ (i : Nat) (a : Admission), i + 3 ≤ admissions.length →
      admissions[i]? = some a →
      a.timestamp + Hub.maxEventsRepetitionIntervalInSeconds < b.currTime) :
    Spaced (admissions ++ [b]) := by
  intro i j a b' hij hi hj
  by_cases hlt : j < admissions.length
  · rw [List.getElem?_append_left (by omega)] at hi
    rw [List.getElem?_append_left hlt] at hj
    exact h i j a b' hij hi hj
  · have hjlen : j = admissions.length := by
      have := (List.getElem?_eq_some_iff.mp hj).1
      simp only [List.length_append, List.length_singleton] at this
      omega
    subst j
    rw [List.getElem?_concat_length] at hj
    cases hj
    rw [List.getElem?_append_left (by omega)] at hi
    exact hlast i a hij hi

/-- The step lemma. The three cases are those of `captureStep_cases`. -/
theorem Remembers.step {message : Bytes} {calls : List Call} {r r' : Reported} {now : Nat}
    (h : Remembers message calls r now) (htrue : TrueDifferences p calls) {c : Call}
    (hc : c ∈ calls) (hnow : now ≤ c.clock.currTime)
    (htogether : ExpireTogether p message r.hub.lastUniqueEvents c)
    (hstep : captureStep p r c = some r') : Remembers message calls r' c.clock.currTime := by
  have hsweep := h.sweep p htrue hc hnow htogether
  rcases captureStep_cases p hstep message with ⟨hsame, hvalues⟩ | ⟨hsame, hvalues⟩ |
    ⟨hadded, hcount, hvalues⟩
  · obtain ⟨forgotten, kept, hsplit, htable, hold⟩ := h.split
    exact ⟨⟨forgotten, kept, hsame.trans hsplit, hvalues.trans htable,
      fun a ha => (hold a ha).trans_le hnow⟩, hsame ▸ h.spaced, hsame ▸ h.read⟩
  · obtain ⟨forgotten, kept, hsplit, htable, hold⟩ := hsweep
    exact ⟨⟨forgotten, kept, hsame.trans hsplit, hvalues.trans htable, hold⟩,
      hsame ▸ h.spaced, hsame ▸ h.read⟩
  · obtain ⟨forgotten, kept, hsplit, htable, hold⟩ := hsweep
    have hkept : kept.length < Hub.maxEventsPerInterval := by
      rw [htable, List.length_map] at hcount
      exact hcount
    refine ⟨⟨forgotten, kept ++ [⟨message, c.clock.timestamp, c.clock.currTime⟩], ?_, ?_, hold⟩,
      ?_, ?_⟩
    · rw [hadded, hsplit, List.append_assoc]
    · rw [hvalues, htable, List.map_append, List.map_singleton]
    · rw [hadded]
      apply spaced_snoc h.spaced
      intro i a hi ha
      -- at most two admissions are kept, so the one at `i` is forgotten
      have hlt : i < forgotten.length := by
        rw [hsplit, List.length_append] at hi
        have : Hub.maxEventsPerInterval = 3 := rfl
        omega
      rw [hsplit, List.getElem?_append_left hlt] at ha
      exact hold a (List.mem_of_getElem? ha)
    · intro a ha
      rw [hadded] at ha
      rcases List.mem_append.mp ha with hmem | hmem
      · exact h.read a hmem
      · rw [List.mem_singleton] at hmem
        exact ⟨c, hc, by rw [hmem]⟩

/-- Readings of the clock from `now` on. -/
def NonDecreasing : Nat → List Call → Prop
  | _, [] => True
  | now, c :: calls => now ≤ c.clock.currTime ∧ NonDecreasing c.clock.currTime calls

/-- The run lemma. The induction consumes the calls, while the readings that
`isTimeDiffGreaterThan` is right about stay those of the whole run. -/
private theorem remembers_of_run {message : Bytes} {all : List Call}
    (htrue : TrueDifferences p all) {calls : List Call} (hsub : ∀ c ∈ calls, c ∈ all)
    {r u : Reported} {now : Nat} (h : Remembers message all r now)
    (hclock : NonDecreasing now calls)
    (htogether : Transition.AllSteps (captureStep p)
      (fun r => ExpireTogether p message r.hub.lastUniqueEvents) r calls)
    (hrun : Transition.run (captureStep p) r calls = some u) :
    ∃ last, Remembers message all u last := by
  induction calls generalizing r now with
  | nil =>
      cases hrun
      exact ⟨now, h⟩
  | cons c calls ih =>
      obtain ⟨t, hstep, hrun⟩ := Transition.run_cons_iff.mp hrun
      have hnext := h.step p htrue (hsub c List.mem_cons_self) hclock.1 htogether.1 hstep
      exact ih (fun c' hc' => hsub c' (List.mem_cons_of_mem _ hc')) hnext hclock.2
        (htogether.2 t hstep) hrun

/-- In every run whose sweeps find the entries of the message expired together
or not at all, the limit holds. -/
theorem spaced_of_run {h : Hub} (hempty : h.lastUniqueEvents = .empty) {message : Bytes}
    {calls : List Call} (htrue : TrueDifferences p calls) (hclock : NonDecreasing 0 calls)
    (htogether : Transition.AllSteps (captureStep p)
      (fun r => ExpireTogether p message r.hub.lastUniqueEvents) ⟨h, []⟩ calls)
    {r : Reported} (hrun : Transition.run (captureStep p) ⟨h, []⟩ calls = some r) :
    Spaced (admissionsOf message r.admissions) := by
  obtain ⟨last, hremembers⟩ := remembers_of_run p htrue (fun _ hc => hc)
    (remembers_start hempty 0) hclock htogether hrun
  exact hremembers.spaced

/-- The admissions of a run, as the table alone makes them. -/
def admissionsFrom : EventTable → List Call → List Admission
  | _, [] => []
  | table, c :: calls =>
      (tableStep p table c).2.toList ++ admissionsFrom (tableStep p table c).1 calls

theorem admissions_of_run {r u : Reported} {calls : List Call}
    (hrun : Transition.run (captureStep p) r calls = some u) :
    u.admissions = r.admissions ++ admissionsFrom p r.hub.lastUniqueEvents calls := by
  induction calls generalizing r with
  | nil =>
      cases hrun
      exact (List.append_nil _).symm
  | cons c calls ih =>
      obtain ⟨t, hstep, hrun⟩ := Transition.run_cons_iff.mp hrun
      cases hstep
      rw [ih hrun, admission_eq, table_captureEvent, admissionsFrom, List.append_assoc]

theorem exists_run (r : Reported) (calls : List Call) :
    ∃ u, Transition.run (captureStep p) r calls = some u := by
  induction calls generalizing r with
  | nil => exact ⟨r, rfl⟩
  | cons c calls ih =>
      obtain ⟨u, hrun⟩ := ih _
      exact ⟨u, Transition.run_cons_iff.mpr ⟨_, rfl, hrun⟩⟩

instance decidableNonDecreasing : (now : Nat) → (calls : List Call) →
    Decidable (NonDecreasing now calls)
  | _, [] => .isTrue trivial
  | _, c :: calls =>
      have : Decidable (NonDecreasing c.clock.currTime calls) :=
        decidableNonDecreasing c.clock.currTime calls
      inferInstanceAs (Decidable (_ ∧ NonDecreasing c.clock.currTime calls))

/-- A platform that knows the instants of a run by their text. -/
def platformOf (instants : List Nat) : Platform where
  isTimeDiffGreaterThan := fun timestamp1 timestamp2 diffInSeconds =>
    let instantOf (text : Bytes) := (instants.find? fun i => iso8601 i = text).getD 0
    decide (instantOf timestamp1 + diffInSeconds < instantOf timestamp2)
  rand := fun _ => 0

theorem eq_ok_of_toOption {ε α : Type} {x : Except ε α} {a : α} (h : x.toOption = some a) :
    x = .ok a := by
  cases x with
  | error e => cases h
  | ok b => rw [Option.some.inj h]

/-- One event with the message `m`, all readings of the clock being `now`. -/
def reportAt (now : Nat) : Call where
  event := .object [(lit "message", .string (lit "m"))]
  uuid := zeroUuid
  clock := ⟨now, now, now, now⟩

/-- Three events in one second, and two more an hour and a second later. -/
def twoBursts : List Call := [0, 0, 0, 3601, 3601].map reportAt

theorem spaced_twoBursts :
    ∃ r, Transition.run (captureStep (platformOf [0, 3601])) ⟨Hub.new none none, []⟩ twoBursts =
        some r ∧
      Spaced (admissionsOf (lit "m") r.admissions) := by
  obtain ⟨r, hrun⟩ := exists_run (platformOf [0, 3601]) ⟨Hub.new none none, []⟩ twoBursts
  refine ⟨r, hrun, spaced_of_run (platformOf [0, 3601]) rfl ?_ (by decide) ?_ hrun⟩
  · unfold TrueDifferences
    decide
  · refine Transition.allSteps_of_project
      (fun table c => some (tableStep (platformOf [0, 3601]) table c).1)
      (fun r : Reported => r.hub.lastUniqueEvents)
      (ExpireTogether (platformOf [0, 3601]) (lit "m")) ?_ ?_
    · intro r c t hstep
      cases hstep
      rw [table_captureEvent]
    · decide

/-- One event, two more shortly before it expires, and two more when it has
expired. -/
def slidingBursts : List Call := [0, 3500, 3500, 3601, 3601].map reportAt

/-- In `slidingBursts` four events pass within 101 seconds. -/
theorem slidingBursts_overAdmits :
    ¬ ∀ (p : Platform) (h : Hub) (message : Bytes) (calls : List Call) (r : Reported),
      h.lastUniqueEvents = .empty → TrueDifferences p calls → NonDecreasing 0 calls →
      Transition.run (captureStep p) ⟨h, []⟩ calls = some r →
      Spaced (admissionsOf message r.admissions) := by
  intro hall
  obtain ⟨r, hrun⟩ :=
    exists_run (platformOf [0, 3500, 3601]) ⟨Hub.new none none, []⟩ slidingBursts
  have hspaced := hall (platformOf [0, 3500, 3601]) (Hub.new none none) (lit "m") slidingBursts r
    rfl (by unfold TrueDifferences; decide) (by decide) hrun
  have hadmissions : admissionsFrom (platformOf [0, 3500, 3601])
      (Hub.new none none).lastUniqueEvents slidingBursts =
      [0, 3500, 3500, 3601, 3601].map fun now => ⟨lit "m", now, now⟩ := by decide
  rw [admissions_of_run _ hrun, hadmissions] at hspaced
  exact absurd (hspaced 1 4 ⟨lit "m", 3500, 3500⟩ ⟨lit "m", 3601, 3601⟩ (by decide) (by decide)
    (by decide)) (by decide)

end Sentry
