import SentryCpp.Hub.Window

/-!
What the limiter drops an event for. Every entry of the table stands for an
event that was admitted with the message of the entry, and the sweep in front
of the count leaves a message no entry that is expired. So an event is dropped
for three admissions of its own message within the last hour, whatever else
the table holds and whether or not the entries of a message expire together.
-/

namespace Sentry

open StdString Calendar

variable (p : Platform)

/-- The entries of the message belong to admissions of it, each to its own,
whose timestamps are readings of the run. -/
structure Recalls (message : Bytes) (calls : List Call) (r : Reported) : Prop where
  entries : ∃ kept : List Admission, kept.Sublist (admissionsOf message r.admissions) ∧
    r.hub.lastUniqueEvents.values message = kept.map (fun a => iso8601 a.timestamp)
  read : ∀ a ∈ admissionsOf message r.admissions, ∃ c ∈ calls, a.timestamp = c.clock.timestamp

theorem recalls_start {message : Bytes} {h : Hub} (hempty : h.lastUniqueEvents = .empty) :
    Recalls message [] ⟨h, []⟩ where
  entries := ⟨[], List.nil_sublist _, by rw [hempty, Multimap.values_empty]; rfl⟩
  read := by simp [admissionsOf]

/-- The sweep keeps entries or drops them. -/
theorem Recalls.sweep {message : Bytes} {calls : List Call} {r : Reported}
    (h : Recalls message calls r) (expired : Bytes × Bytes → Bool) :
    ∃ kept : List Admission, kept.Sublist (admissionsOf message r.admissions) ∧
      (r.hub.lastUniqueEvents.sweep expired).values message =
        kept.map (fun a => iso8601 a.timestamp) ∧
      ∀ a ∈ kept, expired (message, iso8601 a.timestamp) = false := by
  obtain ⟨kept, hsub, hvalues⟩ := h.entries
  rw [Multimap.values_sweep]
  split
  · exact ⟨[], List.nil_sublist _, rfl, by simp⟩
  · rename_i hyoung
    refine ⟨kept, hsub, hvalues, ?_⟩
    intro a ha
    simp only [Bool.not_eq_true, List.any_eq_false] at hyoung
    apply hyoung
    rw [hvalues]
    exact List.mem_map_of_mem ha

/-- The step lemma. The three cases are those of `captureStep_cases`. -/
theorem Recalls.step {message : Bytes} {calls : List Call} {r r' : Reported}
    (h : Recalls message calls r) {c : Call} (hstep : captureStep p r c = some r') :
    Recalls message (calls ++ [c]) r' := by
  obtain ⟨swept, hswept, hsweep, -⟩ := h.sweep (Hub.oldEnoughToRemove p c.clock.currTime)
  have hread : ∀ a ∈ admissionsOf message r.admissions, ∃ c' ∈ calls ++ [c],
      a.timestamp = c'.clock.timestamp := by
    intro a ha
    obtain ⟨c', hc', htime⟩ := h.read a ha
    exact ⟨c', List.mem_append_left _ hc', htime⟩
  rcases captureStep_cases p hstep message with ⟨hsame, hvalues⟩ | ⟨hsame, hvalues⟩ |
    ⟨hadded, -, hvalues⟩
  · obtain ⟨kept, hsub, htable⟩ := h.entries
    exact ⟨⟨kept, hsame ▸ hsub, hvalues.trans htable⟩, hsame ▸ hread⟩
  · exact ⟨⟨swept, hsame ▸ hswept, hvalues.trans hsweep⟩, hsame ▸ hread⟩
  · refine ⟨⟨swept ++ [⟨message, c.clock.timestamp, c.clock.currTime⟩], ?_, ?_⟩, ?_⟩
    · rw [hadded]
      exact hswept.append (List.Sublist.refl _)
    · rw [hvalues, hsweep, List.map_append, List.map_singleton]
    · intro a ha
      rw [hadded] at ha
      rcases List.mem_append.mp ha with hold | hnew
      · exact hread a hold
      · rw [List.mem_singleton] at hnew
        exact ⟨c, by simp, by rw [hnew]⟩

theorem recalls_of_run {message : Bytes} {before calls : List Call} {r u : Reported}
    (h : Recalls message before r) (hrun : Transition.run (captureStep p) r calls = some u) :
    Recalls message (before ++ calls) u := by
  induction calls generalizing before r with
  | nil =>
      cases hrun
      rwa [List.append_nil]
  | cons c calls ih =>
      obtain ⟨t, hstep, hrun⟩ := Transition.run_cons_iff.mp hrun
      have hnext := ih (h.step p hstep) hrun
      rwa [List.append_assoc] at hnext

/-- The empty id is returned for an event that the limiter drops, and for no
other. -/
theorem tooOften_of_dropped {h : Hub} {c : Call}
    (hdropped : (h.captureEvent p c.event c.uuid c.clock).1 = .ok []) :
    tooOften p h.lastUniqueEvents c = true := by
  rcases captureEvent_cases p h c with ⟨-, e, hcapture⟩ | ⟨-, htoo, -⟩ |
    ⟨-, -, e, -, hcapture⟩ | ⟨-, -, contents, -, hcapture⟩
  · simp [hcapture] at hdropped
  · exact htoo
  · simp [hcapture] at hdropped
  · rw [hcapture] at hdropped
    exact absurd (Except.ok.inj hdropped) (generateUuid_ne_nil c.uuid)

/-- Whenever an event is dropped, the entries that the limiter has counted
belong to at least three admissions of its message, none of them made more
than an hour before the reading of the sweep. -/
theorem repeated_of_dropped {h : Hub} (hempty : h.lastUniqueEvents = .empty)
    {calls : List Call} {c : Call} (htrue : TrueDifferences p (calls ++ [c]))
    {r : Reported} (hrun : Transition.run (captureStep p) ⟨h, []⟩ calls = some r)
    {message : Bytes} (hmessage : c.event.find (lit "message") = some (.string message))
    (hdropped : (r.hub.captureEvent p c.event c.uuid c.clock).1 = .ok []) :
    ∃ counted : List Admission, counted.Sublist (admissionsOf message r.admissions) ∧
      3 ≤ counted.length ∧
      (∀ a ∈ counted,
        c.clock.currTime ≤ a.timestamp + Hub.maxEventsRepetitionIntervalInSeconds) ∧
      (r.hub.removeOldEventsFromList p c.clock.currTime).lastUniqueEvents.values message =
        counted.map (fun a => iso8601 a.timestamp) := by
  have hrecalls : Recalls message calls r := recalls_of_run p (recalls_start hempty) hrun
  obtain ⟨counted, hsub, hvalues, hyoung⟩ :=
    hrecalls.sweep (Hub.oldEnoughToRemove p c.clock.currTime)
  refine ⟨counted, hsub, ?_, ?_, hvalues⟩
  · have htoo := tooOften_of_dropped p hdropped
    simp only [tooOften, hmessage, decide_eq_true_eq, Multimap.count_eq_length_values, hvalues,
      List.length_map] at htoo
    exact htoo
  · intro a ha
    obtain ⟨c', hc', htime⟩ := hrecalls.read a (hsub.subset ha)
    have hlive := hyoung a ha
    rw [Hub.oldEnoughToRemove, htime,
      htrue c' (List.mem_append_left _ hc') c (by simp), decide_eq_false_iff_not, not_lt] at hlive
    rwa [htime]

/-- Three events in one second, and a fourth one that is dropped when the
hour is just not over. -/
theorem repeated_fourthDropped :
    ∃ r, Transition.run (captureStep (platformOf [0, 3600])) ⟨Hub.new none none, []⟩
        ([0, 0, 0].map reportAt) = some r ∧
      ∃ counted : List Admission, counted.Sublist (admissionsOf (lit "m") r.admissions) ∧
        3 ≤ counted.length ∧ ∀ a ∈ counted, 3600 ≤ a.timestamp + 3600 := by
  have hfourth : (Transition.run (captureStep (platformOf [0, 3600])) ⟨Hub.new none none, []⟩
      ([0, 0, 0].map reportAt)).map (fun r => (r.hub.captureEvent (platformOf [0, 3600])
        (reportAt 3600).event (reportAt 3600).uuid (reportAt 3600).clock).1.toOption) =
      some (some []) := by decide +kernel
  obtain ⟨r, hrun, hresult⟩ := Option.map_eq_some_iff.mp hfourth
  obtain ⟨counted, hsub, hthree, hyoung, -⟩ := repeated_of_dropped (platformOf [0, 3600]) rfl
    (by unfold TrueDifferences; decide) hrun rfl (eq_ok_of_toOption hresult)
  exact ⟨r, hrun, counted, hsub, hthree, hyoung⟩

end Sentry
