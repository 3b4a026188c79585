import Mathlib.Tactic

/-!
A queue of jobs that one consumer attempts in order, where a rejected first
attempt may be queued once more. Producers append, the consumer holds at most
one job at a time, and both work on the same queue. The type of the contents,
of the header that the first attempt chooses, and of the answers are
arbitrary; `judge` says what an answer means for the attempt it answers.

`Step` is everything such a consumer may do. `Inv` is what all its runs keep:
the first attempts follow the pushes, and the retries follow the rejections.
As long as it gives up no retry, every pushed event is held or closed exactly
once, which is `Conserved`.
-/

namespace RetryQueue

inductive Job (β η : Type*) where
  | first (event : Nat) (content : β)
  | retry (event : Nat) (content : β) (header : η)
  deriving DecidableEq, Repr

structure Attempt (β η : Type*) where
  event : Nat
  isRetrying : Bool
  content : β
  header : η
  deriving DecidableEq, Repr

inductive Verdict where
  | settled
  | rejected
  | lost
  deriving DecidableEq, Repr

/-- What the consumer holds: nothing, a job it has taken, an attempt that is
not answered yet, or a rejected attempt whose retry is on its way back to the
queue. -/
inductive Hand (β η : Type*) where
  | empty
  | taken (job : Job β η)
  | inFlight (attempt : Attempt β η)
  | returning (attempt : Attempt β η)
  deriving DecidableEq, Repr

structure Box (β η ρ : Type*) where
  pushed : List β
  queue : List (Job β η)
  hand : Hand β η
  attempts : List (Attempt β η)
  answers : List ρ

variable {β η ρ : Type*}

def Job.event : Job β η → Nat
  | .first event _ => event
  | .retry event _ _ => event

def Attempt.retryJob (a : Attempt β η) : Job β η := .retry a.event a.content a.header

/-- `stopping` allows the consumer to give up a retry. -/
inductive Step (judge : ρ → Verdict) (stopping : Prop) (s : Box β η ρ) :
    Box β η ρ → Prop where
  | push (content : β) :
      Step judge stopping s { s with
        pushed := s.pushed ++ [content]
        queue := s.queue ++ [.first s.pushed.length content] }
  | take (job : Job β η) (rest : List (Job β η)) (hhand : s.hand = .empty)
      (hqueue : s.queue = job :: rest) :
      Step judge stopping s { s with queue := rest, hand := .taken job }
  | attempt (event : Nat) (content : β) (header : η)
      (hhand : s.hand = .taken (.first event content)) :
      Step judge stopping s { s with
        hand := .inFlight ⟨event, false, content, header⟩
        attempts := s.attempts ++ [⟨event, false, content, header⟩] }
  | attemptAgain (event : Nat) (content : β) (header : η)
      (hhand : s.hand = .taken (.retry event content header)) :
      Step judge stopping s { s with
        hand := .inFlight ⟨event, true, content, header⟩
        attempts := s.attempts ++ [⟨event, true, content, header⟩] }
  | close (a : Attempt β η) (answer : ρ) (hhand : s.hand = .inFlight a)
      (hfinal : judge answer ≠ .rejected ∨ a.isRetrying = true) :
      Step judge stopping s { s with hand := .empty, answers := s.answers ++ [answer] }
  | reject (a : Attempt β η) (answer : ρ) (hhand : s.hand = .inFlight a)
      (hreject : judge answer = .rejected) (hfirst : a.isRetrying = false) :
      Step judge stopping s { s with
        hand := .returning a, answers := s.answers ++ [answer] }
  | requeue (a : Attempt β η) (hhand : s.hand = .returning a) :
      Step judge stopping s { s with hand := .empty, queue := s.queue ++ [a.retryJob] }
  | giveUp (a : Attempt β η) (hhand : s.hand = .returning a) (hstop : stopping) :
      Step judge stopping s { s with hand := .empty }

theorem Step.mono {judge : ρ → Verdict} {stopping stopping' : Prop} {s t : Box β η ρ}
    (himp : stopping → stopping') (h : Step judge stopping s t) : Step judge stopping' s t := by
  cases h with
  | push content => exact .push content
  | take job rest hhand hqueue => exact .take job rest hhand hqueue
  | attempt event content header hhand => exact .attempt event content header hhand
  | attemptAgain event content header hhand => exact .attemptAgain event content header hhand
  | close a answer hhand hfinal => exact .close a answer hhand hfinal
  | reject a answer hhand hreject hfirst => exact .reject a answer hhand hreject hfirst
  | requeue a hhand => exact .requeue a hhand
  | giveUp a hhand hstop => exact .giveUp a hhand (himp hstop)

/-- The jobs in the order of their next attempt, the one in the hand first and
the one on its way back last. -/
def Box.waiting (s : Box β η ρ) : List (Job β η) :=
  match s.hand with
  | .taken job => job :: s.queue
  | .returning a => s.queue ++ [a.retryJob]
  | .empty | .inFlight _ => s.queue

/-- First jobs as (content, event). -/
def firstJobs (jobs : List (Job β η)) : List (β × Nat) :=
  jobs.filterMap fun
    | .first event content => some (content, event)
    | .retry .. => none

/-- Retry jobs as the first attempts that they repeat. -/
def retryJobs (jobs : List (Job β η)) : List (Attempt β η) :=
  jobs.filterMap fun
    | .first .. => none
    | .retry event content header => some ⟨event, false, content, header⟩

def firstAttempts (attempts : List (Attempt β η)) : List (Attempt β η) :=
  attempts.filter fun a => !a.isRetrying

/-- Retry attempts as the first attempts that they repeat. -/
def repeated (attempts : List (Attempt β η)) : List (Attempt β η) :=
  (attempts.filter fun a => a.isRetrying).map fun a : Attempt β η =>
    { a with isRetrying := false }

/-- The first attempts that were answered with a rejection. -/
def rejections (judge : ρ → Verdict) (attempts : List (Attempt β η)) (answers : List ρ) :
    List (Attempt β η) :=
  ((attempts.zip answers).filter fun p =>
    !p.1.isRetrying && judge p.2 = .rejected).map Prod.fst

/-- The answered attempts after which the event is not attempted again. -/
def closed (judge : ρ → Verdict) (attempts : List (Attempt β η)) (answers : List ρ) :
    List (Attempt β η × ρ) :=
  (attempts.zip answers).filter fun p => p.1.isRetrying || judge p.2 ≠ .rejected

/-- The events that the consumer or the queue still holds. -/
def Box.held (s : Box β η ρ) : List Nat :=
  match s.hand with
  | .inFlight a => a.event :: s.waiting.map Job.event
  | _ => s.waiting.map Job.event

/-- Every pushed event is held or closed, and only once. -/
def Conserved (judge : ρ → Verdict) (s : Box β η ρ) : Prop :=
  (List.range s.pushed.length).Perm
    (s.held ++ (closed judge s.attempts s.answers).map fun p => p.1.event)

/-- How the attempts and the answers are aligned: only the attempt in flight
has no answer. -/
def Box.Aligned (s : Box β η ρ) : Prop :=
  match s.hand with
  | .inFlight a => ∃ earlier, s.attempts = earlier ++ [a] ∧ earlier.length = s.answers.length
  | _ => s.attempts.length = s.answers.length

/-- A retry attempt comes after its first attempt was rejected. -/
def Caused (judge : ρ → Verdict) (attempts : List (Attempt β η)) (answers : List ρ) : Prop :=
  ∀ (j : Nat) (a : Attempt β η), attempts[j]? = some a → a.isRetrying = true →
    ∃ i answer, i < j ∧ attempts[i]? = some { a with isRetrying := false } ∧
      answers[i]? = some answer ∧ judge answer = .rejected

structure Inv (judge : ρ → Verdict) (s : Box β η ρ) : Prop where
  numbered : s.pushed.zipIdx =
    (firstAttempts s.attempts).map (fun a => (a.content, a.event)) ++ firstJobs s.waiting
  retries : (repeated s.attempts ++ retryJobs s.waiting).Sublist
    (rejections judge s.attempts s.answers)
  aligned : s.Aligned
  caused : Caused judge s.attempts s.answers
  returning : ∀ a, s.hand = .returning a → a.isRetrying = false

def Box.initial : Box β η ρ := ⟨[], [], .empty, [], []⟩

theorem inv_initial (judge : ρ → Verdict) : Inv judge (Box.initial : Box β η ρ) where
  numbered := rfl
  retries := by simp [Box.initial, Box.waiting, repeated, retryJobs, rejections]
  aligned := rfl
  caused := by simp [Caused, Box.initial]
  returning := by simp [Box.initial]

theorem conserved_initial (judge : ρ → Verdict) :
    Conserved judge (Box.initial : Box β η ρ) := by
  simp [Conserved, Box.initial, Box.held, Box.waiting, closed]

@[simp]
theorem firstJobs_append (xs ys : List (Job β η)) :
    firstJobs (xs ++ ys) = firstJobs xs ++ firstJobs ys := List.filterMap_append

@[simp]
theorem retryJobs_append (xs ys : List (Job β η)) :
    retryJobs (xs ++ ys) = retryJobs xs ++ retryJobs ys := List.filterMap_append

@[simp]
theorem firstJobs_cons_first (event : Nat) (content : β) (js : List (Job β η)) :
    firstJobs (.first event content :: js) = (content, event) :: firstJobs js := rfl

@[simp]
theorem firstJobs_cons_retry (event : Nat) (content : β) (header : η) (js : List (Job β η)) :
    firstJobs (.retry event content header :: js) = firstJobs js := rfl

@[simp]
theorem retryJobs_cons_first (event : Nat) (content : β) (js : List (Job β η)) :
    retryJobs (.first event content :: js) = retryJobs js := rfl

@[simp]
theorem retryJobs_cons_retry (event : Nat) (content : β) (header : η) (js : List (Job β η)) :
    retryJobs (.retry event content header :: js) =
      ⟨event, false, content, header⟩ :: retryJobs js := rfl

@[simp]
theorem firstJobs_nil : firstJobs ([] : List (Job β η)) = [] := rfl

@[simp]
theorem retryJobs_nil : retryJobs ([] : List (Job β η)) = [] := rfl

@[simp]
theorem firstAttempts_append (xs ys : List (Attempt β η)) :
    firstAttempts (xs ++ ys) = firstAttempts xs ++ firstAttempts ys := List.filter_append ..

@[simp]
theorem repeated_append (xs ys : List (Attempt β η)) :
    repeated (xs ++ ys) = repeated xs ++ repeated ys := by
  simp [repeated]

theorem zip_snoc_left {α γ : Type*} {xs : List α} {ys : List γ} (h : xs.length = ys.length)
    (x : α) : (xs ++ [x]).zip ys = xs.zip ys := by
  have happend : (xs ++ [x]).zip (ys ++ []) = xs.zip ys ++ [x].zip [] := List.zip_append h
  simpa using happend

theorem zip_snoc_right {α γ : Type*} {xs : List α} {ys : List γ} {x : α}
    (h : xs.length = ys.length) (y : γ) :
    (xs ++ [x]).zip (ys ++ [y]) = (xs ++ [x]).zip ys ++ [(x, y)] := by
  rw [List.zip_append h, zip_snoc_left h]
  rfl

theorem rejections_snoc_attempt {judge : ρ → Verdict} {attempts : List (Attempt β η)}
    {answers : List ρ} (h : attempts.length = answers.length) (a : Attempt β η) :
    rejections judge (attempts ++ [a]) answers = rejections judge attempts answers := by
  rw [rejections, zip_snoc_left h, rejections]

theorem rejections_snoc_answer {judge : ρ → Verdict} {earlier : List (Attempt β η)}
    {answers : List ρ} {a : Attempt β η} (h : earlier.length = answers.length) (answer : ρ) :
    rejections judge (earlier ++ [a]) (answers ++ [answer]) =
      rejections judge (earlier ++ [a]) answers ++
        if !a.isRetrying && judge answer = .rejected then [a] else [] := by
  rw [rejections, zip_snoc_right h, List.filter_append, List.map_append]
  congr 1
  cases hcond : (!a.isRetrying && judge answer = .rejected) <;> simp_all

/-- A rejected first attempt has a place in the log. -/
theorem exists_index_of_mem_rejections {judge : ρ → Verdict} {attempts : List (Attempt β η)}
    {answers : List ρ} {a : Attempt β η} (h : a ∈ rejections judge attempts answers) :
    ∃ i answer, i < answers.length ∧ attempts[i]? = some a ∧ answers[i]? = some answer ∧
      judge answer = .rejected ∧ a.isRetrying = false := by
  obtain ⟨⟨b, answer⟩, hmem, rfl⟩ := List.mem_map.mp h
  obtain ⟨hzip, hcond⟩ := List.mem_filter.mp hmem
  obtain ⟨i, hi⟩ := List.mem_iff_getElem?.mp hzip
  obtain ⟨hattempt, hanswer⟩ := List.getElem?_zip_eq_some.mp hi
  simp only [Bool.and_eq_true, Bool.not_eq_true', decide_eq_true_eq] at hcond
  have hlt : i < answers.length := (List.getElem?_eq_some_iff.mp hanswer).1
  exact ⟨i, answer, hlt, hattempt, hanswer, hcond.2, hcond.1⟩

private theorem caused_snoc_answer {judge : ρ → Verdict} {attempts : List (Attempt β η)}
    {answers : List ρ} (h : Caused judge attempts answers) (answer : ρ) :
    Caused judge attempts (answers ++ [answer]) := by
  intro j a hj ha
  obtain ⟨i, r, hij, hi, hr, hreject⟩ := h j a hj ha
  refine ⟨i, r, hij, hi, ?_, hreject⟩
  rw [List.getElem?_append_left (List.getElem?_eq_some_iff.mp hr).1]
  exact hr

private theorem caused_snoc_attempt {judge : ρ → Verdict} {attempts : List (Attempt β η)}
    {answers : List ρ} (h : Caused judge attempts answers) (a : Attempt β η)
    (hlen : attempts.length = answers.length)
    (ha : a.isRetrying = true → { a with isRetrying := false } ∈
      rejections judge attempts answers) :
    Caused judge (attempts ++ [a]) answers := by
  intro j b hj hb
  by_cases hlt : j < attempts.length
  · rw [List.getElem?_append_left hlt] at hj
    obtain ⟨i, r, hij, hi, hr, hreject⟩ := h j b hj hb
    refine ⟨i, r, hij, ?_, hr, hreject⟩
    rw [List.getElem?_append_left (by omega)]
    exact hi
  · have hjlen : j = attempts.length := by
      have := (List.getElem?_eq_some_iff.mp hj).1
      simp only [List.length_append, List.length_singleton] at this
      omega
    subst j
    rw [List.getElem?_concat_length] at hj
    cases hj
    obtain ⟨i, r, hi, hattempt, hanswer, hreject, _⟩ :=
      exists_index_of_mem_rejections (ha hb)
    refine ⟨i, r, by omega, ?_, hanswer, hreject⟩
    rw [List.getElem?_append_left (by omega)]
    exact hattempt

private theorem firstJobs_waiting_push (s : Box β η ρ) (pushed : List β) (event : Nat)
    (content : β) :
    firstJobs { s with
      pushed := pushed, queue := s.queue ++ [Job.first event content] }.waiting =
      firstJobs s.waiting ++ [(content, event)] := by
  simp only [Box.waiting]
  cases s.hand with
  | empty | inFlight a => simp
  | taken job => cases job <;> simp
  | returning a => simp [Attempt.retryJob]

private theorem retryJobs_waiting_push (s : Box β η ρ) (pushed : List β) (event : Nat)
    (content : β) :
    retryJobs { s with
      pushed := pushed, queue := s.queue ++ [Job.first event content] }.waiting =
      retryJobs s.waiting := by
  simp only [Box.waiting]
  cases s.hand with
  | empty | inFlight a => simp
  | taken job => cases job <;> simp
  | returning a => simp [Attempt.retryJob]

theorem Box.Aligned.of_inFlight {s : Box β η ρ} (h : s.Aligned) {a : Attempt β η}
    (hhand : s.hand = .inFlight a) :
    ∃ earlier, s.attempts = earlier ++ [a] ∧ earlier.length = s.answers.length := by
  simpa [Box.Aligned, hhand] using h

theorem Box.Aligned.of_taken {s : Box β η ρ} (h : s.Aligned) {job : Job β η}
    (hhand : s.hand = .taken job) : s.attempts.length = s.answers.length := by
  simpa [Box.Aligned, hhand] using h

/-- One step lemma for all of `Inv`. The contents of the hand decide which of
the two lists of `retries` an element moves between. -/
theorem Inv.step {judge : ρ → Verdict} {stopping : Prop} {s t : Box β η ρ}
    (h : Inv judge s) (hstep : Step judge stopping s t) : Inv judge t := by
  obtain ⟨hnumbered, hretries, haligned, hcaused, hreturning⟩ := h
  cases hstep with
  | push content =>
      have hzip : (s.pushed ++ [content]).zipIdx =
          s.pushed.zipIdx ++ [(content, s.pushed.length)] := by
        simp [List.zipIdx_append]
      refine ⟨?_, ?_, haligned, hcaused, hreturning⟩
      · rw [firstJobs_waiting_push, hzip, hnumbered, List.append_assoc]
      · rw [retryJobs_waiting_push]
        exact hretries
  | take job rest hhand hqueue =>
      refine ⟨?_, ?_, ?_, hcaused, by simp⟩
      · simpa [Box.waiting, hhand, hqueue] using hnumbered
      · simpa [Box.waiting, hhand, hqueue] using hretries
      · simpa [Box.Aligned, hhand] using haligned
  | attempt event content header hhand =>
      have hlen := haligned.of_taken hhand
      refine ⟨?_, ?_, ⟨s.attempts, rfl, hlen⟩, ?_, by simp⟩
      · simpa [Box.waiting, hhand, firstAttempts] using hnumbered
      · simpa [Box.waiting, hhand, repeated, rejections_snoc_attempt hlen] using hretries
      · exact caused_snoc_attempt hcaused _ hlen (by simp)
  | attemptAgain event content header hhand =>
      have hlen := haligned.of_taken hhand
      have hmem : ⟨event, false, content, header⟩ ∈
          rejections judge s.attempts s.answers := by
        apply hretries.subset
        simp [Box.waiting, hhand]
      refine ⟨?_, ?_, ⟨s.attempts, rfl, hlen⟩, ?_, by simp⟩
      · simpa [Box.waiting, hhand, firstAttempts] using hnumbered
      · simpa [Box.waiting, hhand, repeated, rejections_snoc_attempt hlen] using hretries
      · exact caused_snoc_attempt hcaused _ hlen (fun _ => hmem)
  | close a answer hhand hfinal =>
      obtain ⟨earlier, hattempts, hlen⟩ := haligned.of_inFlight hhand
      have hrejections : rejections judge s.attempts (s.answers ++ [answer]) =
          rejections judge s.attempts s.answers := by
        rw [hattempts, rejections_snoc_answer hlen, if_neg, List.append_nil]
        rcases hfinal with hne | hre
        · simp [hne]
        · simp [hre]
      refine ⟨?_, ?_, ?_, caused_snoc_answer hcaused answer, by simp⟩
      · simpa [Box.waiting, hhand] using hnumbered
      · simpa [Box.waiting, hhand, hrejections] using hretries
      · simp [Box.Aligned, hattempts, hlen]
  | reject a answer hhand hreject hfirst =>
      obtain ⟨earlier, hattempts, hlen⟩ := haligned.of_inFlight hhand
      have hrejections : rejections judge s.attempts (s.answers ++ [answer]) =
          rejections judge s.attempts s.answers ++ [a] := by
        rw [hattempts, rejections_snoc_answer hlen, if_pos (by simp [hreject, hfirst])]
      have ha : (⟨a.event, false, a.content, a.header⟩ : Attempt β η) = a := by
        rw [← hfirst]
      refine ⟨?_, ?_, ?_, caused_snoc_answer hcaused answer, ?_⟩
      · simpa [Box.waiting, hhand, Attempt.retryJob] using hnumbered
      · have hwaiting : s.waiting = s.queue := by simp [Box.waiting, hhand]
        rw [hwaiting] at hretries
        simp only [Box.waiting, Attempt.retryJob, retryJobs_append, retryJobs_cons_retry,
          retryJobs_nil, hrejections, ha]
        rw [← List.append_assoc]
        exact hretries.append_right [a]
      · simp [Box.Aligned, hattempts, hlen]
      · rintro b hb
        cases hb
        exact hfirst
  | requeue a hhand =>
      refine ⟨?_, ?_, ?_, hcaused, by simp⟩
      · simpa [Box.waiting, hhand] using hnumbered
      · simpa [Box.waiting, hhand] using hretries
      · simpa [Box.Aligned, hhand] using haligned
  | giveUp a hhand hstop =>
      refine ⟨?_, ?_, ?_, hcaused, by simp⟩
      · simpa [Box.waiting, hhand, Attempt.retryJob] using hnumbered
      · simp only [Box.waiting, hhand, retryJobs_append] at hretries
        simp only [Box.waiting]
        rw [← List.append_assoc] at hretries
        exact (List.sublist_append_left _ _).trans hretries
      · simpa [Box.Aligned, hhand] using haligned

theorem Inv.firsts_prefix {judge : ρ → Verdict} {s : Box β η ρ} (h : Inv judge s) :
    (firstAttempts s.attempts).map (fun a => a.content) <+: s.pushed := by
  have hfst := congrArg (List.map Prod.fst) h.numbered
  rw [List.zipIdx_map_fst, List.map_append, List.map_map] at hfst
  rw [hfst]
  exact List.prefix_append _ _

theorem Inv.answers_length_le {judge : ρ → Verdict} {s : Box β η ρ} (h : Inv judge s) :
    s.answers.length ≤ s.attempts.length := by
  have haligned := h.aligned
  unfold Box.Aligned at haligned
  split at haligned
  · obtain ⟨earlier, hattempts, hlen⟩ := haligned
    simp [hattempts, hlen]
  · omega

private theorem firstAttempts_events_nodup {judge : ρ → Verdict} {s : Box β η ρ}
    (h : Inv judge s) : ((firstAttempts s.attempts).map fun a => a.event).Nodup := by
  have hsnd := congrArg (List.map Prod.snd) h.numbered
  rw [List.zipIdx_map_snd, List.map_append, List.map_map] at hsnd
  have hnodup : (List.range' 0 s.pushed.length).Nodup := List.nodup_range'
  rw [hsnd] at hnodup
  exact hnodup.of_append_left

theorem zip_fst_sublist {α γ : Type*} (xs : List α) (ys : List γ) :
    ((xs.zip ys).map Prod.fst).Sublist xs := by
  induction xs generalizing ys with
  | nil => simp
  | cons x xs ih =>
      cases ys with
      | nil => simp
      | cons y ys => simpa using ih ys

private theorem rejections_sublist (judge : ρ → Verdict) (attempts : List (Attempt β η))
    (answers : List ρ) : (rejections judge attempts answers).Sublist (firstAttempts attempts) := by
  have hfilter : ((attempts.zip answers).filter fun p =>
      !p.1.isRetrying && judge p.2 = .rejected).Sublist
        ((attempts.zip answers).filter fun p => !p.1.isRetrying) := by
    apply List.monotone_filter_right
    intro p hp
    exact (Bool.and_eq_true _ _ ▸ hp).1
  have hmap : ((attempts.zip answers).filter fun p => !p.1.isRetrying).map Prod.fst =
      firstAttempts ((attempts.zip answers).map Prod.fst) := by
    rw [firstAttempts, List.filter_map]
    rfl
  have hfirst := (zip_fst_sublist attempts answers).filter fun a => !a.isRetrying
  exact (hfilter.map Prod.fst).trans (hmap ▸ hfirst)

private theorem length_filter_event_le {attempts : List (Attempt β η)}
    {test : Attempt β η → Bool} (h : ((attempts.filter test).map fun a => a.event).Nodup)
    (event : Nat) : (attempts.filter fun a => test a && a.event = event).length ≤ 1 := by
  have hcount := List.nodup_iff_count_le_one.mp h event
  rw [List.count_eq_countP, List.countP_map, List.countP_eq_length_filter,
    List.filter_filter] at hcount
  refine le_trans (le_of_eq ?_) hcount
  congr 1
  apply List.filter_congr
  intro a _
  simp [Bool.and_comm, beq_eq_decide]

/-- No event is retried twice. -/
theorem Inv.retried_once {judge : ρ → Verdict} {s : Box β η ρ} (h : Inv judge s)
    (event : Nat) :
    (s.attempts.filter fun a => a.isRetrying && a.event = event).length ≤ 1 := by
  have hsub : (repeated s.attempts).Sublist (firstAttempts s.attempts) :=
    ((List.sublist_append_left _ _).trans h.retries).trans (rejections_sublist _ _ _)
  have hnodup : ((repeated s.attempts).map fun a => a.event).Nodup :=
    (firstAttempts_events_nodup h).sublist (hsub.map _)
  have hevents : (repeated s.attempts).map (fun a => a.event) =
      (s.attempts.filter fun a => a.isRetrying).map fun a => a.event := by
    simp [repeated, Function.comp_def]
  rw [hevents] at hnodup
  exact length_filter_event_le hnodup event

private theorem not_two_in_filter {α : Type*} {l : List α} {test : α → Bool}
    (h : (l.filter test).length ≤ 1) {i j : Nat} (hij : i < j) {a b : α} (ha : l[i]? = some a)
    (hb : l[j]? = some b) (hta : test a = true) (htb : test b = true) : False := by
  have hmema : a ∈ (l.take j).filter test := by
    refine List.mem_filter.mpr ⟨List.mem_of_getElem? (i := i) ?_, hta⟩
    rw [List.getElem?_take, if_pos hij, ha]
  have hmemb : b ∈ (l.drop j).filter test := by
    refine List.mem_filter.mpr ⟨List.mem_of_getElem? (i := 0) ?_, htb⟩
    rw [List.getElem?_drop, Nat.add_zero, hb]
  have hlengths : (l.filter test).length =
      ((l.take j).filter test).length + ((l.drop j).filter test).length := by
    rw [← List.length_append, ← List.filter_append, List.take_append_drop]
  have hposa := List.length_pos_of_mem hmema
  have hposb := List.length_pos_of_mem hmemb
  omega

/-- No event has two first attempts. -/
theorem Inv.first_once {judge : ρ → Verdict} {s : Box β η ρ} (h : Inv judge s) (event : Nat) :
    (s.attempts.filter fun a => !a.isRetrying && a.event = event).length ≤ 1 :=
  length_filter_event_le (firstAttempts_events_nodup h) event

/-- What is attempted again was attempted for the first time before, and that
attempt was rejected. -/
theorem Inv.rejected_of_again {judge : ρ → Verdict} {s : Box β η ρ} (h : Inv judge s) {i j : Nat}
    (hij : i < j) {a b : Attempt β η} (ha : s.attempts[i]? = some a)
    (hb : s.attempts[j]? = some b) (hevent : b.event = a.event) :
    a.isRetrying = false ∧ ∃ answer, s.answers[i]? = some answer ∧ judge answer = .rejected := by
  cases hfirst : b.isRetrying with
  | true =>
      obtain ⟨k, answer, hkj, hcause, hanswer, hjudge⟩ := h.caused j b hb hfirst
      cases hagain : a.isRetrying with
      | true =>
          have honce := h.retried_once a.event
          exact (not_two_in_filter honce hij ha hb (by simp [hagain])
            (by simp [hfirst, hevent])).elim
      | false =>
          have honce := h.first_once a.event
          rcases Nat.lt_trichotomy k i with hlt | rfl | hgt
          · exact (not_two_in_filter honce hlt hcause ha (by simp [hevent])
              (by simp [hagain])).elim
          · exact ⟨rfl, answer, hanswer, hjudge⟩
          · exact (not_two_in_filter honce hgt ha hcause (by simp [hagain])
              (by simp [hevent])).elim
  | false =>
      have honce := h.first_once a.event
      cases hagain : a.isRetrying with
      | true =>
          obtain ⟨k, -, hki, hcause, -⟩ := h.caused i a ha hagain
          exact (not_two_in_filter honce (hki.trans hij) hcause hb (by simp)
            (by simp [hfirst, hevent])).elim
      | false =>
          exact (not_two_in_filter honce hij ha hb (by simp [hagain])
            (by simp [hfirst, hevent])).elim

/-- What is attempted again is attempted unchanged. -/
theorem Inv.repeats_of_again {judge : ρ → Verdict} {s : Box β η ρ} (h : Inv judge s) {i j : Nat}
    (hij : i < j) {a b : Attempt β η} (ha : s.attempts[i]? = some a)
    (hb : s.attempts[j]? = some b) (hevent : b.event = a.event) :
    b = { a with isRetrying := true } := by
  have hfirst := (h.rejected_of_again hij ha hb hevent).1
  have honce := h.first_once a.event
  cases hagain : b.isRetrying with
  | false =>
      exact (not_two_in_filter honce hij ha hb (by simp [hfirst]) (by simp [hagain, hevent])).elim
  | true =>
      obtain ⟨k, -, -, hcause, -⟩ := h.caused j b hb hagain
      rcases Nat.lt_trichotomy k i with hlt | rfl | hgt
      · exact (not_two_in_filter honce hlt hcause ha (by simp [hevent]) (by simp [hfirst])).elim
      · obtain rfl := Option.some.inj (hcause.symm.trans ha)
        rw [← hagain]
      · exact (not_two_in_filter honce hgt ha hcause (by simp [hfirst]) (by simp [hevent])).elim

/-- An attempt carries the content that was pushed for its event. -/
theorem Inv.content_of_attempt {judge : ρ → Verdict} {s : Box β η ρ} (h : Inv judge s)
    {a : Attempt β η} (ha : a ∈ s.attempts) : s.pushed[a.event]? = some a.content := by
  have hfirst (a : Attempt β η) (ha : a ∈ s.attempts) (hfalse : a.isRetrying = false) :
      s.pushed[a.event]? = some a.content := by
    have hmem : (a.content, a.event) ∈ s.pushed.zipIdx := by
      rw [h.numbered]
      refine List.mem_append_left _ (List.mem_map.mpr ⟨a, ?_, rfl⟩)
      exact List.mem_filter.mpr ⟨ha, by simp [hfalse]⟩
    exact List.mk_mem_zipIdx_iff_getElem?.mp hmem
  cases hagain : a.isRetrying with
  | false => exact hfirst a ha hagain
  | true =>
      obtain ⟨j, hj⟩ := List.mem_iff_getElem?.mp ha
      obtain ⟨i, answer, -, hcause, -⟩ := h.caused j a hj hagain
      exact hfirst { a with isRetrying := false } (List.mem_of_getElem? hcause) rfl

/-- Where the contents can be told apart by a key, two attempts with one key
are a first attempt that was rejected and its retry. -/
theorem Inv.again_of_key {κ : Type*} {judge : ρ → Verdict} {s : Box β η ρ} (h : Inv judge s)
    {key : β → κ} (hkeys : (s.pushed.map key).Nodup) {i j : Nat} (hij : i < j)
    {a b : Attempt β η} (ha : s.attempts[i]? = some a) (hb : s.attempts[j]? = some b)
    (hkey : key a.content = key b.content) :
    a.isRetrying = false ∧ b = { a with isRetrying := true } ∧
      ∃ answer, s.answers[i]? = some answer ∧ judge answer = .rejected := by
  have hcontent := h.content_of_attempt (List.mem_of_getElem? ha)
  have hcontent' := h.content_of_attempt (List.mem_of_getElem? hb)
  have hevent : b.event = a.event := by
    have hlt : b.event < (s.pushed.map key).length := by
      rw [List.length_map]
      exact (List.getElem?_eq_some_iff.mp hcontent').1
    apply (List.getElem?_inj hlt hkeys).mp
    rw [List.getElem?_map, List.getElem?_map, hcontent, hcontent', Option.map_some,
      Option.map_some, hkey]
  obtain ⟨hfirst, hrejected⟩ := h.rejected_of_again hij ha hb hevent
  exact ⟨hfirst, h.repeats_of_again hij ha hb hevent, hrejected⟩

theorem closed_snoc_attempt {judge : ρ → Verdict} {attempts : List (Attempt β η)}
    {answers : List ρ} (h : attempts.length = answers.length) (a : Attempt β η) :
    closed judge (attempts ++ [a]) answers = closed judge attempts answers := by
  rw [closed, zip_snoc_left h, closed]

theorem closed_snoc_answer {judge : ρ → Verdict} {earlier : List (Attempt β η)}
    {answers : List ρ} {a : Attempt β η} (h : earlier.length = answers.length) (answer : ρ) :
    closed judge (earlier ++ [a]) (answers ++ [answer]) =
      closed judge (earlier ++ [a]) answers ++
        if a.isRetrying || judge answer ≠ .rejected then [(a, answer)] else [] := by
  rw [closed, zip_snoc_right h, List.filter_append]
  congr 1
  cases hcond : (a.isRetrying || judge answer ≠ .rejected) <;> simp_all

private theorem held_push (s : Box β η ρ) (pushed : List β) (event : Nat) (content : β) :
    { s with pushed := pushed, queue := s.queue ++ [Job.first event content] }.held.Perm
      (event :: s.held) := by
  simp only [Box.held, Box.waiting]
  rw [List.perm_iff_count]
  intro other
  cases s.hand <;>
    simp only [List.map_append, List.map_cons, List.map_nil, List.count_append,
      List.count_cons, List.count_nil, Job.event] <;> omega

/-- As long as no retry is given up, each step keeps every event in exactly
one place: it moves one event between the queue, the hand and the closed
attempts, or adds a new one to the queue. -/
theorem Conserved.step {judge : ρ → Verdict} {s t : Box β η ρ} (h : Conserved judge s)
    (hinv : Inv judge s) (hstep : Step judge False s t) : Conserved judge t := by
  have haligned := hinv.aligned
  unfold Conserved at h ⊢
  cases hstep with
  | push content =>
      have hheld := held_push s (s.pushed ++ [content]) s.pushed.length content
      rw [List.length_append, List.length_singleton, List.range_succ]
      have hnew : (List.range s.pushed.length ++ [s.pushed.length]).Perm
          (s.pushed.length :: List.range s.pushed.length) := List.perm_append_singleton _ _
      have hold := h.cons s.pushed.length
      exact (hnew.trans hold).trans (hheld.append_right _).symm
  | take job rest hhand hqueue => simpa [Box.held, Box.waiting, hhand, hqueue] using h
  | attempt event content header hhand =>
      have hlen := haligned.of_taken hhand
      simpa [Box.held, Box.waiting, hhand, closed_snoc_attempt hlen, Job.event] using h
  | attemptAgain event content header hhand =>
      have hlen := haligned.of_taken hhand
      simpa [Box.held, Box.waiting, hhand, closed_snoc_attempt hlen, Job.event] using h
  | close a answer hhand hfinal =>
      obtain ⟨earlier, hattempts, hlen⟩ := haligned.of_inFlight hhand
      have hclosed : closed judge s.attempts (s.answers ++ [answer]) =
          closed judge s.attempts s.answers ++ [(a, answer)] := by
        rw [hattempts, closed_snoc_answer hlen, if_pos (by simpa [or_comm] using hfinal)]
      simp only [Box.held, Box.waiting, hhand] at h
      simp only [Box.held, Box.waiting, hclosed, List.map_append, List.map_cons, List.map_nil]
      refine h.trans ?_
      rw [List.perm_iff_count]
      intro event
      simp only [List.count_append, List.count_cons, List.count_nil]
      omega
  | reject a answer hhand hreject hfirst =>
      obtain ⟨earlier, hattempts, hlen⟩ := haligned.of_inFlight hhand
      have hclosed : closed judge s.attempts (s.answers ++ [answer]) =
          closed judge s.attempts s.answers := by
        rw [hattempts, closed_snoc_answer hlen, if_neg (by simp [hreject, hfirst]),
          List.append_nil]
      simp only [Box.held, Box.waiting, hhand] at h
      simp only [Box.held, Box.waiting, hclosed, List.map_append, List.map_cons, List.map_nil,
        Attempt.retryJob, Job.event]
      refine h.trans ?_
      rw [List.perm_iff_count]
      intro event
      simp only [List.count_append, List.count_cons, List.count_nil]
      omega
  | requeue a hhand => simpa [Box.held, Box.waiting, hhand] using h
  | giveUp a hhand hstop => exact hstop.elim

/-- Each event is in one place, and events that were never pushed are in
none. -/
theorem Conserved.held_or_closed {judge : ρ → Verdict} {s : Box β η ρ} (h : Conserved judge s)
    (event : Nat) :
    s.held.count event +
      (closed judge s.attempts s.answers).countP (fun p => p.1.event = event) =
      if event < s.pushed.length then 1 else 0 := by
  have hcount := List.Perm.count_eq h event
  rw [List.nodup_range.count, List.count_append] at hcount
  simp only [List.mem_range] at hcount
  rw [hcount]
  congr 1
  rw [List.count_eq_countP, List.countP_map]
  apply List.countP_congr
  simp

end RetryQueue
