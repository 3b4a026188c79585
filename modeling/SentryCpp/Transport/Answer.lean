import SentryCpp.Transport.Basic

/-!
What one outcome of a POST does to the transport. `verdict` sorts the outcomes
by what becomes of the event, `escapes` tells those that throw past the handler
of `sendPost`. Both are functions of the outcome alone. `exchange_cases` is the
one inversion lemma about `exchange`; what follows about `sendPost` and about
the worker cites it.
-/

namespace Sentry.Transport

open StdString Number SimpleWeb RetryQueue

def limited (outcome : Outcome) : Bool :=
  match request outcome with
  | .ok response => SimpleWeb.statusCode response.statusCode = .clientErrorTooManyRequests
  | .error _ => false

def accepted (outcome : Outcome) : Bool :=
  match request outcome with
  | .ok response => SimpleWeb.statusCode response.statusCode = .successOk
  | .error _ => false

/-- The request throws instead of returning a response. -/
def failed (outcome : Outcome) : Bool := !(request outcome).isOk

def rejected (outcome : Outcome) : Bool :=
  !failed outcome && !accepted outcome && !limited outcome

/-- What the outcome means for the event: over with it, try it once more, or
neither of the two. -/
def verdict (outcome : Outcome) : Verdict :=
  if rejected outcome then .rejected else if failed outcome then .lost else .settled

theorem verdict_eq_rejected_iff (outcome : Outcome) :
    verdict outcome = .rejected ↔ rejected outcome = true := by
  unfold verdict
  cases rejected outcome <;> cases failed outcome <;> simp

/-- Every field named `Retry-After`, in this spelling, holds a number. -/
def retryAfterOk (header : Header) : Bool :=
  header.all fun field => field.1 ≠ lit "Retry-After" || (stoul field.2 10).isOk

/-- The outcomes that throw past the handler: a `Content-Length` that is no number,
a chunk that no handler is prepared for, or a 429 with a `Retry-After` that is no
number. -/
def escapes (outcome : Outcome) : Bool :=
  outcome.unreadable || outcome.head.any fun r =>
    SimpleWeb.statusCode r.statusCode = .clientErrorTooManyRequests && !retryAfterOk r.header

theorem retryAfterOf_cases (wait : UInt64) (header : Header) :
    (retryAfterOk header = true ∧ ∃ result, retryAfterOf wait header = (.ok (), result)) ∨
    (retryAfterOk header = false ∧ ∃ e result, retryAfterOf wait header = (.error e, result)) := by
  induction header generalizing wait with
  | nil => exact Or.inl ⟨rfl, wait, rfl⟩
  | cons field fields ih =>
      by_cases hname : field.1 = lit "Retry-After"
      · cases hstoul : stoul field.2 10 with
        | error e =>
            refine Or.inr ⟨?_, e, wait, by simp [retryAfterOf, hname, hstoul]⟩
            simp [retryAfterOk, hname, hstoul, Except.isOk, Except.toBool]
        | ok seconds =>
            have htail := ih (UInt64.ofNat (seconds * millisecondsInSecond))
            simpa [retryAfterOf, retryAfterOk, hname, hstoul, Except.isOk, Except.toBool]
              using htail
      · simpa [retryAfterOf, retryAfterOk, hname] using ih wait

/-- All that `exchange` can do. The first case is a 200, the second a 429, the
third any other status, the fourth an error code. -/
theorem exchange_cases (t : Transport) (outcome : Outcome) :
    (accepted outcome = true ∧ limited outcome = false ∧ failed outcome = false ∧
      escapes outcome = false ∧ t.exchange outcome = (.ok true, t)) ∨
    (accepted outcome = false ∧ limited outcome = true ∧ failed outcome = false ∧
      escapes outcome = false ∧ ∃ wait, t.exchange outcome =
        (.ok true, { t with retryAfterMilliseconds := wait, state := .dropEvents })) ∨
    (accepted outcome = false ∧ limited outcome = false ∧ failed outcome = false ∧
      escapes outcome = false ∧ t.exchange outcome = (.ok false, t)) ∨
    (accepted outcome = false ∧ limited outcome = false ∧ failed outcome = true ∧
      escapes outcome = false ∧ t.exchange outcome = (.error .systemError, t)) ∨
    (accepted outcome = false ∧ rejected outcome = false ∧ escapes outcome = true ∧
      ∃ thrown wait, thrown ≠ .systemError ∧ t.exchange outcome =
        (.error thrown, { t with retryAfterMilliseconds := wait })) := by
  rcases request_cases outcome with ⟨rfl, hreq⟩ | ⟨r, hhead, hreadable, hreq⟩ |
    ⟨r, e, hhead, hunreadable, hne, hreq⟩
  · exact Or.inr (Or.inr (Or.inr (Or.inl ⟨by simp [accepted, hreq], by simp [limited, hreq],
      by simp [failed, hreq, Except.isOk, Except.toBool], rfl, by simp [exchange, hreq]⟩)))
  · have hok : failed outcome = false := by
      simp [failed, hreq, Except.isOk, Except.toBool]
    have hexchange : t.exchange outcome = t.checkResponse r := by simp [exchange, hreq]
    by_cases h200 : SimpleWeb.statusCode r.statusCode = .successOk
    · exact Or.inl ⟨by simp [accepted, hreq, h200], by simp [limited, hreq, h200], hok,
        by simp [escapes, hreadable, hhead, h200], by simp [hexchange, checkResponse, h200]⟩
    by_cases h429 : SimpleWeb.statusCode r.statusCode = .clientErrorTooManyRequests
    · have hacc : accepted outcome = false := by simp [accepted, hreq, h200]
      have hlim : limited outcome = true := by simp [limited, hreq, h429]
      rcases retryAfterOf_cases (UInt64.ofNat reconnectionTimeoutMilliseconds) r.header with
        ⟨hfields, wait, hwait⟩ | ⟨hfields, e, wait, hwait⟩
      · refine Or.inr (Or.inl ⟨hacc, hlim, hok, by simp [escapes, hreadable, hhead, hfields],
          wait, ?_⟩)
        simp [hexchange, checkResponse, h429, handleTooManyRequests, hwait, changeState]
      · refine Or.inr (Or.inr (Or.inr (Or.inr ⟨hacc, by simp [rejected, hlim],
          by simp [escapes, hhead, h429, hfields], .std e, wait, by simp, ?_⟩)))
        simp [hexchange, checkResponse, h429, handleTooManyRequests, hwait]
    · exact Or.inr (Or.inr (Or.inl ⟨by simp [accepted, hreq, h200],
        by simp [limited, hreq, h429], hok, by simp [escapes, hreadable, hhead, h429],
        by simp [hexchange, checkResponse, h200, h429]⟩))
  · exact Or.inr (Or.inr (Or.inr (Or.inr ⟨by simp [accepted, hreq],
      by simp [rejected, failed, hreq, Except.isOk, Except.toBool],
      by simp [escapes, hunreadable], e, t.retryAfterMilliseconds, hne,
      by simp [exchange, hreq]⟩)))

/-- `sendPost` returns exactly on the outcomes that throw nothing past its handler,
which takes `system_error` and nothing else. -/
theorem sendPost_isOk_iff (t : Transport) (post : Post) (outcome : Outcome) (now : Time) :
    (t.sendPost post outcome now).isOk = true ↔ escapes outcome = false := by
  rcases exchange_cases ((t.recordPost post).recordOutcome outcome) outcome with
    ⟨_, _, _, hesc, h⟩ | ⟨_, _, _, hesc, _, h⟩ | ⟨_, _, _, hesc, h⟩ | ⟨_, _, _, hesc, h⟩ |
    ⟨_, _, hesc, _, _, hne, h⟩
  · simp [sendPost, h, hesc, Except.isOk, Except.toBool]
  · simp [sendPost, h, hesc, Except.isOk, Except.toBool]
  · simp only [sendPost, h, hesc]
    split <;> simp [Except.isOk, Except.toBool]
  · simp [sendPost, h, hesc, Except.isOk, Except.toBool]
  · simp [sendPost, h, hesc, hne, Except.isOk, Except.toBool]

end Sentry.Transport
