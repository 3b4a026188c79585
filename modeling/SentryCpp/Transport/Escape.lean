import SentryCpp.External.Connection
import SentryCpp.Transport.Answer

/-!
Which answers end the process. What leaves `sendPost` leaves `performSendEvents`
and `run` too. `escapes` tells it of an outcome; here it is told of the bytes that
the server sends. There are three kinds of them: a `Content-Length` that is no
number, a chunk that the client has no handler for, and a 429 with a `Retry-After`
that is no number.
-/

namespace Sentry.Transport

open StdString SimpleWeb

/-- The stream of an answer, which `ending` closes, makes `sendPost` throw past its
handler. -/
inductive Escaping (store : FieldStore) (ending : ErrorCode) (t : Bytes) : Prop where
  | contentLength {response : Response} {rest : IfStream}
      (hparse : ResponseMessage.parse store (IfStream.opened t) = .message response rest)
      (hlength : contentLengthOk response.header = false)
  | chunk (hfatal : FatalAnswer store t)
  | retryAfter {response : Response} (hread : reading store ending t = .answered response)
      (hstatus : SimpleWeb.statusCode response.statusCode = .clientErrorTooManyRequests)
      (hfields : retryAfterOk response.header = false)

/-- Behind a head the three kinds are told apart by the way in which the handlers
end. -/
theorem escapes_bodyEnd_iff (ending : ErrorCode) (response : Response) (additional : Nat)
    (rest : Bytes) :
    escapes ((bodyEnd ending response additional rest).reading response).outcome = true ↔
      contentLengthOk response.header = false ∨
      (chunked response.header = true ∧ Fatal rest) ∨
      ((bodyEnd ending response additional rest).reading response = .answered response ∧
        SimpleWeb.statusCode response.statusCode = .clientErrorTooManyRequests ∧
        retryAfterOk response.header = false) := by
  rcases bodyEnd_cases ending response additional rest with ⟨hlength, e, -, hend⟩ |
    ⟨hread, hnot, ec, hend⟩ | ⟨hchunked, hfatal, hend⟩
  · rw [hend]
    simp [End.reading, Reading.outcome, escapes, Outcome.unreadable, Outcome.faulty, Outcome.head,
      hlength]
  · have hlength : contentLengthOk response.header = true := by
      rcases readResponse_cases response with ⟨hlength, -⟩ | ⟨-, e, hthrow⟩
      · exact hlength
      · rw [hread] at hthrow
        cases hthrow
    rw [hend, or_iff_right (by simp [hlength]), or_iff_right hnot]
    cases ec with
    | none =>
        simp [End.reading, Reading.outcome, escapes, Outcome.unreadable, Outcome.faulty,
          Outcome.head, hlength]
    | some ec =>
        simp [End.reading, Reading.outcome, escapes, Outcome.unreadable, Outcome.faulty,
          Outcome.head]
  · apply iff_of_true _ (Or.inr (Or.inl ⟨hchunked, hfatal⟩))
    rcases hend with hend | hend <;> rw [hend] <;>
      simp [End.reading, Reading.outcome, escapes, Outcome.unreadable, Outcome.faulty, hchunked]

theorem escapes_reading_iff (store : FieldStore) (ending : ErrorCode) {t : Bytes}
    (hends : lit "\r\n\r\n" <:+: t) :
    escapes (reading store ending t).outcome = true ↔ Escaping store ending t := by
  rcases reading_of_infix store ending hends with ⟨hparse, hreading⟩ |
    ⟨response, rest, additional, hparse, hreading⟩
  · apply iff_of_false
    · simp [hreading, Reading.outcome, escapes, Outcome.unreadable, Outcome.faulty, Outcome.head]
    · intro h
      cases h with
      | contentLength hmessage => simp [hparse] at hmessage
      | chunk hfatal =>
          obtain ⟨response, rest, hmessage, -⟩ := hfatal
          simp [hparse] at hmessage
      | retryAfter hread => simp [hreading] at hread
  · rw [hreading, escapes_bodyEnd_iff, ← hreading]
    constructor
    · rintro (hlength | ⟨hchunked, hfatal⟩ | ⟨hread, hstatus, hfields⟩)
      · exact .contentLength hparse hlength
      · obtain ⟨hnone, htransfer⟩ := (chunked_iff _).mp hchunked
        exact .chunk ⟨response, rest, hparse, hnone, htransfer, hfatal⟩
      · exact .retryAfter hread hstatus hfields
    · intro h
      cases h with
      | contentLength hmessage hlength =>
          obtain ⟨rfl, rfl⟩ := Parsed.message.inj (hparse.symm.trans hmessage)
          exact Or.inl hlength
      | chunk hfatal =>
          obtain ⟨_, _, hmessage, hnone, htransfer, hrest⟩ := hfatal
          obtain ⟨rfl, rfl⟩ := Parsed.message.inj (hparse.symm.trans hmessage)
          exact Or.inr (Or.inl ⟨(chunked_iff _).mpr ⟨hnone, htransfer⟩, hrest⟩)
      | retryAfter hread hstatus hfields =>
          have hsame := hreading.symm.trans hread
          cases hend : bodyEnd ending response additional rest.unread with
          | callback ec =>
              rw [hend] at hsame
              cases ec with
              | none =>
                  cases hsame
                  exact Or.inr (Or.inr ⟨hread, hstatus, hfields⟩)
              | some ec => cases hsame
          | _ =>
              rw [hend] at hsame
              cases hsame

/-- `sendPost` returns exactly on the outcomes that make nothing throw past its
handler. Over the connections of the client these are the streams in which no
answer of the three kinds is found, however they were cut. -/
theorem sendPost_returns_iff (t : Transport) (post : Post) (now : Time) :
    (∀ outcome, (t.sendPost post outcome now).isOk = true ↔ escapes outcome = false) ∧
    ∀ (store : FieldStore) (pool : Pool) (first second : Link),
      (t.sendPost post (requestOver store pool first second).reading.outcome now).isOk = true ↔
        ∀ s ending, answerStream pool.held first second = .ok (s, ending) →
          ¬ Escaping store ending s := by
  refine ⟨fun outcome => sendPost_isOk_iff t post outcome now, ?_⟩
  intro store pool first second
  rw [sendPost_isOk_iff, reading_requestOver]
  cases hstream : answerStream pool.held first second with
  | error ec => exact iff_of_true rfl (by simp)
  | ok stream =>
      obtain ⟨s, ending⟩ := stream
      have hescapes := escapes_reading_iff store ending (infix_of_answerStream hstream)
      rw [readingOf, ← Bool.not_eq_true, hescapes]
      constructor
      · rintro hnot s' ending' heq
        cases heq
        exact hnot
      · intro h
        exact h s ending rfl

/-- A 200 with a chunk whose length, with the two bytes behind it, wraps to zero. -/
example : ((new 0).sendPost ⟨0, false, lit "{}", []⟩ (reading FieldStore.inOrder .eof
    (lit "HTTP/1.1 200 OK\r\nTransfer-Encoding: chunked\r\n\r\nfffffffffffffffe\r\n")).outcome
      0) = .error .badAlloc := by decide +kernel

/-- A 429 whose `Retry-After` is an HTTP date. -/
theorem sendPost_throws_on_http_date :
    ¬ ∀ (t : Transport) (post : Post) (outcome : Outcome) (now : Time),
      (t.sendPost post outcome now).isOk = true := by
  intro h
  have hdate := h (new 0) ⟨0, false, lit "{}", []⟩
    (.response ⟨lit "1.1", lit "429 Too Many Requests",
      [(lit "Retry-After", lit "Wed, 21 Oct 2015 07:28:00 GMT")]⟩) 0
  revert hdate
  decide

end Sentry.Transport
