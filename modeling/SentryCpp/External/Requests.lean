import SentryCpp.Foundation.Transition
import SentryCpp.External.Connection

/-!
One request after the other. A client has at most one connection at hand, and a
request is written on it or on a new one, and then perhaps once more. The second
connection continues the answer of the first: its status is the one that the
broken connection has sent, if that came as far as the end of its line.

As long as the answers tell where they end, one connection serves all requests
and none reads what belongs to another.

The runs are those of requests that have come to their callback. One that an
exception has left before keeps its connection in use, and is the last of its run.
-/

namespace SimpleWeb

open StdString Number

namespace Pool

/-- Between two requests. -/
structure Idle (pool : Pool) : Prop where
  single : pool.connections.length ≤ 1
  unused : ∀ connection ∈ pool.connections, connection.inUse = false ∧
    connection.id < pool.created

theorem idle_empty : empty.Idle := ⟨by simp [empty], by simp [empty]⟩

/-- While a request is under way: its connection is the only one. -/
def Serving (pool : Pool) (id : Nat) : Prop :=
  ∃ unread, pool.connections = [⟨id, true, unread⟩] ∧ id < pool.created

theorem serving_getConnection {pool : Pool} (h : pool.Idle) :
    pool.getConnection.1.Serving pool.getConnection.2.1.id := by
  obtain ⟨connections, created⟩ := pool
  obtain ⟨hsingle, hunused⟩ := h
  cases connections with
  | nil => exact ⟨[], rfl, Nat.lt_succ_self created⟩
  | cons connection rest =>
      have hrest : rest = [] := List.eq_nil_of_length_eq_zero (by simpa using hsingle)
      subst rest
      obtain ⟨hfree, hid⟩ := hunused connection (by simp)
      exact ⟨connection.unread, by simp [getConnection, hfree], by simp [getConnection, hfree, hid]⟩

theorem serving_create {pool : Pool} {id : Nat} (h : pool.Serving id) :
    (pool.erase id).create.1.Serving (pool.erase id).create.2.id ∧
      id < (pool.erase id).create.2.id := by
  obtain ⟨unread, hconnections, hid⟩ := h
  refine ⟨⟨[], ?_, Nat.lt_succ_self _⟩, hid⟩
  simp [erase, create, hconnections]

theorem callback_of_serving {pool : Pool} {id : Nat} (h : pool.Serving id)
    (unread : List Bytes) (ec : Option ErrorCode) :
    pool.callback id unread ec =
      { pool with connections := if ec.isSome then [] else [⟨id, false, unread⟩] } := by
  obtain ⟨_, hconnections, -⟩ := h
  cases ec <;> simp [callback, hconnections, sweep]

theorem idle_callback {pool : Pool} {id : Nat} (h : pool.Serving id) (unread : List Bytes)
    (ec : Option ErrorCode) : (pool.callback id unread ec).Idle := by
  rw [callback_of_serving h]
  obtain ⟨_, -, hid⟩ := h
  cases ec with
  | none => exact ⟨by simp, by simp [hid]⟩
  | some ec => exact ⟨by simp, by simp⟩

end Pool

/-- The callback was called. -/
def Reading.settled : Reading → Bool
  | .answered _ | .failed _ => true
  | .broken | .threw .. | .badAlloc _ | .undefined _ | .endless => false

/-- If the request has come to its callback, this was for the connection `id`. -/
def Requested.ClosedBy (r : Requested) (pool : Pool) (id : Nat) : Prop :=
  r.reading.settled = true → ∃ unread ec, r.pool = pool.callback id unread ec

theorem closedBy_finish (pool : Pool) (id : Nat) (s : Session) (ended : End)
    (transmissions : List Nat) :
    Requested.ClosedBy ⟨ended.reading s.response, transmissions, pool.finish id s ended⟩ pool
      id := by
  intro hsettled
  cases ended with
  | callback ec => exact ⟨s.pieces, ec, rfl⟩
  | _ => cases hsettled

theorem requestAgain_course (store : FieldStore) (pool : Pool) (id : Nat) (s : Session)
    (link : Link) :
    (requestAgain store pool id s link).transmissions =
        id :: (if link.refusal false = none then [(pool.erase id).create.2.id] else []) ∧
      (requestAgain store pool id s link).ClosedBy (pool.erase id).create.1
        (pool.erase id).create.2.id := by
  cases hrefusal : link.refusal false with
  | some ec =>
      simp only [requestAgain, Session.attempt_of_refusal store hrefusal]
      exact ⟨rfl, fun _ => ⟨_, _, rfl⟩⟩
  | none =>
      simp only [requestAgain, Session.attempt_of_written store hrefusal]
      cases Session.read store link.ending { s with pieces := [] ++ link.pieces } with
      | mk s' ended =>
          cases ended with
          | none => exact ⟨rfl, fun _ => ⟨_, _, rfl⟩⟩
          | some ended => exact ⟨rfl, closedBy_finish _ _ _ _ _⟩

/-- The two ways of a request: on one connection, or on a second one too. -/
theorem requestOver_course (store : FieldStore) (pool : Pool) (first second : Link) :
    ((first.refusal pool.held.isSome ≠ none ∨
        lit "\r\n\r\n" <:+: pool.held.getD [] ++ first.pieces.flatten ∨
        first.ending = .operationAborted) ∧
      (requestOver store pool first second).transmissions =
        (if first.refusal pool.held.isSome = none then [pool.getConnection.2.1.id] else []) ∧
      (requestOver store pool first second).ClosedBy pool.getConnection.1
        pool.getConnection.2.1.id) ∨
    ((first.refusal pool.held.isSome = none ∧
        ¬ lit "\r\n\r\n" <:+: pool.held.getD [] ++ first.pieces.flatten ∧
        first.ending ≠ .operationAborted) ∧
      ∃ s, requestOver store pool first second =
        requestAgain store pool.getConnection.1 pool.getConnection.2.1.id s second) := by
  obtain ⟨hopen, hheld⟩ := held_getConnection pool
  rw [hopen, hheld, requestOver]
  obtain ⟨pool', connection, isOpen⟩ := pool.getConnection
  simp only
  cases hrefusal : first.refusal isOpen with
  | some ec =>
      simp only [Session.attempt_of_refusal store hrefusal]
      exact Or.inl ⟨by simp, rfl, fun _ => ⟨_, _, rfl⟩⟩
  | none =>
      have hattempt := Session.attempt_of_written store hrefusal
        ⟨IfStream.opened [], connection.unread, ⟨[], [], []⟩⟩
      have htotal : Session.total ⟨IfStream.opened [], connection.unread ++ first.pieces,
          ⟨[], [], []⟩⟩ = connection.unread.flatten ++ first.pieces.flatten := by
        rw [Session.total, List.flatten_append]
        rfl
      by_cases hends : lit "\r\n\r\n" <:+: connection.unread.flatten ++ first.pieces.flatten
      · obtain ⟨s', ended, hread, -⟩ := Session.read_of_headed store first.ending
          (s := ⟨IfStream.opened [], connection.unread ++ first.pieces, ⟨[], [], []⟩⟩) rfl
          (htotal ▸ hends)
        simp only [hattempt, hread]
        exact Or.inl ⟨by simp [hends], rfl, closedBy_finish _ _ _ _ _⟩
      · obtain ⟨s', hread, -⟩ := Session.read_of_headless store first.ending
          (s := ⟨IfStream.opened [], connection.unread ++ first.pieces, ⟨[], [], []⟩⟩)
          (htotal ▸ hends)
        simp only [hattempt, hread]
        by_cases haborted : first.ending = .operationAborted
        · rw [if_pos haborted]
          exact Or.inl ⟨by simp [haborted], rfl, fun _ => ⟨_, _, rfl⟩⟩
        · rw [if_neg haborted]
          exact Or.inr ⟨⟨trivial, hends, haborted⟩, s', rfl⟩

theorem idle_requestOver (store : FieldStore) {pool : Pool} (h : pool.Idle) (first second : Link)
    (hsettled : (requestOver store pool first second).reading.settled = true) :
    (requestOver store pool first second).pool.Idle := by
  have hserving := Pool.serving_getConnection h
  rcases requestOver_course store pool first second with ⟨-, -, hclosed⟩ | ⟨-, s, hagain⟩
  · obtain ⟨unread, ec, hpool⟩ := hclosed hsettled
    exact hpool ▸ Pool.idle_callback hserving unread ec
  · rw [hagain] at hsettled ⊢
    obtain ⟨unread, ec, hpool⟩ := (requestAgain_course store _ _ s second).2 hsettled
    exact hpool ▸ Pool.idle_callback (Pool.serving_create hserving).1 unread ec

/-- One request of a client, when it has come to its callback. An exception is no
step of a run. -/
def requestStep (store : FieldStore) (pool : Pool) (links : Link × Link) : Option Pool :=
  let requested := requestOver store pool links.1 links.2
  if requested.reading.settled then some requested.pool else none

theorem idle_run (store : FieldStore) {links : List (Link × Link)} {pool : Pool}
    (hrun : Transition.run (requestStep store) Pool.empty links = some pool) : pool.Idle := by
  refine Transition.run_invariant (fun pool links pool' h hstep => ?_) Pool.idle_empty hrun
  rw [requestStep, Option.ite_none_right_eq_some] at hstep
  obtain ⟨hsettled, hpool⟩ := hstep
  exact Option.some.inj hpool ▸ idle_requestOver store h links.1 links.2 hsettled

/-- Whatever the callbacks of the requests before were given, at most one connection
is at hand and none is in use. The next request is written at most twice, on different
connections, and a second time exactly when no head has come and nothing keeps
the second connection from taking the request. -/
theorem requests_bounded (store : FieldStore) {links : List (Link × Link)} {pool : Pool}
    (hrun : Transition.run (requestStep store) Pool.empty links = some pool)
    (first second : Link) :
    (pool.connections.length ≤ 1 ∧ ∀ connection ∈ pool.connections, connection.inUse = false) ∧
      (requestOver store pool first second).transmissions.Nodup ∧
      (requestOver store pool first second).transmissions.length ≤ 2 ∧
      ((requestOver store pool first second).transmissions.length = 2 ↔
        first.refusal pool.held.isSome = none ∧
          ¬ lit "\r\n\r\n" <:+: pool.held.getD [] ++ first.pieces.flatten ∧
          first.ending ≠ .operationAborted ∧ second.refusal false = none) := by
  have hidle := idle_run store hrun
  refine ⟨⟨hidle.single, fun connection hmem => (hidle.unused connection hmem).1⟩, ?_⟩
  rcases requestOver_course store pool first second with ⟨hhead, htransmissions, -⟩ |
    ⟨⟨hrefusal, hends, haborted⟩, s, hagain⟩
  · rw [htransmissions]
    have hone : ∀ id : Nat, (if first.refusal pool.held.isSome = none then [id] else []).length <
        2 := by
      intro id
      split <;> simp
    refine ⟨by split <;> simp, (hone _).le, iff_of_false (hone _).ne ?_⟩
    rintro ⟨hrefusal, hends, haborted, -⟩
    rcases hhead with h | h | h
    · exact h hrefusal
    · exact hends h
    · exact haborted h
  · rw [hagain, (requestAgain_course store _ _ s second).1]
    have hnext := (Pool.serving_create (Pool.serving_getConnection hidle)).2
    cases hsecond : second.refusal false with
    | some ec => simp
    | none => simp [hrefusal, hends, haborted, hnext.ne]

theorem prefix_of_answerStream {held : Option Bytes} {first second : Link} {t : Bytes}
    {ending : ErrorCode} (h : answerStream held first second = .ok (t, ending)) :
    held.getD [] ++ first.pieces.flatten <+: t := by
  rw [answerStream] at h
  split at h
  · cases h
  · simp only at h
    split at h
    · cases h
      exact List.prefix_refl _
    · split at h
      · cases h
      · split at h
        · cases h
        · split at h
          · cases h
            exact List.prefix_append _ _
          · cases h

theorem parse_of_answered {store : FieldStore} {ending : ErrorCode} {t : Bytes}
    {response : Response} (h : reading store ending t = .answered response) :
    ∃ rest, ResponseMessage.parse store (IfStream.opened t) = .message response rest := by
  rw [reading] at h
  split at h
  · cases h
  · split at h
    · cases h
    · cases h
    · rename_i message rest hparse
      cases hend : bodyEnd ending message (t.length - _) rest.unread with
      | callback ec =>
          rw [hend] at h
          cases ec with
          | none =>
              cases h
              exact ⟨rest, hparse⟩
          | some ec => cases h
      | _ =>
          rw [hend] at h
          cases h

/-- Behind one request that was refused, the next is written twice. -/
theorem requests_bounded_again :
    (requestOver FieldStore.inOrder Pool.empty ⟨none, none, [], .eof⟩
      ⟨none, none, [], .eof⟩).transmissions.length = 2 :=
  (@requests_bounded FieldStore.inOrder
    [(⟨some .other, none, [], .eof⟩, ⟨none, none, [], .eof⟩)] ⟨[], 1⟩ rfl ⟨none, none, [], .eof⟩
    ⟨none, none, [], .eof⟩).2.2.2.mpr (by decide)

/-- A connection that breaks before the head is whole leaves what it has sent in
front of the answer of the second one. If its first line was complete, the answer
has the version and the status of that line, whatever the second connection
sends. -/
theorem status_of_first (store : FieldStore) (pool : Pool) (first second : Link)
    (hline : 10 ∈ pool.held.getD [] ++ first.pieces.flatten) {response : Response}
    (hanswered : (requestOver store pool first second).reading = .answered response) :
    ResponseMessage.statusLine ((pool.held.getD [] ++ first.pieces.flatten).takeWhile (· ≠ 10)) =
      some (response.httpVersion, response.statusCode) := by
  rw [reading_requestOver] at hanswered
  cases hstream : answerStream pool.held first second with
  | error ec =>
      rw [hstream] at hanswered
      cases hanswered
  | ok stream =>
      obtain ⟨t, ending⟩ := stream
      rw [hstream] at hanswered
      obtain ⟨rest, hparse⟩ := parse_of_answered hanswered
      obtain ⟨more, rfl⟩ := prefix_of_answerStream hstream
      obtain ⟨line, behind, hsplit, hfirst⟩ := List.eq_append_cons_of_mem hline
      rw [hsplit, takeWhile_append_of_notMem hfirst]
      rw [hsplit, List.append_assoc, List.cons_append] at hparse
      exact ResponseMessage.statusLine_of_parse hfirst hparse

/-- The first connection breaks behind the status line, the second answers 503. -/
theorem status_of_first_broken :
    ∃ response,
      (requestOver FieldStore.inOrder Pool.empty
        ⟨none, none, [lit "HTTP/1.1 200 OK\r\n"], .eof⟩
        ⟨none, none, [lit "HTTP/1.1 503 Busy\r\nContent-Length: 0\r\n\r\n"], .eof⟩).reading =
          .answered response ∧
      some (lit "1.1", lit "200 OK") = some (response.httpVersion, response.statusCode) := by
  refine ⟨⟨lit "1.1", lit "200 OK", []⟩, ?_, ?_⟩
  · decide +kernel
  · exact status_of_first FieldStore.inOrder Pool.empty
      ⟨none, none, [lit "HTTP/1.1 200 OK\r\n"], .eof⟩
      ⟨none, none, [lit "HTTP/1.1 503 Busy\r\nContent-Length: 0\r\n\r\n"], .eof⟩ (by decide)
      (by decide +kernel)

/-- Requests of one client, one after the other. One that does not come to its
callback is the last. -/
def requests (store : FieldStore) : Pool → List (Link × Link) → List Requested
  | _, [] => []
  | pool, links :: rest =>
      let requested := requestOver store pool links.1 links.2
      requested :: if requested.reading.settled then requests store requested.pool rest else []

/-- The connection takes the request and gives this answer, in any pieces. -/
structure Link.Gives (link : Link) (a : Answer) : Prop where
  opening : link.opening = none
  writing : link.writing = none
  pieces : link.pieces.flatten = a.bytes

/-- The connection takes the request and is closed without an answer, as one is
that has waited too long for the request. -/
structure Link.Closes (link : Link) : Prop where
  opening : link.opening = none
  writing : link.writing = none
  pieces : link.pieces.flatten = []
  ending : link.ending ≠ .operationAborted

/-- The answer comes from the connection at hand or, where this is closed, from
the next. -/
def Answered (a : Answer) (first second : Link) : Prop :=
  first.Gives a ∨ first.Closes ∧ second.Gives a

/-- The connection at hand is the last of those that there have been, or there
has been none, and nothing is left to read on it. -/
def Pool.Kept (pool : Pool) (id : Nat) : Prop :=
  pool = empty ∧ id = 0 ∨
    ∃ unread, pool = ⟨[⟨id, false, unread⟩], id + 1⟩ ∧ unread.flatten = []

/-- The connections on which the requests are to be written: a request goes to
the one at hand and, where this is closed, to the next too. -/
def transmissionsOf : Nat → List Link → List (List Nat)
  | _, [] => []
  | id, link :: rest =>
      if link.pieces.flatten = [] then [id, id + 1] :: transmissionsOf (id + 1) rest
      else [id] :: transmissionsOf id rest

/-- The request has its own answer. -/
def Requested.Reads (r : Requested) (a : Answer) : Prop :=
  ∃ header, header.Perm (a.fields ++ [a.framing.field]) ∧
    r.reading = .answered ⟨a.httpVersion, a.statusCode, header⟩

theorem Pool.Kept.getConnection {pool : Pool} {id : Nat} (h : pool.Kept id) :
    ∃ unread inUse isOpen, pool.getConnection =
        (⟨[⟨id, true, unread⟩], id + 1⟩, ⟨id, inUse, unread⟩, isOpen) ∧ unread.flatten = [] := by
  rcases h with ⟨rfl, rfl⟩ | ⟨unread, rfl, hunread⟩
  · exact ⟨[], true, false, rfl, rfl⟩
  · exact ⟨unread, false, true, by simp [Pool.getConnection], hunread⟩

theorem Link.Gives.written {link : Link} {a : Answer} (h : link.Gives a) (isOpen : Bool) :
    link.refusal isOpen = none := by
  simp [refusal, h.opening, h.writing]

theorem Answer.bytes_ne_nil (a : Answer) : a.bytes ≠ [] := by
  have hhttp : lit "HTTP/" ≠ [] := by decide
  simp [bytes, headBytes, hhttp]

theorem finish_single (id created : Nat) (unread : List Bytes) (s : Session) :
    Pool.finish ⟨[⟨id, true, unread⟩], created⟩ id s (.callback none) =
      ⟨[⟨id, false, s.pieces⟩], created⟩ := by
  simp [Pool.finish, Pool.callback, Pool.sweep]

theorem requestAgain_gives (store : FieldStore) {id : Nat} {unread : List Bytes} {s : Session}
    (hgood : s.Good) (hs : s.content.unread = []) {a : Answer} (ha : a.WellFormed) {link : Link}
    (hgives : link.Gives a) :
    let r := requestAgain store ⟨[⟨id, true, unread⟩], id + 1⟩ id s link
    r.Reads a ∧ r.transmissions = [id, id + 1] ∧ r.pool.Kept (id + 1) := by
  have hattempt := Session.attempt_of_written store (hgives.written false) { s with pieces := [] }
  have htotal : Session.total { s with pieces := [] ++ link.pieces } = a.bytes := by
    rw [Session.total, hs, List.nil_append, List.nil_append, hgives.pieces]
  obtain ⟨s', header, hread, hresponse, hperm, -, hpieces⟩ :=
    Session.read_answer store link.ending ha (s := { s with pieces := [] ++ link.pieces }) hgood
      htotal
  have hcreate : (Pool.erase ⟨[⟨id, true, unread⟩], id + 1⟩ id).create =
      (⟨[⟨id + 1, true, []⟩], id + 2⟩, ⟨id + 1, true, []⟩) := by
    simp [Pool.erase, Pool.create]
  simp only [requestAgain, hcreate, hattempt, hread, End.reading, hresponse, finish_single]
  exact ⟨⟨header, hperm, rfl⟩, trivial, Or.inr ⟨s'.pieces, rfl, hpieces⟩⟩

theorem requestOver_answered (store : FieldStore) {pool : Pool} {id : Nat} (hkept : pool.Kept id)
    {a : Answer} (ha : a.WellFormed) {first second : Link} (h : Answered a first second) :
    let r := requestOver store pool first second
    r.Reads a ∧
      if first.pieces.flatten = [] then r.transmissions = [id, id + 1] ∧ r.pool.Kept (id + 1)
      else r.transmissions = [id] ∧ r.pool.Kept id := by
  obtain ⟨unread, inUse, isOpen, hconnection, hunread⟩ := hkept.getConnection
  have htotal : Session.total ⟨IfStream.opened [], unread ++ first.pieces, ⟨[], [], []⟩⟩ =
      first.pieces.flatten := by
    rw [Session.total, List.flatten_append, hunread]
    rfl
  rcases h with hgives | ⟨hcloses, hgives⟩
  · have hattempt := Session.attempt_of_written store (hgives.written isOpen)
      ⟨IfStream.opened [], unread, ⟨[], [], []⟩⟩
    obtain ⟨s', header, hread, hresponse, hperm, -, hpieces⟩ :=
      Session.read_answer store first.ending ha
        (s := ⟨IfStream.opened [], unread ++ first.pieces, ⟨[], [], []⟩⟩) rfl
        (htotal.trans hgives.pieces)
    simp only [requestOver, hconnection, hattempt, hread, End.reading, hresponse, finish_single,
      hgives.pieces, if_neg a.bytes_ne_nil]
    exact ⟨⟨header, hperm, rfl⟩, trivial, Or.inr ⟨s'.pieces, rfl, hpieces⟩⟩
  · have hrefusal : first.refusal isOpen = none := by
      simp [Link.refusal, hcloses.opening, hcloses.writing]
    have hattempt := Session.attempt_of_written store hrefusal
      ⟨IfStream.opened [], unread, ⟨[], [], []⟩⟩
    have hnone : ¬ lit "\r\n\r\n" <:+:
        Session.total ⟨IfStream.opened [], unread ++ first.pieces, ⟨[], [], []⟩⟩ := by
      rw [htotal, hcloses.pieces]
      decide
    obtain ⟨s', hread, hfollows, hpieces⟩ := Session.read_of_headless store first.ending hnone
    have hempty : s'.content.unread = [] := by
      have hstream := hfollows.total
      rw [htotal, hcloses.pieces, Session.total] at hstream
      exact (List.append_eq_nil_iff.mp hstream).1
    simp only [requestOver, hconnection, hattempt, hread, if_neg hcloses.ending,
      if_pos hcloses.pieces]
    exact requestAgain_gives store (hfollows.good rfl) hempty ha hgives

theorem requests_answered (store : FieldStore) {exchanges : List (Answer × Link × Link)}
    (h : ∀ e ∈ exchanges, e.1.WellFormed ∧ Answered e.1 e.2.1 e.2.2) {pool : Pool} {id : Nat}
    (hkept : pool.Kept id) :
    List.Forall₂ (fun e r => Requested.Reads r e.1) exchanges
        (requests store pool (exchanges.map Prod.snd)) ∧
      (requests store pool (exchanges.map Prod.snd)).map Requested.transmissions =
        transmissionsOf id (exchanges.map fun e => e.2.1) := by
  induction exchanges generalizing pool id with
  | nil => exact ⟨.nil, rfl⟩
  | cons e exchanges ih =>
      obtain ⟨⟨ha, hanswered⟩, hmore⟩ := List.forall_mem_cons.mp h
      obtain ⟨hreads, hnext⟩ := requestOver_answered store hkept ha hanswered
      have hsettled : (requestOver store pool e.2.1 e.2.2).reading.settled = true := by
        obtain ⟨header, -, hreading⟩ := hreads
        rw [hreading]
        rfl
      simp only [List.map_cons, requests, transmissionsOf, hsettled, if_true]
      split at hnext
      · rename_i hclosed
        obtain ⟨htransmissions, hkept'⟩ := hnext
        obtain ⟨hrest, hothers⟩ := ih hmore hkept'
        rw [if_pos hclosed]
        exact ⟨.cons hreads hrest, by rw [htransmissions, hothers]⟩
      · rename_i hgiven
        obtain ⟨htransmissions, hkept'⟩ := hnext
        obtain ⟨hrest, hothers⟩ := ih hmore hkept'
        rw [if_neg hgiven]
        exact ⟨.cons hreads hrest, by rw [htransmissions, hothers]⟩

/-- Keep alive. As long as every answer is well formed, in whatever pieces it
comes, each request has the answer that was given to it. It is written on the
connection of the request before, and once more on a new one exactly when that
has been closed in the meantime. -/
theorem requests_kept_alive (store : FieldStore) {exchanges : List (Answer × Link × Link)}
    (h : ∀ e ∈ exchanges, e.1.WellFormed ∧ Answered e.1 e.2.1 e.2.2) :
    List.Forall₂ (fun e r => Requested.Reads r e.1) exchanges
        (requests store Pool.empty (exchanges.map Prod.snd)) ∧
      (requests store Pool.empty (exchanges.map Prod.snd)).map Requested.transmissions =
        transmissionsOf 0 (exchanges.map fun e => e.2.1) :=
  requests_answered store h (Or.inl ⟨rfl, rfl⟩)

/-- The first answer comes in two pieces; then the server closes the connection. -/
theorem requests_kept_alive_stored :
    (requests FieldStore.inOrder Pool.empty
      [(⟨none, none, [Answer.stored.bytes.take 30, Answer.stored.bytes.drop 30], .eof⟩,
          ⟨some .other, none, [], .eof⟩),
        (⟨none, none, [], .eof⟩, ⟨none, none, [Answer.stored.bytes], .eof⟩)]).map
      Requested.transmissions = [[0], [0, 1]] :=
  (@requests_kept_alive FieldStore.inOrder
    [(Answer.stored, ⟨none, none, [Answer.stored.bytes.take 30, Answer.stored.bytes.drop 30], .eof⟩,
        ⟨some .other, none, [], .eof⟩),
      (Answer.stored, ⟨none, none, [], .eof⟩, ⟨none, none, [Answer.stored.bytes], .eof⟩)]
    (by
      simp only [List.forall_mem_cons]
      exact ⟨⟨Answer.wellFormed_stored, Or.inl ⟨rfl, rfl, by simp⟩⟩,
        ⟨Answer.wellFormed_stored, Or.inr ⟨⟨rfl, rfl, rfl, by decide⟩, ⟨rfl, rfl, by simp⟩⟩⟩,
        by simp⟩)).2

end SimpleWeb
