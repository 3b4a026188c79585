import SentryCpp.External.HttpMessage
import SentryCpp.Transport.Delivery
import SentryCpp.Transport.Grammar

/-!
The POSTs as bytes. The client writes one after the other on its connection, and
nothing but the bytes tells a server where a head, a field or a body ends: a
newline in a field of the header, or a blank in the target, would cut a request
where no cut was meant.

No component of a DSN has a newline, so no field can break out of its line. A
blank is another matter, since the expression takes it for text like any other.
-/

namespace Sentry.Transport

open StdString Number SimpleWeb

/-- What `m_pHttpClient->request(POST, m_dsnStruct.sentry_endpoint, ...)`
writes. -/
def postBytes (dsn : SentryDSN) (client : Client) (post : Post) : Bytes :=
  client.requestBytes (lit "POST") dsn.sentryEndpoint post.content post.header

/-- A request as it reaches a server. -/
structure Received where
  message : RequestMessage
  content : Bytes

/-- A server takes a request off a connection: the head as
`RequestMessage::parse` reads it, and as many bytes as the head announces. -/
def receive (store : FieldStore) (bytes : Bytes) : Option (Received × Bytes) :=
  match RequestMessage.parse store (IfStream.opened bytes) with
  | .message message rest =>
      match findField message.header (lit "Content-Length") with
      | none => some (⟨message, []⟩, rest.unread)
      | some value =>
          match stoul value 10 with
          | .ok length =>
              if length ≤ rest.unread.length then
                some (⟨message, rest.unread.take length⟩, rest.unread.drop length)
              else none
          | .error _ => none
  | .rejected | .endless => none

/-- The first `n` requests on a connection. -/
def receiveAll (store : FieldStore) : Nat → Bytes → Option (List Received × Bytes)
  | 0, bytes => some ([], bytes)
  | n + 1, bytes => do
      let (received, bytes) ← receive store bytes
      let (more, bytes) ← receiveAll store n bytes
      return (received :: more, bytes)

/-- The server sees the POST as it was made. -/
structure ReadsBack (dsn : SentryDSN) (client : Client) (post : Post) (r : Received) : Prop where
  method : r.message.method = lit "POST"
  target : (r.message.path, r.message.queryString) = RequestMessage.splitQuery dsn.sentryEndpoint
  version : r.message.httpVersion = lit "1.1"
  header : r.message.header.Perm ((lit "Host", client.host) :: post.header ++
    Client.contentLengthField post.content post.header)
  content : r.content = post.content

/-- The fields of `createHeader` can be written, and none of them is about the
body. -/
structure Plain (header : Header) : Prop where
  written : ∀ f ∈ header, 58 ∉ f.1 ∧ 10 ∉ f.1 ∧ 10 ∉ f.2
  contentLength : findField header (lit "Content-Length") = none
  transferEncoding : findField header (lit "Transfer-Encoding") = none

theorem newline_notMem_printInt (z : Int) : 10 ∉ printInt z := by
  have hprint := notMem_print (by decide : 1 < 10) (by decide) (c := 10) (by decide) z.natAbs
  rw [printInt]
  split
  · simp [hprint]
  · exact hprint

theorem names_createHeader (t : Transport) (now : Time) :
    (t.createHeader now).map Prod.fst =
      [lit "X-Sentry-Auth", lit "Content-Type", lit "User-Agent"] := rfl

/-- The authorization stays on its line if the keys do. -/
theorem newline_notMem_createHeader {t : Transport} (hkey : 10 ∉ t.dsnStruct.publicKey)
    (hsecret : 10 ∉ t.dsnStruct.secretKey) (now : Time) :
    ∀ value ∈ (t.createHeader now).map Prod.snd, 10 ∉ value := by
  have hfront : 10 ∉ lit "Sentry " ++ lit "sentry_version=" ++ print 10 sentryVersion ++
      lit ", " ++ lit "sentry_client=" ++ clientVersion ++ lit ", " ++
      lit "sentry_timestamp=" := by decide
  have hname : 10 ∉ lit ", " ++ lit "sentry_key=" := by decide
  have hsecretName : 10 ∉ lit ", " ++ lit "sentry_secret=" := by decide
  have htime := newline_notMem_printInt (now.tdiv 1000000000)
  have htype : 10 ∉ lit "application/json" := by decide
  have hversion : 10 ∉ clientVersion := by decide
  simp only [List.mem_append, not_or] at hfront hname hsecretName
  intro value hvalue
  simp only [createHeader, List.map_cons, List.map_nil, List.mem_cons, List.not_mem_nil,
    or_false] at hvalue
  rcases hvalue with rfl | rfl | rfl
  · simp only [List.mem_append, not_or]
    refine ⟨⟨⟨⟨⟨hfront, htime⟩, hname.1⟩, hname.2⟩, hkey⟩, ?_⟩
    split
    · simp [hsecretName, hsecret]
    · simp
  · exact htype
  · exact hversion

theorem plain_createHeader {t : Transport} (hkey : 10 ∉ t.dsnStruct.publicKey)
    (hsecret : 10 ∉ t.dsnStruct.secretKey) (now : Time) : Plain (t.createHeader now) where
  written := by
    have hnames : ∀ name ∈ (t.createHeader now).map Prod.fst, 58 ∉ name ∧ 10 ∉ name := by
      rw [names_createHeader]
      decide
    intro f hf
    obtain ⟨hcolon, hnewline⟩ := hnames f.1 (List.mem_map_of_mem hf)
    exact ⟨hcolon, hnewline, newline_notMem_createHeader hkey hsecret now f.2
      (List.mem_map_of_mem hf)⟩
  contentLength := by
    rw [findField_eq_none_iff, names_createHeader]
    decide
  transferEncoding := by
    rw [findField_eq_none_iff, names_createHeader]
    decide

theorem contentLengthField_of_plain {header : Header} (hheader : Plain header) (content : Bytes) :
    Client.contentLengthField content header =
      if content ≠ [] then [(lit "Content-Length", print 10 content.length)] else [] := by
  simp [Client.contentLengthField, hheader.contentLength, hheader.transferEncoding]

/-- The only field about the body is the one that `request` adds. -/
theorem contentLength_of_perm {header fields : Header} (hfields : Plain fields)
    {host content : Bytes}
    (hperm : header.Perm ((lit "Host", host) :: fields ++
      Client.contentLengthField content fields)) :
    findField header (lit "Content-Length") =
      if content ≠ [] then some (print 10 content.length) else none := by
  have hself : caseInsensitiveEqual (lit "Content-Length") (lit "Content-Length") = true := by
    decide
  have hnone : findField ((lit "Host", host) :: fields) (lit "Content-Length") = none := by
    have hhost : caseInsensitiveEqual (lit "Host") (lit "Content-Length") = false := by decide
    rw [findField_eq_none_iff, List.map_cons, List.forall_mem_cons]
    exact ⟨hhost, findField_eq_none_iff.mp hfields.contentLength⟩
  rw [contentLengthField_of_plain hfields] at hperm
  split
  · rename_i hcontent
    rw [if_pos hcontent] at hperm
    rw [findField_of_perm hperm hnone, if_pos hself]
  · rename_i hcontent
    rw [if_neg hcontent, List.append_nil] at hperm
    rw [findField_eq_none_iff] at hnone ⊢
    intro name hname
    exact hnone name ((hperm.map Prod.fst).mem_iff.mp hname)

/-- One POST is taken off the connection and nothing else. -/
theorem receive_postBytes (store : FieldStore) {dsn : SentryDSN} {client : Client} {post : Post}
    (htarget : 32 ∉ dsn.sentryEndpoint ∧ 10 ∉ dsn.sentryEndpoint) (hpath : dsn.sentryEndpoint ≠ [])
    (hhost : 10 ∉ client.host) (hheader : Plain post.header)
    (hlength : post.content.length < 2 ^ 64) (rest : Bytes) :
    ∃ r, receive store (postBytes dsn client post ++ rest) = some (r, rest) ∧
      ReadsBack dsn client post r := by
  have hfields : ∀ f ∈ (lit "Host", client.host) :: post.header ++
      Client.contentLengthField post.content post.header,
      58 ∉ f.1 ∧ 10 ∉ f.1 ∧ 10 ∉ f.2 := by
    have hname : 58 ∉ lit "Host" ∧ 10 ∉ lit "Host" := by decide
    have hlengthName : 58 ∉ lit "Content-Length" ∧ 10 ∉ lit "Content-Length" := by decide
    intro f hf
    rw [List.cons_append, List.mem_cons, List.mem_append] at hf
    rcases hf with rfl | hf | hf
    · exact ⟨hname.1, hname.2, hhost⟩
    · exact hheader.written f hf
    · rw [contentLengthField_of_plain hheader] at hf
      split at hf
      · obtain rfl := List.mem_singleton.mp hf
        exact ⟨hlengthName.1, hlengthName.2,
          notMem_print (by decide) (by decide) (by decide) post.content.length⟩
      · cases hf
  have hpost : 32 ∉ lit "POST" ∧ 10 ∉ lit "POST" := by decide
  obtain ⟨message, hparse, hmethod, hsplit, hversion, hperm⟩ := RequestMessage.parse_head store
    hpost htarget hfields (post.content ++ rest)
  have hbytes : postBytes dsn client post ++ rest = lit "POST" ++ lit " " ++ dsn.sentryEndpoint ++
      lit " HTTP/1.1\r\n" ++ ((lit "Host", client.host) :: post.header ++
        Client.contentLengthField post.content post.header).flatMap Client.headerLine ++
      lit "\r\n" ++ (post.content ++ rest) := by
    rw [postBytes, Client.requestBytes_eq client hpath, List.append_assoc]
  have hfind := contentLength_of_perm hheader hperm
  rw [hbytes, receive, hparse]
  by_cases hcontent : post.content = []
  · rw [if_neg (by simp [hcontent])] at hfind
    exact ⟨⟨message, []⟩, by simp [hfind, hcontent, IfStream.opened],
      hmethod, hsplit, hversion, hperm, hcontent.symm⟩
  · rw [if_pos hcontent] at hfind
    refine ⟨⟨message, post.content⟩, ?_, hmethod, hsplit, hversion, hperm, rfl⟩
    simp [hfind, stoul_print hlength, IfStream.opened]

theorem dsnStruct_step {w v : World} {a : Action} (hstep : step w a = some v) :
    v.transport.dsnStruct = w.transport.dsnStruct := by
  cases move_of_step hstep with
  | wait =>
      simp only [performNoConnection]
      split <;> rfl
  | _ => rfl

/-- The header of a first attempt is made for it, and the one of a retry is that
of the attempt before. -/
structure Headed (dsn : SentryDSN) (w : World) : Prop where
  target : w.transport.dsnStruct = dsn
  headers : ∀ post ∈ w.transport.history.posts, post.isRetrying = false →
    ∃ (t : Transport) (now : Time), t.dsnStruct = dsn ∧ post.header = t.createHeader now

theorem Headed.step {dsn : SentryDSN} {w v : World} {a : Action} (h : Headed dsn w)
    (hstep : Transport.step w a = some v) : Headed dsn v := by
  refine ⟨(dsnStruct_step hstep).trans h.target, ?_⟩
  have hheaders := h.headers
  cases move_of_step hstep with
  | post now phase task post hworker hpost =>
      intro other hother hfirst
      rcases List.mem_append.mp hother with hold | hnew
      · exact hheaders other hold hfirst
      · obtain rfl := List.mem_singleton.mp hnew
        cases task with
        | first event contents =>
            obtain ⟨client, -, rfl⟩ := Option.map_eq_some_iff.mp hpost
            exact ⟨w.transport, now, h.target, rfl⟩
        | retry event contents header =>
            obtain rfl := Option.some.inj hpost
            cases hfirst
  | wait =>
      simp only [performNoConnection]
      split <;> exact hheaders
  | _ => exact hheaders

theorem headed_start (uninitialised : UInt64) (dsn : SentryDSN) (client : Option Client) :
    Headed dsn (World.start uninitialised dsn client) :=
  ⟨rfl, by simp [World.start, new]⟩

/-- No component of an accepted DSN has a newline. -/
theorem newline_notMem_of_parseDSN {s : Bytes} {newDSNStruct d : SentryDSN}
    (hparse : SentryDSN.parseDSN s newDSNStruct = (.noError, d)) :
    10 ∉ d.publicKey ∧ 10 ∉ d.secretKey ∧ 10 ∉ d.hostPath ∧ 10 ∉ d.sentryEndpoint ∧
      d.sentryEndpoint ≠ [] := by
  obtain ⟨_, p, u, h, i, _, -, hp, hu, hh, hi, -, -, -, rfl⟩ := parseDSN_cut hparse
  have hline : ∀ {b : Bytes}, IsLine b → 10 ∉ b := fun hb hmem => absurd (hb 10 hmem) (by decide)
  have hseparator : 10 ∉ lit "://" := by decide
  have hapi : 10 ∉ lit "/api/" := by decide
  have hstore : 10 ∉ lit "/store/" := by decide
  refine ⟨hline hu, by simp, hline hh, ?_, by simp [lit_separator]⟩
  simp [hline hp, hline hh, hline hi, hseparator, hapi, hstore]

/-- The host of the client is a part of the host path. -/
theorem mem_of_parseHostPort {hostPort host : Bytes} {defaultPort port : Nat}
    (hread : parseHostPort hostPort defaultPort = .ok (host, port)) {b : Byte} (hb : b ∈ host) :
    b ∈ hostPort := by
  rw [parseHostPort] at hread
  split at hread
  · cases hread
    exact hb
  · have hfront := substr_of_le (Nat.zero_le hostPort.length) (find hostPort 58)
    rw [hfront] at hread
    cases hrest : substr hostPort (sizeAdd (find hostPort 58) 1) npos with
    | error e =>
        rw [hrest] at hread
        cases hread
    | ok rest =>
        rw [hrest] at hread
        cases hport : stoul rest 10 with
        | error e => simp [hport, bind, Except.bind] at hread
        | ok n =>
            simp only [hport, bind, Except.bind, pure, Except.pure, Except.ok.injEq,
              Prod.mk.injEq] at hread
            rw [← hread.1, List.drop_zero] at hb
            exact List.mem_of_mem_take hb

/-- Every POST of a run carries a header of `createHeader`. -/
theorem header_of_run {uninitialised : UInt64} {dsn : SentryDSN} {client : Client}
    {schedule : List Action} {w : World}
    (hrun : Transition.run step (World.start uninitialised dsn (some client)) schedule = some w)
    {post : Post} (hpost : post ∈ w.transport.history.posts) :
    ∃ (t : Transport) (now : Time), t.dsnStruct = dsn ∧ post.header = t.createHeader now := by
  have hheaded : Headed dsn w := Transition.run_invariant
    (fun _ _ _ h hstep => h.step hstep) (headed_start uninitialised dsn (some client)) hrun
  have hconnected : Connected w := Transition.run_invariant
    (fun _ _ _ h hstep => h.step hstep) (connected_start uninitialised dsn client) hrun
  cases hretrying : post.isRetrying with
  | false => exact hheaded.headers post hpost hretrying
  | true =>
      obtain ⟨j, hj⟩ := List.mem_iff_getElem?.mp hpost
      obtain ⟨i, outcome, -, hfirst, -⟩ := hconnected.inv.caused j post hj hretrying
      exact hheaded.headers { post with isRetrying := false } (List.mem_of_getElem? hfirst) rfl

theorem receiveAll_flatMap (store : FieldStore) {dsn : SentryDSN} {client : Client}
    {posts : List Post} (hposts : ∀ post ∈ posts, ∀ rest, ∃ r,
      receive store (postBytes dsn client post ++ rest) = some (r, rest) ∧
        ReadsBack dsn client post r) :
    ∃ received,
      receiveAll store posts.length (posts.flatMap (postBytes dsn client)) =
        some (received, []) ∧ List.Forall₂ (ReadsBack dsn client) posts received := by
  induction posts with
  | nil => exact ⟨[], rfl, .nil⟩
  | cons post posts ih =>
      obtain ⟨hpost, hrest⟩ := List.forall_mem_cons.mp hposts
      obtain ⟨received, hreceived, hall⟩ := ih hrest
      obtain ⟨r, hr, hback⟩ := hpost (posts.flatMap (postBytes dsn client))
      refine ⟨r :: received, ?_, .cons hback hall⟩
      simp [receiveAll, hr, hreceived]

theorem parse_of_receive {store : FieldStore} {bytes rest : Bytes} {r : Received}
    (h : receive store bytes = some (r, rest)) :
    ∃ stream, RequestMessage.parse store (IfStream.opened bytes) = .message r.message stream := by
  rw [receive] at h
  cases hparse : RequestMessage.parse store (IfStream.opened bytes) with
  | rejected | endless =>
      rw [hparse] at h
      cases h
  | message message stream =>
      simp only [hparse] at h
      split at h
      · cases h
        exact ⟨stream, rfl⟩
      · split at h
        · split at h
          · cases h
            exact ⟨stream, rfl⟩
          · cases h
        · cases h

/-- No server reads a target with a blank. -/
theorem ReadsBack.blankFree {store : FieldStore} {dsn : SentryDSN} {client : Client} {post : Post}
    {r : Received} {bytes rest : Bytes} (h : ReadsBack dsn client post r)
    (hreceive : receive store bytes = some (r, rest)) : 32 ∉ dsn.sentryEndpoint := by
  obtain ⟨stream, hparse⟩ := parse_of_receive hreceive
  obtain ⟨hpath, hquery⟩ := RequestMessage.blankFree_of_parse hparse
  obtain ⟨hpath', hquery'⟩ := Prod.mk.inj h.target
  rw [hpath'] at hpath
  rw [hquery'] at hquery
  exact RequestMessage.splitQuery_blank hpath hquery

/-- Whatever the threads and the server do, the POSTs of a run are read off the
connection one by one as they were made, with nothing left over. The one thing
that prevents it is a blank in the endpoint. -/
theorem posts_read_back (store : FieldStore) {s : Bytes} {newDSNStruct dsn : SentryDSN}
    {client : Client} {uninitialised : UInt64} {schedule : List Action} {w : World}
    (hparse : SentryDSN.parseDSN s newDSNStruct = (.noError, dsn))
    (hclient : parseHostPort dsn.hostPath 80 = .ok (client.host, client.port))
    (hrun : Transition.run step (World.start uninitialised dsn (some client)) schedule = some w)
    (hposts : w.transport.history.posts ≠ [])
    (hlength : ∀ contents ∈ w.transport.history.pushed, contents.length < 2 ^ 64) :
    (∃ received,
      receiveAll store w.transport.history.posts.length
        (w.transport.history.posts.flatMap (postBytes dsn client)) = some (received, []) ∧
      List.Forall₂ (ReadsBack dsn client) w.transport.history.posts received) ↔
      32 ∉ dsn.sentryEndpoint := by
  obtain ⟨hkey, hsecret, hhostPath, hendpoint, hpath⟩ := newline_notMem_of_parseDSN hparse
  have hconnected : Connected w := Transition.run_invariant
    (fun _ _ _ h hstep => h.step hstep) (connected_start uninitialised dsn client) hrun
  constructor
  · rintro ⟨received, hreceived, hall⟩
    obtain ⟨post, posts, hcons⟩ := List.exists_cons_of_ne_nil hposts
    rw [hcons, List.length_cons, receiveAll] at hreceived
    rw [hcons] at hall
    cases hall with
    | cons hback _ =>
        obtain ⟨⟨first, bytes⟩, hfirst, hmore⟩ := Option.bind_eq_some_iff.mp hreceived
        obtain ⟨⟨more, _⟩, -, hlist⟩ := Option.bind_eq_some_iff.mp hmore
        cases hlist
        exact hback.blankFree hfirst
  · intro hblank
    apply receiveAll_flatMap
    intro post hpost rest
    obtain ⟨t, now, rfl, hheader⟩ := header_of_run hrun hpost
    have hcontent := hlength post.content
      (List.mem_of_getElem? (hconnected.inv.content_of_attempt hpost))
    have hplain : Plain post.header := hheader ▸ plain_createHeader hkey hsecret now
    exact receive_postBytes store ⟨hblank, hendpoint⟩ hpath
      (fun hmem => hhostPath (mem_of_parseHostPort hclient hmem)) hplain hcontent rest

def publicClient : Client := ⟨lit "sentry.io", 80⟩

/-- Three POSTs to an endpoint without a blank. -/
theorem posts_read_back_publicDSN :
    ∃ w, Transition.run step (World.start 0 publicDSN (some publicClient)) rejectedOnce =
        some w ∧ w.transport.history.posts.length = 3 ∧
      ∃ received,
        receiveAll .inOrder w.transport.history.posts.length
          (w.transport.history.posts.flatMap (postBytes publicDSN publicClient)) =
            some (received, []) ∧
        List.Forall₂ (ReadsBack publicDSN publicClient) w.transport.history.posts received := by
  have hprotocol : IsLine (lit "https") := by decide
  have hkey : IsLine (lit "example_key") := by decide
  have hhost : IsLine (lit "sentry.io") := by decide
  have hproject : IsLine (lit "project_ID") := by decide
  have hparse := parseDSN_eq hprotocol hkey hhost hproject (by decide) (by decide) (by decide)
    (by decide) publicDSN
  have hhistory :
      (Transition.run step (World.start 0 publicDSN (some publicClient))
        rejectedOnce).map (fun w =>
          (w.transport.history.posts.length, w.transport.history.pushed)) =
        some (3, [lit "b", lit "a"]) := by decide
  obtain ⟨w, hrun, hhistory⟩ := Option.map_eq_some_iff.mp hhistory
  obtain ⟨hthree, hpushed⟩ := Prod.mk.inj hhistory
  have hlength : ∀ contents ∈ w.transport.history.pushed, contents.length < 2 ^ 64 := by
    rw [hpushed]
    decide
  have hposts : w.transport.history.posts ≠ [] := List.ne_nil_of_length_pos (by omega)
  have hread : parseHostPort publicDSN.hostPath 80 =
      .ok (publicClient.host, publicClient.port) := by decide
  exact ⟨w, hrun, hthree,
    (posts_read_back .inOrder hparse hread hrun hposts hlength).mpr (by decide)⟩

end Sentry.Transport
