import SentryCpp.Hub.Init
import SentryCpp.Transport.Grammar

/-!
The server that a client is set up for. `parseDSN` does not look into the host
path. The constructor of the client does, once the DSN has been accepted: it
cuts at the first colon and converts what follows to a port. A conversion that
throws ends the process, one that reads more than 16 bits is narrowed, and a
path in front of the colon, or without one, stays with the host.
-/

namespace Sentry

open StdString Number SimpleWeb

/-- The decimal in front of the first slash, if it is a port. -/
def writtenPort (s : Bytes) : Option Nat :=
  let digits := s.takeWhile (· ≠ 47)
  let value := valueOf 10 (digitsPrefix 10 digits)
  if digits ≠ [] ∧ digits.all (fun c => (digitOf 10 c).isSome) ∧ value ≤ 65535 then some value
  else none

def isHostByte (c : Byte) : Bool := c ≠ 58 && c ≠ 47

/-- The server that a host path names. The host goes up to the first colon or
slash, and a port follows a colon. -/
def writtenTarget (hostPath : Bytes) : Option Client :=
  let host := hostPath.takeWhile isHostByte
  match hostPath.dropWhile isHostByte with
  | 58 :: port => (writtenPort port).map fun port => ⟨host, port⟩
  | _ => some ⟨host, 80⟩

/-- A host with nothing behind it, or with a port. -/
def PlainHost (hostPath : Bytes) : Prop :=
  ∃ host rest, hostPath = host ++ rest ∧ (∀ c ∈ host, isHostByte c = true) ∧
    (rest = [] ∨ ∃ port, rest = 58 :: port ∧ (writtenPort port).isSome = true)

/-- A byte of the host is followed by no more of it. -/
theorem hostPath_cases (hostPath : Bytes) :
    ∃ host, (∀ c ∈ host, isHostByte c = true) ∧
      (hostPath = host ∨
        ∃ rest, hostPath = host ++ 58 :: rest ∨ hostPath = host ++ 47 :: rest) := by
  refine ⟨hostPath.takeWhile isHostByte, ?_, ?_⟩
  · intro c hc
    exact List.mem_takeWhile_imp hc
  · have hsplit := List.takeWhile_append_dropWhile (p := isHostByte) (l := hostPath)
    cases hrest : hostPath.dropWhile isHostByte with
    | nil =>
        rw [hrest, List.append_nil] at hsplit
        exact Or.inl hsplit.symm
    | cons c rest =>
        have hc : isHostByte c = false := by
          have hhead := List.head?_dropWhile_not isHostByte hostPath
          rw [hrest] at hhead
          simpa using hhead
        rw [hrest] at hsplit
        refine Or.inr ⟨rest, ?_⟩
        rw [isHostByte, Bool.and_eq_false_iff] at hc
        rcases hc with hcolon | hslash
        · obtain rfl : c = 58 := by simpa using hcolon
          exact Or.inl hsplit.symm
        · obtain rfl : c = 47 := by simpa using hslash
          exact Or.inr hsplit.symm

section Written

variable {host : Bytes} (hhost : ∀ c ∈ host, isHostByte c = true)

include hhost

theorem notMem_host : 58 ∉ host ∧ 47 ∉ host := by
  constructor
  · intro hcolon
    exact absurd (hhost 58 hcolon) (by decide)
  · intro hslash
    exact absurd (hhost 47 hslash) (by decide)

theorem writtenTarget_host : writtenTarget host = some ⟨host, 80⟩ := by
  have htake : host.takeWhile isHostByte = host := List.takeWhile_eq_self_iff.mpr hhost
  have hdrop : host.dropWhile isHostByte = [] := List.dropWhile_eq_nil_iff.mpr hhost
  rw [writtenTarget, htake, hdrop]

theorem takeWhile_host {c : Byte} (hc : isHostByte c = false) (rest : Bytes) :
    (host ++ c :: rest).takeWhile isHostByte = host := by
  rw [List.takeWhile_append_of_pos hhost]
  simp [hc]

theorem dropWhile_host {c : Byte} (hc : isHostByte c = false) (rest : Bytes) :
    (host ++ c :: rest).dropWhile isHostByte = c :: rest := by
  rw [List.dropWhile_append_of_pos hhost]
  simp [hc]

theorem writtenTarget_port (port : Bytes) :
    writtenTarget (host ++ 58 :: port) = (writtenPort port).map fun port => ⟨host, port⟩ := by
  rw [writtenTarget, takeWhile_host hhost (by decide), dropWhile_host hhost (by decide)]
  rfl

theorem writtenTarget_path (path : Bytes) :
    writtenTarget (host ++ 47 :: path) = some ⟨host, 80⟩ := by
  rw [writtenTarget, takeWhile_host hhost (by decide), dropWhile_host hhost (by decide)]
  simp

end Written

/-- A written port is the number that the client reads. -/
theorem stoul_of_writtenPort {s : Bytes} {port : Nat} (hport : writtenPort s = some port) :
    stoul s 10 = .ok port ∧ port ≤ 65535 := by
  rw [writtenPort, Option.ite_none_right_eq_some] at hport
  obtain ⟨⟨hne, hdigits, hle⟩, hvalue⟩ := hport
  rw [Option.some.injEq] at hvalue
  subst port
  refine ⟨?_, hle⟩
  have hread := stoul_of_digits hne (List.all_eq_true.mp hdigits) (by omega)
  have hsplit := List.takeWhile_append_dropWhile (p := fun c : Byte => decide (c ≠ 47)) (l := s)
  cases hrest : s.dropWhile (fun c : Byte => decide (c ≠ 47)) with
  | nil =>
      rw [hrest, List.append_nil] at hsplit
      rw [hsplit] at hread ⊢
      exact hread
  | cons c rest =>
      have hhead := List.head?_dropWhile_not (fun c : Byte => decide (c ≠ 47)) s
      rw [hrest] at hhead
      obtain rfl : c = 47 := by simpa using hhead
      rw [hrest] at hsplit
      have hslash := stoul_append_of_stop (c := 47) (by decide)
        (s.takeWhile (fun c : Byte => decide (c ≠ 47))) rest 10
      rw [hsplit] at hslash
      rw [hslash]
      exact hread

theorem parseHostPort_of_notMem {hostPort : Bytes} (h : 58 ∉ hostPort) (defaultPort : Nat) :
    parseHostPort hostPort defaultPort = .ok (hostPort, defaultPort) := by
  simp [parseHostPort, find, h]

theorem parseHostPort_colon {host port : Bytes} (h : 58 ∉ host)
    (hlength : (host ++ 58 :: port).length < npos) (defaultPort : Nat) :
    parseHostPort (host ++ 58 :: port) defaultPort =
      (stoul port 10).map fun port => (host, port % 2 ^ 16) := by
  have hlt : (host ++ 58 :: port).length < 2 ^ 64 := by
    unfold npos at hlength
    omega
  have hend : host.length ≠ npos := by
    simp only [List.length_append, List.length_cons] at hlength
    omega
  have htake : port.take npos = port := by
    apply List.take_of_length_le
    simp only [List.length_append, List.length_cons] at hlength
    omega
  have hbefore := substr_before h port
  rw [find_append_of_notMem h] at hbefore
  simp only [parseHostPort, find_append_of_notMem h, if_neg hend, hbefore,
    substr_after hlt, htake]
  cases hport : stoul port 10 with
  | ok n => simp [hport, bind, Except.bind, Except.map, pure, Except.pure]
  | error e => simp [hport, bind, Except.bind, Except.map]

theorem isSome_writtenTarget_of_plainHost {hostPath : Bytes} (h : PlainHost hostPath) :
    (writtenTarget hostPath).isSome = true := by
  obtain ⟨host, rest, rfl, hhost, rfl | ⟨port, rfl, hport⟩⟩ := h
  · rw [List.append_nil, writtenTarget_host hhost, Option.isSome_some]
  · rw [writtenTarget_port hhost, Option.isSome_map, hport]

theorem not_plainHost_path {host : Bytes} (hhost : ∀ c ∈ host, isHostByte c = true)
    (path : Bytes) : ¬ PlainHost (host ++ 47 :: path) := by
  have hdrop := dropWhile_host hhost (c := 47) (by decide) path
  rintro ⟨host', rest, heq, hhost', hrest⟩
  rw [heq] at hdrop
  rcases hrest with rfl | ⟨port, rfl, -⟩
  · rw [List.append_nil, List.dropWhile_eq_nil_iff.mpr hhost'] at hdrop
    cases hdrop
  · rw [dropWhile_host hhost' (by decide)] at hdrop
    exact absurd (List.cons.inj hdrop).1 (by decide)

/-- Up to its first colon a text with a slash is no host. -/
theorem host_ne_of_path {host path : Bytes} (hcolon : 58 ∉ host)
    (hlength : (host ++ 47 :: path).length < npos) {client : Client}
    (hread : parseHostPort (host ++ 47 :: path) 80 = .ok (client.host, client.port)) :
    client.host ≠ host := by
  by_cases hpath : 58 ∈ path
  · obtain ⟨a, b, rfl, ha⟩ := List.eq_append_cons_of_mem hpath
    have hsplit : host ++ 47 :: (a ++ 58 :: b) = (host ++ 47 :: a) ++ 58 :: b := by simp
    rw [hsplit] at hread hlength
    rw [parseHostPort_colon (by simp [hcolon, ha]) hlength] at hread
    cases hport : stoul b 10 with
    | ok port =>
        rw [hport] at hread
        have hhost : host ++ 47 :: a = client.host := (Prod.mk.inj (Except.ok.inj hread)).1
        simp [← hhost]
    | error e =>
        rw [hport] at hread
        cases hread
  · rw [parseHostPort_of_notMem (by simp [hcolon, hpath])] at hread
    have hhost : host ++ 47 :: path = client.host := (Prod.mk.inj (Except.ok.inj hread)).1
    simp [← hhost]

/-- The client cuts the host path as it is written where it is a host with
nothing behind it, or with a port. -/
theorem parseHostPort_written_iff {hostPath : Bytes} (hlength : hostPath.length < npos) :
    (∃ client : Client, parseHostPort hostPath 80 = .ok (client.host, client.port) ∧
      writtenTarget hostPath = some client) ↔ PlainHost hostPath := by
  obtain ⟨host, hhost, hcases⟩ := hostPath_cases hostPath
  obtain ⟨hcolon, hslash⟩ := notMem_host hhost
  rcases hcases with rfl | ⟨rest, rfl | rfl⟩
  · refine iff_of_true ⟨⟨hostPath, 80⟩, ?_, writtenTarget_host hhost⟩ ?_
    · exact parseHostPort_of_notMem hcolon 80
    · exact ⟨hostPath, [], (List.append_nil _).symm, hhost, Or.inl rfl⟩
  · constructor
    · rintro ⟨client, -, hwritten⟩
      rw [writtenTarget_port hhost] at hwritten
      obtain ⟨port, hport, -⟩ := Option.map_eq_some_iff.mp hwritten
      exact ⟨host, 58 :: rest, rfl, hhost, Or.inr ⟨rest, rfl, by rw [hport, Option.isSome_some]⟩⟩
    · intro hplain
      have hsome := isSome_writtenTarget_of_plainHost hplain
      rw [writtenTarget_port hhost, Option.isSome_map] at hsome
      obtain ⟨port, hport⟩ := Option.isSome_iff_exists.mp hsome
      obtain ⟨hread, hle⟩ := stoul_of_writtenPort hport
      refine ⟨⟨host, port⟩, ?_, ?_⟩
      · rw [parseHostPort_colon hcolon hlength, hread]
        simp only [Except.map, Nat.mod_eq_of_lt (show port < 2 ^ 16 by omega)]
      · rw [writtenTarget_port hhost, hport, Option.map_some]
  · refine iff_of_false ?_ (not_plainHost_path hhost rest)
    rintro ⟨client, hread, hwritten⟩
    rw [writtenTarget_path hhost, Option.some.injEq] at hwritten
    apply host_ne_of_path hcolon hlength hread
    rw [← hwritten]

/-- The host path of a DSN that is accepted. -/
def acceptedHostPath (dsn : Bytes) : Option Bytes :=
  match SentryDSN.parseDSN dsn ⟨[], [], [], [], [], [], [], []⟩ with
  | (.noError, newDSNStruct) => some newDSNStruct.hostPath
  | _ => none

/-- The client goes where the host path says, and a host path that says nowhere
is refused. -/
structure Honours (dsn : Bytes) (errorCode : EErrorCode) (h : Hub) : Prop where
  target : errorCode = .noError →
    ∃ hostPath ∈ acceptedHostPath dsn, ∃ t ∈ h.httpClient, ∃ client ∈ t.httpClient,
      writtenTarget hostPath = some client
  refused : ∀ hostPath ∈ acceptedHostPath dsn, writtenTarget hostPath = none →
    errorCode = .wrongDsn

theorem acceptedHostPath_eq_some {dsn hostPath : Bytes}
    (haccepted : acceptedHostPath dsn = some hostPath) :
    ∃ d, SentryDSN.parseDSN dsn ⟨[], [], [], [], [], [], [], []⟩ = (.noError, d) ∧
      d.hostPath = hostPath := by
  rw [acceptedHostPath] at haccepted
  split at haccepted
  · rename_i d hparse
    exact ⟨d, hparse, Option.some.inj haccepted⟩
  · cases haccepted

theorem length_hostPath_le {dsn : Bytes} {newDSNStruct d : SentryDSN}
    (hparse : SentryDSN.parseDSN dsn newDSNStruct = (.noError, d)) :
    d.hostPath.length ≤ dsn.length := by
  obtain ⟨before, p, u, h, i, after, rfl, -, -, -, -, -, -, -, rfl⟩ := parseDSN_cut hparse
  simp only [List.length_append]
  omega

/-- An empty text is no DSN. -/
theorem ne_nil_of_parseDSN {dsn : Bytes} {newDSNStruct d : SentryDSN}
    (hparse : SentryDSN.parseDSN dsn newDSNStruct = (.noError, d)) : dsn ≠ [] := by
  rintro rfl
  obtain ⟨a, u, h, b, hnil, -⟩ :=
    (parseDSN_eq_noError_iff [] newDSNStruct).mp (by rw [hparse])
  simp [lit_separator] at hnil

/-- The hub with a client for the given server. -/
def Hub.targeting (h : Hub) (initParameters : SentryOptions) (uninitialised : UInt64)
    (d : SentryDSN) (client : Client) : Hub :=
  Api.setOptions { h.configured initParameters with
    httpClient := some { (Transport.new uninitialised).start with
      dsnStruct := d
      httpClient := some client }
    initialised := true } initParameters

theorem targeting_httpClient (h : Hub) (initParameters : SentryOptions) (uninitialised : UInt64)
    (d : SentryDSN) (client : Client) :
    (h.targeting initParameters uninitialised d client).httpClient =
      some { (Transport.new uninitialised).start with
        dsnStruct := d
        httpClient := some client } :=
  (setOptions_scope _ initParameters).2.1

/-- The DSN is honoured by the client that it was written for. -/
theorem honours_targeting_iff {dsn : Bytes} {d : SentryDSN}
    (haccepted : acceptedHostPath dsn = some d.hostPath) (h : Hub)
    (initParameters : SentryOptions) (uninitialised : UInt64) (client : Client) :
    Honours dsn .noError (h.targeting initParameters uninitialised d client) ↔
      writtenTarget d.hostPath = some client := by
  constructor
  · intro hhonours
    obtain ⟨hostPath, haccepted', t, ht, client', hclient, hwritten⟩ := hhonours.target rfl
    obtain rfl : d.hostPath = hostPath := Option.some.inj (haccepted.symm.trans haccepted')
    rw [targeting_httpClient] at ht
    cases ht
    cases hclient
    exact hwritten
  · intro hwritten
    constructor
    · intro _
      exact ⟨d.hostPath, haccepted, _, targeting_httpClient h initParameters uninitialised d _,
        client, rfl, hwritten⟩
    · intro hostPath haccepted' hnone
      obtain rfl : d.hostPath = hostPath := Option.some.inj (haccepted.symm.trans haccepted')
      rw [hwritten] at hnone
      cases hnone

/-- A DSN that is not accepted is an error, or none at all. -/
theorem honours_of_not_accepted {initParameters : SentryOptions} {dsnEnv : Option Bytes}
    (hnone : acceptedHostPath (Api.finalDsn initParameters dsnEnv) = none) (h : Hub)
    (uninitialised : UInt64) :
    ∃ errorCode h', Api.init h initParameters dsnEnv uninitialised = some (errorCode, h') ∧
      Honours (Api.finalDsn initParameters dsnEnv) errorCode h' := by
  have hhonours (errorCode : EErrorCode) (h' : Hub) (hcode : errorCode ≠ .noError) :
      Honours (Api.finalDsn initParameters dsnEnv) errorCode h' := by
    constructor
    · intro hok
      exact absurd hok hcode
    · simp [hnone]
  rw [Api.init]
  split
  · exact ⟨_, _, rfl, hhonours _ _ (by decide)⟩
  · rcases parseDSN_cases (Api.finalDsn initParameters dsnEnv)
      ⟨[], [], [], [], [], [], [], []⟩ with ⟨d, hparse⟩ | hparse
    · rw [acceptedHostPath, hparse] at hnone
      cases hnone
    · rw [Hub.init, hparse]
      exact ⟨_, _, rfl, hhonours _ _ (by decide)⟩

section Init

variable {h : Hub} {initParameters : SentryOptions} {dsnEnv : Option Bytes}
  {uninitialised : UInt64} {d : SentryDSN}
  (hparse : SentryDSN.parseDSN (Api.finalDsn initParameters dsnEnv)
    ⟨[], [], [], [], [], [], [], []⟩ = (.noError, d))

include hparse

/-- Behind an accepted DSN all depends on the port. -/
theorem init_of_parseDSN (hstopped : ∀ old ∈ h.httpClient, old.shouldStop = true) :
    Api.init h initParameters dsnEnv uninitialised =
      match parseHostPort d.hostPath 80 with
      | .ok (host, port) =>
          some (.noError, h.targeting initParameters uninitialised d ⟨host, port⟩)
      | .error _ => none := by
  have hall : (h.configured initParameters).httpClient.all (fun old => old.shouldStop) = true :=
    (Option.all_eq_true _ _).mpr hstopped
  rw [Api.init, if_neg (ne_nil_of_parseDSN hparse), Hub.init, hparse]
  change Option.map _ (((h.configured initParameters).setHttpClient _).bind _) = _
  rw [Hub.setHttpClient, if_pos hall, Option.bind_some, Transport.setupClient]
  cases parseHostPort d.hostPath 80 with
  | ok target => rfl
  | error e => rfl

theorem init_of_running {old : Transport} (hold : old ∈ h.httpClient)
    (hrunning : old.shouldStop = false) :
    Api.init h initParameters dsnEnv uninitialised = none := by
  have hclient : (h.configured initParameters).httpClient = some old := hold
  rw [Api.init, if_neg (ne_nil_of_parseDSN hparse), Hub.init, hparse]
  change Option.map _ (((h.configured initParameters).setHttpClient _).bind _) = _
  rw [Hub.setHttpClient, hclient, Option.all_some, hrunning]
  rfl

end Init

/-- A DSN is honoured unless it is accepted with a host path that the client
cuts differently, or over a transport that still runs. -/
theorem init_honours_iff (h : Hub) (initParameters : SentryOptions) (dsnEnv : Option Bytes)
    (uninitialised : UInt64) (hlength : (Api.finalDsn initParameters dsnEnv).length < npos) :
    (∃ errorCode h', Api.init h initParameters dsnEnv uninitialised = some (errorCode, h') ∧
      Honours (Api.finalDsn initParameters dsnEnv) errorCode h') ↔
    ∀ hostPath ∈ acceptedHostPath (Api.finalDsn initParameters dsnEnv),
      PlainHost hostPath ∧ ∀ old ∈ h.httpClient, old.shouldStop = true := by
  constructor
  · rintro ⟨errorCode, h', hinit, hhonours⟩ hostPath haccepted
    obtain ⟨d, hparse, rfl⟩ := acceptedHostPath_eq_some haccepted
    have hstopped : ∀ old ∈ h.httpClient, old.shouldStop = true := by
      intro old hold
      rw [← Bool.not_eq_false]
      intro hrunning
      rw [init_of_running hparse hold hrunning] at hinit
      cases hinit
    refine ⟨?_, hstopped⟩
    rw [← parseHostPort_written_iff ((length_hostPath_le hparse).trans_lt hlength)]
    rw [init_of_parseDSN hparse hstopped] at hinit
    split at hinit
    · rename_i host port hread
      cases hinit
      exact ⟨⟨host, port⟩, hread, (honours_targeting_iff haccepted h _ _ _).mp hhonours⟩
    · cases hinit
  · intro hplain
    cases haccepted : acceptedHostPath (Api.finalDsn initParameters dsnEnv) with
    | none => exact honours_of_not_accepted haccepted h uninitialised
    | some hostPath =>
        obtain ⟨hhost, hstopped⟩ := hplain hostPath haccepted
        obtain ⟨d, hparse, rfl⟩ := acceptedHostPath_eq_some haccepted
        rw [← parseHostPort_written_iff ((length_hostPath_le hparse).trans_lt hlength)] at hhost
        obtain ⟨client, hread, hwritten⟩ := hhost
        rw [init_of_parseDSN hparse hstopped, hread]
        exact ⟨_, _, rfl, (honours_targeting_iff haccepted h _ _ _).mpr hwritten⟩

/-- A DSN with the given host path. -/
def keyDsn (hostPath : Bytes) : Bytes :=
  lit "http" ++ (lit "://" ++ (lit "key" ++ (lit "@" ++ (hostPath ++ (lit "/" ++ lit "1")))))

def keyOptions (hostPath : Bytes) : SentryOptions := ⟨keyDsn hostPath, [], [], 100, 100, false⟩

theorem parseDSN_keyOptions (hostPath : Bytes) (hline : IsLine hostPath) (hat : 64 ∉ hostPath) :
    ∃ d, SentryDSN.parseDSN (Api.finalDsn (keyOptions hostPath) none)
        ⟨[], [], [], [], [], [], [], []⟩ = (.noError, d) ∧ d.hostPath = hostPath := by
  have hprotocol : IsLine (lit "http") := by decide
  have hkey : IsLine (lit "key") := by decide
  have hproject : IsLine (lit "1") := by decide
  exact ⟨_, parseDSN_eq hprotocol hkey hline hproject (by decide) hat (by decide) (by decide) _,
    rfl⟩

/-- A client for port 9000. -/
theorem init_honours_localhost :
    ∃ errorCode h', Api.init (Hub.new none none) (keyOptions (lit "localhost:9000")) none 0 =
        some (errorCode, h') ∧
      Honours (keyDsn (lit "localhost:9000")) errorCode h' := by
  apply (init_honours_iff (Hub.new none none) (keyOptions (lit "localhost:9000")) none 0
    (by decide)).mpr
  intro hostPath haccepted
  obtain ⟨d, hparse, rfl⟩ := acceptedHostPath_eq_some haccepted
  obtain ⟨d', hparse', hhost⟩ :=
    parseDSN_keyOptions (lit "localhost:9000") (by decide) (by decide)
  obtain rfl : d' = d := (Prod.mk.inj (hparse'.symm.trans hparse)).2
  rw [hhost]
  have hlocal : (lit "localhost").all isHostByte = true := by decide
  exact ⟨⟨lit "localhost", lit ":9000", rfl, List.all_eq_true.mp hlocal,
    Or.inr ⟨lit "9000", rfl, by decide⟩⟩, by simp [Hub.new]⟩

/-- A port that is no number ends the process. -/
theorem not_init_honours :
    ¬ ∀ (h : Hub) (initParameters : SentryOptions) (dsnEnv : Option Bytes)
      (uninitialised : UInt64), (Api.finalDsn initParameters dsnEnv).length < npos →
      ∃ errorCode h', Api.init h initParameters dsnEnv uninitialised = some (errorCode, h') ∧
        Honours (Api.finalDsn initParameters dsnEnv) errorCode h' := by
  intro hall
  obtain ⟨errorCode, h', hinit, -⟩ :=
    hall (Hub.new none none) (keyOptions (lit "localhost:port")) none 0 (by decide)
  obtain ⟨d, hparse, hhost⟩ :=
    parseDSN_keyOptions (lit "localhost:port") (by decide) (by decide)
  have hread : parseHostPort (lit "localhost:port") 80 = .error .invalidArgument := by decide
  rw [init_of_parseDSN hparse (by simp [Hub.new]), hhost, hread] at hinit
  cases hinit

end Sentry
