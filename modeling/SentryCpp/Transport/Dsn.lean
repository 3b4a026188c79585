import SentryCpp.Foundation.Regex
import SentryCpp.Transport.Basic

/-!
The DSN. `parseDSN` searches the text with the expression
`(.*)://(.*)(:.*)*@(.*)/(.*)`. The second group is greedy and comes in front
of the optional third one, so it takes the text up to the `@`, and the third
group never takes part in a match: the public key is read as far as the `@`,
separator and secret key included. A DSN without a secret key is read back as
it was written, and one with a secret key never is.
-/

namespace Sentry

open StdString SimpleWeb

inductive EErrorCode where
  | noError
  | noDsn
  | wrongDsn
  | connectionError
  deriving DecidableEq, Repr

/-- What `.` matches: no line terminator. -/
def isDot (b : Byte) : Bool := b ≠ 10 && b ≠ 13

/-- `.*` -/
def anyText : Regex Byte := .star (.one isDot)

/-- `@(.*)/(.*)` -/
def dsnHost : Regex Byte :=
  Regex.text (lit "@") (.seq (.group 4 anyText) (Regex.text (lit "/") (.group 5 anyText)))

/-- `(.*)(:.*)*@(.*)/(.*)` -/
def dsnCredentials : Regex Byte :=
  .seq (.group 2 anyText) (.seq (.star (.group 3 (Regex.text (lit ":") anyText))) dsnHost)

/-- `(.*)://(.*)(:.*)*@(.*)/(.*)` -/
def dsnPattern : Regex Byte :=
  .seq (.group 1 anyText) (Regex.text (lit "://") dsnCredentials)

namespace SentryDSN

def parseDSN (dsn : Bytes) (newDSNStruct : SentryDSN) : EErrorCode × SentryDSN :=
  match Regex.search dsnPattern dsn with
  | some captures =>
      let baseURI := captures 1 ++ lit "://" ++ captures 4
      let sentryEndpointPath := lit "/api/" ++ captures 5 ++ lit "/store/"
      (.noError, {
        protocol := captures 1
        publicKey := captures 2
        secretKey := captures 3
        hostPath := captures 4
        projectID := captures 5
        baseURI := baseURI
        sentryEndpoint := baseURI ++ sentryEndpointPath
        sentryEndpointPath := sentryEndpointPath })
  | none => (.wrongDsn, newDSNStruct)

end SentryDSN

/-- The last occurrence of a byte cuts a text in one way only. -/
theorem append_inj_of_last {a b c d : Bytes} {x : Byte} (h : a ++ x :: b = c ++ x :: d)
    (hb : x ∉ b) (hd : x ∉ d) : a = c := by
  have hlength := rfind_append_of_notMem c hd
  rw [← h, rfind_append_of_notMem a hb] at hlength
  exact (List.append_inj h hlength).1

theorem lit_separator : lit "://" = [58, 47, 47] := rfl

theorem lit_at : lit "@" = [64] := rfl

theorem lit_slash : lit "/" = [47] := rfl

theorem lit_colon : lit ":" = [58] := rfl

/-- Behind the first `://` none is left in front of the `@`, if the text in
between has no slash. -/
theorem not_later_separator {u r v w : Bytes} (hu : 47 ∉ u) (hr : 64 ∉ r)
    (h : lit "://" ++ (u ++ (lit "@" ++ r)) = v ++ (lit "://" ++ w)) (hv : v ≠ []) : 64 ∉ w := by
  intro hw
  obtain ⟨a, b, rfl, hb⟩ := exists_last_split hw
  have hfront : lit "://" ++ u = v ++ (lit "://" ++ a) := by
    apply append_inj_of_last (b := r) (d := b) (x := 64) _ hr hb
    simpa [lit_at] using h
  rw [lit_separator] at hfront
  match v, hv, hfront with
  | [_], _, hfront | [_, _], _, hfront => simp at hfront
  | _ :: _ :: _ :: v, _, hfront =>
      simp only [List.cons_append, List.nil_append, List.cons.injEq] at hfront
      exact hu (by simp [hfront])

section Search

variable {β : Type} {k : Regex.Cont Byte β} {captures : Regex.Captures Byte}

/-- Where no key can begin with a colon, the third group takes no part. -/
theorem exec_secretKey (s : Bytes) (r : Regex Byte) :
    Regex.exec (.seq (.star (.group 3 (Regex.text (lit ":") anyText))) r) k captures
      (lit "@" ++ s) = Regex.exec r k captures (lit "@" ++ s) := by
  rw [Regex.exec_seq]
  apply Regex.exec_star_of_none
  intro u rest captures' hs hu hrounds
  obtain ⟨v, w, rfl, -, hround⟩ := Regex.exists_round_of_matches_star hrounds hu
  cases hround with
  | group hround =>
      obtain ⟨v, rfl, -⟩ := Regex.matches_text hround
      simp [lit_at, lit_colon] at hs

theorem exec_dsnHost {h i : Bytes} {x : β} (hline : ∀ b ∈ h, isDot b = true)
    (iline : ∀ b ∈ i, isDot b = true) (hi : 47 ∉ i)
    (hk : k (Function.update (Function.update captures 4 h) 5 i) [] = some x) :
    Regex.exec dsnHost k captures (lit "@" ++ (h ++ (lit "/" ++ i))) = some x := by
  rw [dsnHost, Regex.exec_text_append, Regex.exec_seq]
  apply Regex.exec_group_star_of_greatest hline
  · rw [Regex.exec_text_append]
    conv => lhs; rw [← List.append_nil i]
    apply Regex.exec_group_star_of_greatest iline hk
    intro v w captures' hnil hv
    exact absurd (List.append_eq_nil_iff.mp hnil.symm).1 hv
  · intro v w captures' hvw hv
    apply Regex.exec_eq_none
    rintro u rest captures'' rfl hu
    obtain ⟨u, rfl, -⟩ := Regex.matches_text hu
    -- a later slash would be one of the project id
    cases v with
    | nil => exact absurd rfl hv
    | cons _ v =>
        simp only [lit_slash, List.cons_append, List.nil_append, List.cons.injEq] at hvw
        exact absurd (by simp [hvw]) hi

theorem exec_dsnCredentials {u h i : Bytes} {x : β} (uline : ∀ b ∈ u, isDot b = true)
    (hline : ∀ b ∈ h, isDot b = true) (iline : ∀ b ∈ i, isDot b = true) (hh : 64 ∉ h)
    (hi : 64 ∉ i) (hi' : 47 ∉ i)
    (hk : k (Function.update (Function.update (Function.update captures 2 u) 4 h) 5 i) [] =
      some x) :
    Regex.exec dsnCredentials k captures (u ++ (lit "@" ++ (h ++ (lit "/" ++ i)))) = some x := by
  rw [dsnCredentials, Regex.exec_seq]
  apply Regex.exec_group_star_of_greatest uline
  · rw [exec_secretKey]
    exact exec_dsnHost hline iline hi' hk
  · intro v w captures' hvw hv
    apply Regex.exec_eq_none
    rintro u rest captures'' rfl hu
    -- a longer key would leave no `@`
    have hat : 64 ∈ u := by
      cases hu with
      | seq _ hhost =>
          obtain ⟨_, rfl, -⟩ := Regex.matches_text hhost
          simp [lit_at]
    cases v with
    | nil => exact absurd rfl hv
    | cons _ v =>
        simp only [lit_at, List.cons_append, List.nil_append, List.cons.injEq] at hvw
        have hmem : 64 ∈ h ++ (lit "/" ++ i) := by
          rw [hvw.2]
          simp [hat]
        simp [lit_slash, hh, hi] at hmem

end Search

/-- What the expression captures where the text between `://` and `@` has no
slash. -/
theorem search_dsnPattern {p u h i : Bytes} (pline : ∀ b ∈ p, isDot b = true)
    (uline : ∀ b ∈ u, isDot b = true) (hline : ∀ b ∈ h, isDot b = true)
    (iline : ∀ b ∈ i, isDot b = true) (hu : 47 ∉ u) (hh : 64 ∉ h) (hi : 64 ∉ i) (hi' : 47 ∉ i) :
    Regex.search dsnPattern
        (p ++ (lit "://" ++ (u ++ (lit "@" ++ (h ++ (lit "/" ++ i)))))) =
      some (Function.update (Function.update (Function.update (Function.update
        (fun _ => []) 1 p) 2 u) 4 h) 5 i) := by
  apply Regex.search_of_exec
  rw [dsnPattern, Regex.exec_seq]
  apply Regex.exec_group_star_of_greatest pline
  · rw [Regex.exec_text_append]
    exact exec_dsnCredentials uline hline iline hh hi hi' rfl
  · intro v w captures' hvw hv
    apply Regex.exec_eq_none
    rintro t rest captures'' rfl ht
    obtain ⟨t, rfl, hcredentials⟩ := Regex.matches_text ht
    have hat : 64 ∈ t ++ rest := by
      cases hcredentials with
      | seq _ hkeys =>
          cases hkeys with
          | seq _ hhost =>
              obtain ⟨_, rfl, -⟩ := Regex.matches_text hhost
              simp [lit_at]
    have hrest : 64 ∉ h ++ (lit "/" ++ i) := by simp [lit_slash, hh, hi]
    rw [List.append_assoc] at hvw
    exact absurd hat (not_later_separator hu hrest hvw hv)

theorem parseDSN_eq {p u h i : Bytes} (pline : ∀ b ∈ p, isDot b = true)
    (uline : ∀ b ∈ u, isDot b = true) (hline : ∀ b ∈ h, isDot b = true)
    (iline : ∀ b ∈ i, isDot b = true) (hu : 47 ∉ u) (hh : 64 ∉ h) (hi : 64 ∉ i) (hi' : 47 ∉ i)
    (newDSNStruct : SentryDSN) :
    SentryDSN.parseDSN (p ++ (lit "://" ++ (u ++ (lit "@" ++ (h ++ (lit "/" ++ i))))))
        newDSNStruct =
      (.noError, {
        protocol := p
        publicKey := u
        secretKey := []
        hostPath := h
        projectID := i
        baseURI := p ++ lit "://" ++ h
        sentryEndpoint := p ++ lit "://" ++ h ++ (lit "/api/" ++ i ++ lit "/store/")
        sentryEndpointPath := lit "/api/" ++ i ++ lit "/store/" }) := by
  rw [SentryDSN.parseDSN, search_dsnPattern pline uline hline iline hu hh hi hi']
  simp [Function.update]

/-- A DSN that is refused leaves the structure as it was. -/
theorem parseDSN_cases (dsn : Bytes) (newDSNStruct : SentryDSN) :
    (∃ d, SentryDSN.parseDSN dsn newDSNStruct = (.noError, d)) ∨
    SentryDSN.parseDSN dsn newDSNStruct = (.wrongDsn, newDSNStruct) := by
  rw [SentryDSN.parseDSN]
  cases Regex.search dsnPattern dsn with
  | some captures => exact Or.inl ⟨_, rfl⟩
  | none => exact Or.inr rfl

/-- Not empty, without a line terminator and without any of the bytes
`excluded`. -/
structure IsComponent (excluded b : Bytes) : Prop where
  ne_nil : b ≠ []
  line : ∀ c ∈ b, isDot c = true
  free : ∀ c ∈ excluded, c ∉ b

/-- The text is searched and not the type of its bytes. -/
def isComponent (excluded b : Bytes) : Bool :=
  !b.isEmpty && b.all isDot && excluded.all fun c => !b.contains c

theorem isComponent_iff (excluded b : Bytes) :
    isComponent excluded b = true ↔ IsComponent excluded b := by
  simp only [isComponent, Bool.and_eq_true, Bool.not_eq_true', List.isEmpty_eq_false_iff,
    List.all_eq_true, List.contains_eq_mem, decide_eq_false_iff_not]
  constructor
  · rintro ⟨⟨hne, hline⟩, hfree⟩
    exact ⟨hne, hline, hfree⟩
  · rintro ⟨hne, hline, hfree⟩
    exact ⟨⟨hne, hline⟩, hfree⟩

instance (excluded b : Bytes) : Decidable (IsComponent excluded b) :=
  decidable_of_iff _ (isComponent_iff excluded b)

/-- What a DSN is written from. -/
structure DsnParts where
  protocol : Bytes
  publicKey : Bytes
  secretKey : Option Bytes
  hostPath : Bytes
  projectID : Bytes
  protocol_ok : IsComponent (lit "@:/") protocol
  publicKey_ok : IsComponent (lit "@:/") publicKey
  secretKey_ok : ∀ secret ∈ secretKey, IsComponent (lit "@:/") secret
  hostPath_ok : IsComponent (lit "@") hostPath
  hostPath_free : ¬ lit "://" <:+: hostPath
  projectID_ok : IsComponent (lit "@/") projectID

namespace DsnParts

def credentials (d : DsnParts) : Bytes :=
  d.publicKey ++ d.secretKey.elim [] fun secret => lit ":" ++ secret

/-- `{PROTOCOL}://{PUBLIC_KEY}:{SECRET_KEY}@{HOST_PATH}/{PROJECT_ID}` -/
def encode (d : DsnParts) : Bytes :=
  d.protocol ++ (lit "://" ++ (d.credentials ++ (lit "@" ++ (d.hostPath ++
    (lit "/" ++ d.projectID)))))

/-- The field that names the keys to the server. -/
def authorization (d : DsnParts) (now : Time) : Bytes :=
  lit "Sentry sentry_version=7, sentry_client=sentry_cpp/0.1, sentry_timestamp=" ++
    Number.printInt (now.tdiv 1000000000) ++ lit ", sentry_key=" ++ d.publicKey ++
    d.secretKey.elim [] fun secret => lit ", sentry_secret=" ++ secret

/-- Parsing gives the parts back, and the requests name the keys. -/
structure DecodesTo (d : DsnParts) (dsn : SentryDSN) : Prop where
  protocol : dsn.protocol = d.protocol
  publicKey : dsn.publicKey = d.publicKey
  secretKey : dsn.secretKey = d.secretKey.getD []
  hostPath : dsn.hostPath = d.hostPath
  projectID : dsn.projectID = d.projectID
  header : ∀ (t : Transport) (now : Time), t.dsnStruct = dsn →
    findField (t.createHeader now) (lit "X-Sentry-Auth") = some (d.authorization now)

end DsnParts

theorem credentials_ok (d : DsnParts) : ∀ b ∈ d.credentials, isDot b = true ∧ b ≠ 47 := by
  have hcomponent : ∀ key, IsComponent (lit "@:/") key → ∀ b ∈ key, isDot b = true ∧ b ≠ 47 := by
    intro key hkey b hb
    refine ⟨hkey.line b hb, ?_⟩
    rintro rfl
    exact hkey.free 47 (by decide) hb
  intro b hb
  rw [DsnParts.credentials, List.mem_append] at hb
  rcases hb with hpublic | hsecret
  · exact hcomponent _ d.publicKey_ok b hpublic
  · cases hkey : d.secretKey with
    | none => simp [hkey] at hsecret
    | some secret =>
        rw [hkey, Option.elim_some, List.mem_append] at hsecret
        rcases hsecret with hcolon | hmem
        · rw [lit_colon, List.mem_singleton] at hcolon
          subst b
          exact ⟨rfl, by decide⟩
        · exact hcomponent secret (d.secretKey_ok secret hkey) b hmem

/-- The keys in front of the `@` have no slash, so that `parseDSN_eq`
applies. -/
theorem parseDSN_encode (d : DsnParts) (newDSNStruct : SentryDSN) :
    ∃ dsn, SentryDSN.parseDSN d.encode newDSNStruct = (.noError, dsn) ∧
      dsn.protocol = d.protocol ∧ dsn.publicKey = d.credentials ∧ dsn.secretKey = [] ∧
      dsn.hostPath = d.hostPath ∧ dsn.projectID = d.projectID := by
  have hok := credentials_ok d
  exact ⟨_, parseDSN_eq d.protocol_ok.line (fun b hb => (hok b hb).1) d.hostPath_ok.line
    d.projectID_ok.line (fun hslash => (hok 47 hslash).2 rfl)
    (d.hostPath_ok.free _ (by decide)) (d.projectID_ok.free _ (by decide))
    (d.projectID_ok.free _ (by decide)) newDSNStruct, rfl, rfl, rfl, rfl, rfl⟩

theorem findField_createHeader (t : Transport) (now : Time) :
    findField (t.createHeader now) (lit "X-Sentry-Auth") = some (
      lit "Sentry sentry_version=7, sentry_client=sentry_cpp/0.1, sentry_timestamp=" ++
        Number.printInt (now.tdiv 1000000000) ++ lit ", sentry_key=" ++ t.dsnStruct.publicKey ++
        if t.dsnStruct.secretKey ≠ [] then lit ", sentry_secret=" ++ t.dsnStruct.secretKey
        else []) := by
  have hfront : lit "Sentry " ++ lit "sentry_version=" ++ Number.print 10 Transport.sentryVersion ++
      lit ", " ++ lit "sentry_client=" ++ Transport.clientVersion ++ lit ", " ++
      lit "sentry_timestamp=" =
        lit "Sentry sentry_version=7, sentry_client=sentry_cpp/0.1, sentry_timestamp=" := by
    decide
  have hkey : lit ", sentry_key=" = lit ", " ++ lit "sentry_key=" := by decide
  have hsecret : lit ", sentry_secret=" = lit ", " ++ lit "sentry_secret=" := by decide
  have hfind : ∀ (value : Bytes) (fields : Header),
      findField ((lit "X-Sentry-Auth", value) :: fields) (lit "X-Sentry-Auth") = some value := by
    intro value fields
    rw [findField, List.find?_cons_of_pos (by simp [caseInsensitiveEqual]), Option.map_some]
  rw [Transport.createHeader, hfind, hfront, hkey, hsecret]
  simp only [List.append_assoc]

/-- Decoding undoes encoding for the DSNs without a secret key, and for no
others. -/
theorem decodes_encode_iff (d : DsnParts) :
    (∀ newDSNStruct, ∃ dsn, SentryDSN.parseDSN d.encode newDSNStruct = (.noError, dsn) ∧
      d.DecodesTo dsn) ↔ d.secretKey = none := by
  constructor
  · intro hdecodes
    obtain ⟨dsn, hparse, hfields⟩ := hdecodes ⟨[], [], [], [], [], [], [], []⟩
    obtain ⟨dsn', hparse', -, -, hempty, -, -⟩ := parseDSN_encode d ⟨[], [], [], [], [], [], [], []⟩
    rw [hparse] at hparse'
    obtain ⟨-, rfl⟩ := Prod.mk.inj hparse'
    have hsecret := hfields.secretKey
    rw [hempty] at hsecret
    cases hkey : d.secretKey with
    | none => rfl
    | some secret =>
        rw [hkey, Option.getD_some] at hsecret
        exact absurd hsecret.symm (d.secretKey_ok secret hkey).ne_nil
  · intro hnone newDSNStruct
    obtain ⟨dsn, hparse, hprotocol, hpublic, hsecret, hhost, hproject⟩ :=
      parseDSN_encode d newDSNStruct
    have hkey : dsn.publicKey = d.publicKey := by simp [hpublic, DsnParts.credentials, hnone]
    refine ⟨dsn, hparse, hprotocol, hkey, by rw [hsecret, hnone]; rfl, hhost, hproject, ?_⟩
    rintro t now rfl
    rw [findField_createHeader, hkey, hsecret, DsnParts.authorization, hnone]
    simp

/-- A DSN with a secret key. -/
def secretParts : DsnParts where
  protocol := lit "http"
  publicKey := lit "public"
  secretKey := some (lit "secret")
  hostPath := lit "localhost:9000"
  projectID := lit "1"
  protocol_ok := by decide
  publicKey_ok := by decide
  secretKey_ok := by decide
  hostPath_ok := by decide
  hostPath_free := by decide
  projectID_ok := by decide

/-- The public key of `secretParts` is read as `public:secret`. -/
theorem secretParts_not_decoded :
    ¬ ∀ (d : DsnParts) (newDSNStruct : SentryDSN), ∃ dsn,
      SentryDSN.parseDSN d.encode newDSNStruct = (.noError, dsn) ∧ d.DecodesTo dsn := by
  intro h
  obtain ⟨dsn, hparse, hfields⟩ := h secretParts ⟨[], [], [], [], [], [], [], []⟩
  obtain ⟨dsn', hparse', -, hpublic, -⟩ :=
    parseDSN_encode secretParts ⟨[], [], [], [], [], [], [], []⟩
  rw [hparse] at hparse'
  obtain ⟨-, rfl⟩ := Prod.mk.inj hparse'
  rw [hfields.publicKey] at hpublic
  exact absurd hpublic (by decide)

end Sentry
