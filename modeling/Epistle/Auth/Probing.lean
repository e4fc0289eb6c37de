import Epistle.Auth.ScramExchange
import Epistle.Imap.Auth
import Epistle.Interleaving.Machine

/-!
# Probing for accounts

A client that does not know a password can still start SCRAM exchanges and look at the answers. Two
servers are compared here whose directories differ in one account only: the one has it, with SCRAM
credentials, and the other has not. A client sends the same lines to both, over any number of
connections to SMTP and IMAP, and all its exchanges are about that account.

The answers tell the servers apart as soon as one exchange gets as far as a challenge: for an
account that is not there the client-first message itself is refused (`unknown_refused`). As long as
no message is good enough for a challenge, all answers are the same (`hidden_iff`).
-/

namespace Epistle.Auth.Probing

open TextFormat Smtp Interleaving
open Option (bind_eq_some_iff bind_some isSome_iff_exists map_eq_some_iff)

/-! ## Directories -/

def denotes (p : Primitives) (directory : Directory) (login : Text) : Option Text :=
  if login.contains '@' then directory.accountOf p login else some (toAsciiLowercase login)

/-- The directories differ in one account only: the second has no SCRAM credentials for it, or does
not have the account at all. A login for the account is then for nobody else. -/
structure DifferOnly (p : Primitives) (u : Text) (d d' : Directory) : Prop where
  own : ∀ login, denotes p d login = some u → ∀ a ∈ denotes p d' login, a = u
  other : ∀ login, denotes p d login ≠ some u → denotes p d' login = denotes p d login
  absent : d'.scram.lookup u = none
  scram : ∀ a ≠ u, d'.scram.lookup a = d.scram.lookup a
  passwordHashes : ∀ a ≠ u, d'.passwordHashes.lookup a = d.passwordHashes.lookup a
  allowedProtocols : ∀ a ≠ u, d'.allowedProtocols.lookup a = d.allowedProtocols.lookup a

theorem scramCredentials_eq (p : Primitives) (directory : Directory) (login : Text) :
    directory.scramCredentials p login =
      (denotes p directory login).bind fun account ↦
        (directory.scram.lookup account).bind (ScramStored.toCredentials p) := by
  rw [Directory.scramCredentials, denotes]
  split <;> rfl

theorem DifferOnly.scramCredentials_eq_none {p : Primitives} {u : Text} {d d' : Directory}
    (h : DifferOnly p u d d') {login : Text} (hlogin : denotes p d login = some u) :
    d'.scramCredentials p login = none := by
  rw [scramCredentials_eq]
  cases hdenotes : denotes p d' login with
  | none => rfl
  | some a =>
    obtain rfl := h.own login hlogin a hdenotes
    rw [bind_some, h.absent, Option.bind_none]

/-! ## Challenges -/

/-- The account, if it may use the service. -/
def allowed (directory : Directory) (protocol : Protocol) (account : Text) : Option Text :=
  if directory.isProtocolAllowed account protocol then some account else none

/-- The server's first message and what it keeps, if it answers a client-first message with a
challenge. -/
def challenge (p : Primitives) (directory : Directory) (protocol : Protocol) (nonce : Option Text)
    (binding : ChannelBinding) (encoded : Text) :
    Option (Text × ScramServer × ScramCredentials × Text) := do
  let clientFirst ← (p.base64Decode encoded).bind decodeUtf8
  let username ← usernameOf clientFirst
  let credentials ← directory.scramCredentials p username
  let (account, _) ← directory.credentials p username
  let account ← allowed directory protocol account
  let nonce ← nonce
  match (ScramServer.new nonce binding).first p clientFirst credentials with
  | (.ok (_, serverFirst), server) => some (serverFirst, server, credentials, account)
  | (.error _, _) => none

/-- A client-first message that is good enough for a challenge: it is well formed, with the flag
that the link demands, its user has a password and SCRAM credentials and may use the service, and
there is a nonce. -/
structure Eligible (p : Primitives) (directory : Directory) (protocol : Protocol)
    (nonce : Option Text) (binding : ChannelBinding)
    (encoded flag authzid bare username : Text) : Prop where
  decodes : (p.base64Decode encoded).bind decodeUtf8 =
    some (flag ++ ',' :: (authzid ++ ',' :: bare))
  comma_not_mem_flag : ',' ∉ flag
  comma_not_mem_authzid : ',' ∉ authzid
  flagOk : ScramServer.flagOk binding flag = true
  username_eq : tag bare "n=" = some username
  clientNonce : (tag bare "r=").isSome = true
  credentials : (directory.scramCredentials p username).isSome = true
  account : ((directory.credentials p username).any fun credentials ↦
    directory.isProtocolAllowed credentials.1 protocol) = true
  nonce : nonce.isSome = true

theorem usernameOf_append {flag authzid : Text} (hflag : ',' ∉ flag) (hauthzid : ',' ∉ authzid)
    (bare : Text) : usernameOf (flag ++ ',' :: (authzid ++ ',' :: bare)) = tag bare "n=" := by
  rw [usernameOf, nthCommaRest_two.mpr ⟨flag, authzid, rfl, hflag, hauthzid⟩, bind_some]

theorem isSome_challenge_iff {p : Primitives} {directory : Directory} {protocol : Protocol}
    {nonce : Option Text} {binding : ChannelBinding} {encoded : Text} :
    (challenge p directory protocol nonce binding encoded).isSome = true ↔
      ∃ flag authzid bare username,
        Eligible p directory protocol nonce binding encoded flag authzid bare username := by
  constructor
  · intro h
    obtain ⟨r, hr⟩ := isSome_iff_exists.mp h
    obtain ⟨clientFirst, hdecodes, hr⟩ := bind_eq_some_iff.mp hr
    obtain ⟨username, husername, hr⟩ := bind_eq_some_iff.mp hr
    obtain ⟨credentials, hcredentials, hr⟩ := bind_eq_some_iff.mp hr
    obtain ⟨⟨account, hash⟩, haccount, hr⟩ := bind_eq_some_iff.mp hr
    obtain ⟨admitted, hadmitted, hr⟩ := bind_eq_some_iff.mp hr
    obtain ⟨serverNonce, hnonce, hr⟩ := bind_eq_some_iff.mp hr
    have hallowed : directory.isProtocolAllowed account protocol = true := by
      rw [allowed] at hadmitted
      by_contra hnot
      rw [if_neg hnot] at hadmitted
      cases hadmitted
    cases hfirst : ((ScramServer.new serverNonce binding).first p clientFirst credentials).1 with
    | error e =>
      rw [← Prod.eta ((ScramServer.new serverNonce binding).first p clientFirst credentials),
        hfirst] at hr
      cases hr
    | ok answer =>
      obtain ⟨flag, authzid, bare, name, clientNonce, rfl, hflag, hok, hauthzid, hname, hclient⟩ :=
        parts_of_first hfirst
      rw [usernameOf_append hflag hauthzid] at husername
      refine ⟨flag, authzid, bare, username, hdecodes, hflag, hauthzid, hok, husername, ?_,
        ?_, ?_, ?_⟩
      · rw [hclient]
        rfl
      · rw [hcredentials]
        rfl
      · rw [haccount]
        exact hallowed
      · rw [hnonce]
        rfl
  · rintro ⟨flag, authzid, bare, username, h⟩
    obtain ⟨clientNonce, hclient⟩ := isSome_iff_exists.mp h.clientNonce
    obtain ⟨credentials, hcredentials⟩ := isSome_iff_exists.mp h.credentials
    obtain ⟨serverNonce, rfl⟩ := isSome_iff_exists.mp h.nonce
    obtain ⟨⟨account, hash⟩, haccount, hallowed⟩ := (Option.any_eq_true _ _).mp h.account
    have hfirst : (ScramServer.new serverNonce binding).first p _ credentials = _ := first_of_parts
      h.comma_not_mem_flag h.flagOk h.comma_not_mem_authzid h.username_eq hclient
    simp only [challenge, h.decodes, usernameOf_append h.comma_not_mem_flag h.comma_not_mem_authzid,
      h.username_eq, hcredentials, haccount, allowed, hallowed, hfirst,
      Option.bind_eq_bind, bind_some, if_true, Option.isSome_some]

/-! ## SMTP -/

/-- How a session refuses SCRAM before it has begun. -/
def smtpRefusal (plus : Bool) (s : Session) : Option Action :=
  if !s.tlsActive then some (.reply (.single 538 "5.7.11 encryption required for auth"))
  else if s.authenticated.isSome then some (.reply .badSequence)
  else match s.state with
    | .greeted =>
      if plus && !s.cbindData.isSome then
        some (.reply (.single 504 "5.5.4 mechanism not supported"))
      else none
    | _ => some (.reply .badSequence)

/-- The mechanism with or without channel binding. -/
def mechanism (plus : Bool) : Sasl.Mechanism := if plus then .scramSha256Plus else .scramSha256

variable {name : Text} {plus : Bool}

theorem filter_available (h : Sasl.Mechanism.parse name = some (mechanism plus))
    (external channelBinding oauth : Bool) :
    (Sasl.Mechanism.parse name).filter (fun m ↦
        (Sasl.available external channelBinding oauth).contains m) =
      if plus && !channelBinding then none else some (mechanism plus) := by
  rw [h]
  cases plus <;> cases external <;> cases channelBinding <;> cases oauth <;> rfl

theorem smtp_auth_eq (p : Primitives) (env : Env)
    (h : Sasl.Mechanism.parse name = some (mechanism plus)) (initial : Option Text) (s : Session)
    (directory : Directory) :
    { s with directory }.auth p env name initial =
      (smtpRefusal plus s).elim ({ s with directory }.scramBegin p env initial plus)
        fun action ↦ (action, { s with directory }) := by
  unfold Session.auth smtpRefusal
  dsimp only
  rw [filter_available h]
  cases s.tlsActive with
  | false => rfl
  | true =>
    cases s.authenticated.isSome with
    | true => rfl
    | false =>
      cases s.state with
      | greeted =>
        cases plus with
        | false => rfl
        | true =>
          cases s.cbindData with
          | none | some data => rfl
      | connected | receivingRecipients reversePath requireTls | receivingData transaction => rfl

theorem smtp_scramClientFirst_eq (p : Primitives) (env : Env) (encoded : Text)
    (binding : ChannelBinding) (s : Session) :
    s.scramClientFirst p env encoded binding =
      (challenge p s.directory s.authProtocol (s.scramNonce.or env.nonce) binding encoded).elim
        s.scramFailure fun r ↦
          (.collectAuthResponse ⟨334, [p.base64Encode (encodeUtf8 r.1)]⟩,
            { s with pendingScram := some (.clientFinal r.2.1 r.2.2.1 r.2.2.2) }) := by
  unfold Session.scramClientFirst
  extract_lets outcome
  have houtcome :
    outcome = challenge p s.directory s.authProtocol (s.scramNonce.or env.nonce) binding
      encoded := rfl
  rw [houtcome]
  cases challenge p s.directory s.authProtocol (s.scramNonce.or env.nonce) binding encoded with
  | none | some r => rfl

/-! ## IMAP -/

/-- How a session refuses SCRAM before it has begun. -/
def imapRefusal (tag : Text) (plus : Bool) (s : Imap.Auth.Session) : Option Imap.Auth.Output :=
  if !s.tlsActive then some (.tagged tag "NO [PRIVACYREQUIRED] STARTTLS first")
  else if s.account.isSome then some (.tagged tag "BAD already authenticated")
  else if plus && !s.cbindData.isSome then some (.tagged tag "NO unsupported SASL mechanism")
  else none

theorem imap_auth_eq (p : Primitives) (env : Env) (tag : Text)
    (h : Sasl.Mechanism.parse name = some (mechanism plus)) (initial : Option Text)
    (s : Imap.Auth.Session) (directory : Directory) :
    { s with directory }.auth p env tag name initial =
      (imapRefusal tag plus s).elim ({ s with directory }.scramBegin p env.nonce tag initial plus)
        fun output ↦ (output, { s with directory }) := by
  unfold Imap.Auth.Session.auth imapRefusal
  dsimp only
  rw [filter_available h]
  cases s.tlsActive with
  | false => rfl
  | true =>
    cases s.account.isSome with
    | true => rfl
    | false =>
      cases plus with
      | false => rfl
      | true =>
        cases s.cbindData with
        | none | some data => rfl

theorem imap_scramFirst_eq (p : Primitives) (nonce : Option Text) (tag encoded : Text)
    (binding : ChannelBinding) (s : Imap.Auth.Session) :
    s.scramFirst p nonce tag encoded binding =
      (challenge p s.directory s.authProtocol (s.scramNonce.or nonce) binding encoded).elim
        (s.authFailure tag) fun r ↦
          (Imap.Auth.continuation (p.base64Encode (encodeUtf8 r.1)),
            { s with pendingAuth := some (.scramFinal tag r.2.1 r.2.2.1 r.2.2.2) }) := by
  unfold Imap.Auth.Session.scramFirst
  extract_lets outcome
  have houtcome : outcome = challenge p s.directory s.authProtocol (s.scramNonce.or nonce) binding
      encoded := rfl
  rw [houtcome]
  cases challenge p s.directory s.authProtocol (s.scramNonce.or nonce) binding encoded with
  | none | some r => rfl

/-! ## Connections -/

inductive Conn
  | smtp (s : Session)
  | imap (s : Imap.Auth.Session)

inductive Answer
  | smtp (action : Action)
  | imap (output : Imap.Auth.Output)
  deriving DecidableEq

inductive Message
  /-- `AUTH` or `AUTHENTICATE`, with the name of a mechanism. IMAP commands have a tag. -/
  | begins (tag name : Text) (plus : Bool) (initial : Option Text)
  /-- The response to a challenge. -/
  | responds (line : Text)

namespace Conn

def withDirectory (directory : Directory) : Conn → Conn
  | .smtp s => .smtp { s with directory }
  | .imap s => .imap { s with directory }

def protocol : Conn → Protocol
  | .smtp s => s.authProtocol
  | .imap s => s.authProtocol

def nonce (env : Env) : Conn → Option Text
  | .smtp s => s.scramNonce.or env.nonce
  | .imap s => s.scramNonce.or env.nonce

def step (p : Primitives) (env : Env) : Message → Conn → Answer × Conn
  | .begins _ name _ initial, .smtp s =>
    let r := s.auth p env name initial
    (.smtp r.1, .smtp r.2)
  | .begins tag name _ initial, .imap s =>
    let r := s.auth p env tag name initial
    (.imap r.1, .imap r.2)
  | .responds line, .smtp s =>
    let r := s.authLine p env line
    (.smtp r.1, .smtp r.2)
  | .responds line, .imap s =>
    let r := s.authResponse p env line
    (.imap r.1, .imap r.2)

/-- The server waits for the client-first message of an exchange. -/
def awaited : Conn → Option ChannelBinding
  | .smtp s => match s.pendingScram with
    | some (.clientFirst binding) => some binding
    | _ => none
  | .imap s => match s.pendingAuth with
    | some (.scramFirst _ binding) => some binding
    | _ => none

/-- How an exchange that begins now is bound, if the server begins one. -/
def offered (plus : Bool) : Conn → Option ChannelBinding
  | .smtp s => if (smtpRefusal plus s).isSome then none else some (s.scramBinding plus)
  | .imap s => if (imapRefusal [] plus s).isSome then none else some (s.scramBinding plus)

/-- The client-first message that a message brings, and how the exchange is bound. -/
def presented : Message → Conn → Option (ChannelBinding × Text)
  | .begins _ _ plus initial, c =>
    (c.offered plus).bind fun binding ↦ initial.map fun line ↦ (binding, line)
  | .responds line, c =>
    if line == ['*'] then none else c.awaited.map fun binding ↦ (binding, line)

/-- No exchange is past its client-first message, and none of another mechanism is going on. -/
def Quiet : Conn → Prop
  | .smtp s => s.pendingExternal = false ∧ s.pendingLogin = none ∧
    (s.pendingScram = none ∨ ∃ binding, s.pendingScram = some (.clientFirst binding))
  | .imap s => s.pendingAuth = none ∨ ∃ tag binding, s.pendingAuth = some (.scramFirst tag binding)

/-- The message belongs to a SCRAM exchange. -/
def Ready : Message → Conn → Prop
  | .begins _ name plus _, _ => Sasl.Mechanism.parse name = some (mechanism plus)
  | .responds _, c => c.awaited.isSome = true

end Conn

def Answer.isChallenge : Answer → Bool
  | .smtp (.collectAuthResponse _) => true
  | .smtp _ => false
  | .imap output => output.collectAuth

section

variable {p : Primitives} {env : Env}

theorem isChallenge_scramFailure (s : Session) :
    (Answer.smtp s.scramFailure.1).isChallenge = false := by
  rw [Session.scramFailure, Session.authFail]
  dsimp only
  split <;> rfl

variable {binding : ChannelBinding} {line tag name : Text} {s : Session} {initial : Option Text}
  {plus : Bool} {c : Conn}

/-- A failure ends the exchange, whatever the directory is. -/
theorem imap_authFailure_spec (tag : Text) (s : Imap.Auth.Session) :
    (Conn.imap (s.authFailure tag).2).Quiet ∧
      (Answer.imap (s.authFailure tag).1).isChallenge = false ∧
      ∀ d, { s with directory := d }.authFailure tag =
        ((s.authFailure tag).1, { (s.authFailure tag).2 with directory := d }) := by
  simp only [Imap.Auth.Session.authFailure, Imap.Auth.Session.countFailure]
  split
  · exact ⟨.inl rfl, rfl, fun _ ↦ rfl⟩
  · split <;> exact ⟨.inl rfl, rfl, fun _ ↦ rfl⟩

theorem isSome_imapRefusal (tag tag' : Text) (plus : Bool) (s : Imap.Auth.Session) :
    (imapRefusal tag plus s).isSome = (imapRefusal tag' plus s).isSome := by
  rw [imapRefusal, imapRefusal]
  split
  · rfl
  · split
    · rfl
    · split <;> rfl

variable {m : Message} {first : ChannelBinding × Text}

theorem of_presented_begins (h : first ∈ c.presented (.begins tag name plus initial)) :
    c.offered plus = some first.1 ∧ initial = some first.2 := by
  obtain ⟨binding, hoffered, h⟩ := bind_eq_some_iff.mp h
  obtain ⟨line, rfl, rfl⟩ := map_eq_some_iff.mp h
  exact ⟨hoffered, rfl⟩

theorem of_presented_responds (h : first ∈ c.presented (.responds line)) :
    c.awaited = some first.1 ∧ ¬ (line == ['*']) = true ∧ line = first.2 := by
  rw [Conn.presented] at h
  by_cases hline : (line == ['*']) = true
  · simp [hline] at h
  · rw [if_neg hline] at h
    obtain ⟨binding, hawaited, rfl⟩ := map_eq_some_iff.mp h
    exact ⟨hawaited, hline, rfl⟩

theorem eq_of_not_presented (hready : c.Ready (.responds line))
    (h : c.presented (.responds line) = none) : (line == ['*']) = true := by
  by_contra hline
  obtain ⟨binding, hawaited⟩ := isSome_iff_exists.mp hready
  simp [Conn.presented, hline, hawaited] at h

/-- A client-first message is checked in one place, whichever way it comes. -/
theorem smtp_step_of_presented (hquiet : (Conn.smtp s).Quiet) (hready : (Conn.smtp s).Ready m)
    (hfirst : first ∈ (Conn.smtp s).presented m) (d : Directory) :
    ∃ pending, ((Conn.smtp s).withDirectory d).step p env m =
      (.smtp ({ s with directory := d, pendingScram := pending }.scramClientFirst p env first.2
          first.1).1,
        .smtp ({ s with directory := d, pendingScram := pending }.scramClientFirst p env first.2
          first.1).2) := by
  cases m with
  | begins tag name plus initial =>
    obtain ⟨hoffered, rfl⟩ := of_presented_begins hfirst
    refine ⟨s.pendingScram, ?_⟩
    rw [Conn.offered] at hoffered
    cases hrefusal : smtpRefusal plus s with
    | some action => simp [hrefusal] at hoffered
    | none =>
      have hbinding : s.scramBinding plus = first.1 := by simpa [hrefusal] using hoffered
      rw [Conn.withDirectory, Conn.step, smtp_auth_eq p env hready, hrefusal, ← hbinding]
      rfl
  | responds line =>
    obtain ⟨hawaited, hline, rfl⟩ := of_presented_responds hfirst
    refine ⟨none, ?_⟩
    obtain ⟨hexternal, hlogin, hscram | ⟨sent, hscram⟩⟩ := hquiet
    · simp [Conn.awaited, hscram] at hawaited
    · obtain rfl : sent = first.1 := by simpa [Conn.awaited, hscram] using hawaited
      rw [Conn.withDirectory, Conn.step, Session.authLine, if_neg hline]
      dsimp only
      rw [hexternal, hlogin, hscram]
      rfl

variable (p env) in
theorem imap_step_of_presented {s : Imap.Auth.Session} (hquiet : (Conn.imap s).Quiet)
    (hready : (Conn.imap s).Ready m) (hfirst : first ∈ (Conn.imap s).presented m) :
    ∃ tag, ∀ d, ∃ pending, ((Conn.imap s).withDirectory d).step p env m =
      (.imap ({ s with directory := d, pendingAuth := pending }.scramFirst p env.nonce tag first.2
          first.1).1,
        .imap ({ s with directory := d, pendingAuth := pending }.scramFirst p env.nonce tag first.2
          first.1).2) := by
  cases m with
  | begins tag name plus initial =>
    obtain ⟨hoffered, rfl⟩ := of_presented_begins hfirst
    refine ⟨tag, fun d ↦ ⟨s.pendingAuth, ?_⟩⟩
    rw [Conn.offered, isSome_imapRefusal [] tag] at hoffered
    cases hrefusal : imapRefusal tag plus s with
    | some action => simp [hrefusal] at hoffered
    | none =>
      have hbinding : s.scramBinding plus = first.1 := by simpa [hrefusal] using hoffered
      rw [Conn.withDirectory, Conn.step, imap_auth_eq p env tag hready, hrefusal, ← hbinding]
      rfl
  | responds line =>
    obtain ⟨hawaited, hline, rfl⟩ := of_presented_responds hfirst
    obtain hpending | ⟨tag, sent, hpending⟩ := hquiet
    · simp [Conn.awaited, hpending] at hawaited
    · obtain rfl : sent = first.1 := by simpa [Conn.awaited, hpending] using hawaited
      refine ⟨tag, fun d ↦ ⟨none, ?_⟩⟩
      rw [Conn.withDirectory, Conn.step, Imap.Auth.Session.authResponse, if_neg hline]
      dsimp only
      rw [hpending]

variable (p env) in
/-- What becomes of a client-first message. -/
theorem exists_step_of_presented (hquiet : c.Quiet) (hready : c.Ready m)
    (hfirst : first ∈ c.presented m) :
    ∃ (a : Answer) (c' : Conn), c'.Quiet ∧ a.isChallenge = false ∧ ∀ d,
      (challenge p d c.protocol (c.nonce env) first.1 first.2 = none →
        (c.withDirectory d).step p env m = (a, c'.withDirectory d)) ∧
      ((challenge p d c.protocol (c.nonce env) first.1 first.2).isSome = true →
        ((c.withDirectory d).step p env m).1.isChallenge = true) := by
  cases c with
  | smtp s =>
    refine ⟨.smtp s.scramFailure.1, .smtp s.scramFailure.2, ⟨hquiet.1, hquiet.2.1, .inl rfl⟩,
      isChallenge_scramFailure s, fun d ↦ ?_⟩
    obtain ⟨pending, hstep⟩ := smtp_step_of_presented hquiet hready hfirst d
    rw [hstep, smtp_scramClientFirst_eq]
    dsimp only [Conn.protocol, Conn.nonce]
    constructor
    · intro hnone
      rw [hnone]
      rfl
    · intro hsome
      obtain ⟨r, hr⟩ := isSome_iff_exists.mp hsome
      rw [hr]
      rfl
  | imap s =>
    obtain ⟨tag, hstep⟩ := imap_step_of_presented p env hquiet hready hfirst
    obtain ⟨hquiet', hno, -⟩ := imap_authFailure_spec tag s
    refine ⟨.imap (s.authFailure tag).1, .imap (s.authFailure tag).2, hquiet', hno, fun d ↦ ?_⟩
    obtain ⟨pending, hstep⟩ := hstep d
    rw [hstep, imap_scramFirst_eq]
    dsimp only [Conn.protocol, Conn.nonce]
    constructor
    · intro hnone
      have hfails := (imap_authFailure_spec tag { s with pendingAuth := pending }).2.2 d
      rw [hnone, Option.elim_none, hfails]
      rfl
    · intro hsome
      obtain ⟨r, hr⟩ := isSome_iff_exists.mp hsome
      rw [hr]
      rfl

theorem exists_step_of_not_presented (hquiet : c.Quiet) (hready : c.Ready m)
    (hnone : c.presented m = none) : ∃ (a : Answer) (c' : Conn), c'.Quiet ∧
      ∀ d, (c.withDirectory d).step p env m = (a, c'.withDirectory d) := by
  cases c with
  | smtp s =>
    cases m with
    | begins tag name plus initial =>
      cases hrefusal : smtpRefusal plus s with
      | some action =>
        refine ⟨.smtp action, .smtp s, hquiet, fun d ↦ ?_⟩
        rw [Conn.withDirectory, Conn.step, smtp_auth_eq p env hready, hrefusal]
        rfl
      | none =>
        obtain rfl : initial = none := by simpa [Conn.presented, Conn.offered, hrefusal] using hnone
        refine ⟨.smtp (.collectAuthResponse (.single 334 "")),
          .smtp { s with pendingScram := some (.clientFirst (s.scramBinding plus)) },
          ⟨hquiet.1, hquiet.2.1, .inr ⟨_, rfl⟩⟩, fun d ↦ ?_⟩
        rw [Conn.withDirectory, Conn.step, smtp_auth_eq p env hready, hrefusal]
        rfl
    | responds line =>
      have hline := eq_of_not_presented hready hnone
      refine ⟨.smtp (.reply (.single 501 "5.7.0 authentication cancelled")),
        .smtp { s with pendingScram := none, pendingLogin := none, pendingExternal := false },
        ⟨rfl, rfl, .inl rfl⟩, fun d ↦ ?_⟩
      rw [Conn.withDirectory, Conn.step, Session.authLine, if_pos hline]
      rfl
  | imap s =>
    cases m with
    | begins tag name plus initial =>
      cases hrefusal : imapRefusal tag plus s with
      | some output =>
        refine ⟨.imap output, .imap s, hquiet, fun d ↦ ?_⟩
        rw [Conn.withDirectory, Conn.step, imap_auth_eq p env tag hready, hrefusal]
        rfl
      | none =>
        obtain rfl : initial = none := by
          simpa [Conn.presented, Conn.offered, isSome_imapRefusal [] tag, hrefusal] using hnone
        refine ⟨.imap (Imap.Auth.continuation []),
          .imap { s with pendingAuth := some (.scramFirst tag (s.scramBinding plus)) },
          Or.inr ⟨_, _, rfl⟩, fun d ↦ ?_⟩
        rw [Conn.withDirectory, Conn.step, imap_auth_eq p env tag hready, hrefusal]
        rfl
    | responds line =>
      have hline := eq_of_not_presented hready hnone
      obtain hpending | ⟨tag, binding, hpending⟩ := hquiet
      · simp [Conn.Ready, Conn.awaited, hpending] at hready
      · refine ⟨.imap (.tagged tag "BAD authentication cancelled"),
          .imap { s with pendingAuth := none }, Or.inl rfl, fun d ↦ ?_⟩
        rw [Conn.withDirectory, Conn.step, Imap.Auth.Session.authResponse, if_pos hline]
        dsimp only
        rw [hpending]
        rfl

variable (p env) in
/-- The answer to a message that gets no challenge, and the connection after it, do not depend on
the directory. -/
def Uniform (m : Message) (c : Conn) : Prop :=
  ∃ (a : Answer) (c' : Conn), c'.Quiet ∧ ((c.presented m).isSome = true → a.isChallenge = false) ∧
    ∀ d, (∀ first ∈ c.presented m, challenge p d c.protocol (c.nonce env) first.1 first.2 = none) →
      (c.withDirectory d).step p env m = (a, c'.withDirectory d)

theorem uniform_of_quiet (hquiet : c.Quiet) (hready : c.Ready m) : Uniform p env m c := by
  cases hpresented : c.presented m with
  | none =>
    obtain ⟨a, c', hquiet', hstep⟩ := exists_step_of_not_presented hquiet hready hpresented
    exact ⟨a, c', hquiet', by simp [hpresented], fun d _ ↦ hstep d⟩
  | some first =>
    obtain ⟨a, c', hquiet', hno, hstep⟩ := exists_step_of_presented p env hquiet hready hpresented
    exact ⟨a, c', hquiet', fun _ ↦ hno, fun d hnone ↦ (hstep d).1 (hnone first hpresented)⟩

end

/-! ## Two servers -/

/-- What is the same in two challenges: everything but what they say. -/
def Answer.form : Answer → Answer
  | .smtp (.collectAuthResponse reply) => .smtp (.collectAuthResponse ⟨reply.code, []⟩)
  | .imap output => if output.collectAuth then .imap { output with text := [] } else .imap output
  | answer => answer

theorem Answer.isChallenge_form (a : Answer) : a.form.isChallenge = a.isChallenge := by
  cases a with
  | smtp action => cases action <;> rfl
  | imap output =>
    rw [form]
    split <;> rfl

/-- The salt and the iteration count that a challenge carries. -/
def Answer.carried (p : Primitives) (a : Answer) : Option (Text × Text) := do
  let encoded ← match a with
    | .smtp (.collectAuthResponse reply) => reply.lines.head?
    | .smtp _ => none
    | .imap output =>
      if output.collectAuth then some ((output.text.drop 2).dropLast.dropLast) else none
  let serverFirst ← (p.base64Decode encoded).bind decodeUtf8
  let salt ← tag serverFirst "s="
  let iterations ← tag serverFirst "i="
  pure (salt, iterations)

/-- Both are challenges, with the same salt and iteration count. -/
def SameSalt (p : Primitives) (a b : Answer) : Prop :=
  ∃ salt, a.carried p = some salt ∧ b.carried p = some salt

/-- The answers of the two servers, side by side, do not tell which is which. All have the same
form; those that are no challenges are the same; and two challenges of the one have the same salt if
those of the other have. -/
structure Hidden (p : Primitives) (log : List (Answer × Answer)) : Prop where
  form : ∀ e ∈ log, e.1.form = e.2.form
  final : ∀ e ∈ log, e.1.isChallenge = false → e.1 = e.2
  salt : ∀ e ∈ log, ∀ e' ∈ log, SameSalt p e.1 e'.1 ↔ SameSalt p e.2 e'.2

/-- The connections to the two servers, and what they have answered. -/
structure World where
  conns : ℕ → Option (Conn × Conn)
  log : List (Answer × Answer)

def World.start : World := ⟨fun _ ↦ none, []⟩

inductive Event
  | connect (i : ℕ) (c : Conn)
  /-- A message comes in over a connection. -/
  | message (i : ℕ) (env : Env) (m : Message)

/-- If the line is a client-first message, then one about the account. -/
def About (p : Primitives) (d : Directory) (u line : Text) : Prop :=
  ∀ username, ((p.base64Decode line).bind decodeUtf8).bind usernameOf = some username →
    denotes p d username = some u

def WrongProof (p : Primitives) (line : Text) : Conn → Prop
  | .smtp s =>
    ∀ server credentials account, s.pendingScram = some (.clientFinal server credentials account) →
    ∀ clientFinal, (p.base64Decode line).bind decodeUtf8 = some clientFinal →
      ∀ serverFinal, server.finish p clientFinal credentials ≠ .ok serverFinal
  | .imap s => ∀ tag server credentials account,
    s.pendingAuth = some (.scramFinal tag server credentials account) →
    ∀ clientFinal, (p.base64Decode line).bind decodeUtf8 = some clientFinal →
      ∀ serverFinal, server.finish p clientFinal credentials ≠ .ok serverFinal

/-- What a message is allowed to be: part of a SCRAM exchange about the account, with wrong
proofs. -/
def Probe (p : Primitives) (d : Directory) (u : Text) (m : Message) (c : Conn) : Prop :=
  c.Ready m ∧ (∀ first ∈ c.presented m, About p d u first.2) ∧
    ∀ line, m = .responds line → WrongProof p line c

def machine (p : Primitives) (u : Text) (d d' : Directory) : Machine World Event where
  enabled w
    | .connect _ c => c.Quiet
    | .message i _ m => ∀ c ∈ w.conns i, Probe p d u m c.1 ∧ Probe p d u m c.2
  step w
    | .connect i c =>
      { w with conns := Function.update w.conns i (some (c.withDirectory d, c.withDirectory d')) }
    | .message i env m =>
      match w.conns i with
      | none => w
      | some (c, c') =>
        let r := c.step p env m
        let r' := c'.step p env m
        { conns := Function.update w.conns i (some (r.2, r'.2)), log := w.log ++ [(r.1, r'.1)] }

/-- No client-first message is good enough for a challenge where the account is. -/
def Unchallenged (p : Primitives) (d : Directory) (w : World) : Event → Prop
  | .connect _ _ => True
  | .message i env m => ∀ c ∈ w.conns i, ∀ first ∈ c.1.presented m,
    ∀ flag authzid bare username,
      ¬Eligible p d c.1.protocol (c.1.nonce env) first.1 first.2 flag authzid bare username

/-- Both connections of a pair are in the same state. -/
def Twins (d d' : Directory) (pair : Conn × Conn) : Prop :=
  ∃ c : Conn, c.Quiet ∧ pair = (c.withDirectory d, c.withDirectory d')

/-- The servers have answered alike, and all connections are in the same state. -/
structure Inv (d d' : Directory) (w : World) : Prop where
  conns : ∀ i, ∀ pair ∈ w.conns i, Twins d d' pair
  log : ∀ e ∈ w.log, e.1 = e.2

section

variable {p : Primitives} {u : Text} {d d' : Directory} {w : World}

theorem Conn.protocol_withDirectory (c : Conn) : (c.withDirectory d).protocol = c.protocol := by
  cases c <;> rfl

theorem Conn.nonce_withDirectory (env : Env) (c : Conn) :
    (c.withDirectory d).nonce env = c.nonce env := by
  cases c <;> rfl

theorem Conn.presented_withDirectory (m : Message) (c : Conn) :
    (c.withDirectory d).presented m = c.presented m := by
  cases c <;> cases m <;> rfl

variable {c : Conn} {m : Message} {i : ℕ}

theorem Conn.ready_withDirectory (h : (c.withDirectory d).Ready m) :
    c.Ready m := by
  cases c <;> cases m <;> exact h

theorem challenge_absent (hdiffer : DifferOnly p u d d') {line : Text} (habout : About p d u line)
    (protocol : Protocol) (nonce : Option Text) (binding : ChannelBinding) :
    challenge p d' protocol nonce binding line = none := by
  rw [Option.eq_none_iff_forall_not_mem]
  intro r hr
  obtain ⟨clientFirst, hdecodes, hr⟩ := bind_eq_some_iff.mp hr
  obtain ⟨username, husername, hr⟩ := bind_eq_some_iff.mp hr
  obtain ⟨credentials, hcredentials, -⟩ := bind_eq_some_iff.mp hr
  have hdenotes : denotes p d username = some u := by
    refine habout username ?_
    rw [hdecodes]
    exact husername
  rw [hdiffer.scramCredentials_eq_none hdenotes] at hcredentials
  cases hcredentials

theorem hidden_of_log (h : ∀ e ∈ w.log, e.1 = e.2) : Hidden p w.log where
  form e he := by rw [h e he]
  final e he _ := h e he
  salt e he e' he' := by rw [h e he, h e' he']

section

variable {first : ChannelBinding × Text} (hdiffer : DifferOnly p u d d') (hquiet : c.Quiet)
  (hready : c.Ready m) (habout : ∀ first ∈ c.presented m, About p d u first.2)
include hdiffer hquiet hready habout

theorem twins_of_refused {env : Env} (hnone : ∀ first ∈ c.presented m, challenge p d c.protocol
    (c.nonce env) first.1 first.2 = none) :
    ((c.withDirectory d).step p env m).1 = ((c.withDirectory d').step p env m).1 ∧
      Twins d d' (((c.withDirectory d).step p env m).2, ((c.withDirectory d').step p env m).2) := by
  obtain ⟨a, c', hquiet', -, hsame⟩ := uniform_of_quiet hquiet hready
  have hleft := hsame d hnone
  have hright := hsame d' fun first hfirst ↦ challenge_absent hdiffer (habout first hfirst) _ _ _
  rw [hleft, hright]
  exact ⟨rfl, c', hquiet', rfl⟩

/-- A message that is good enough for a challenge gets it from one of the servers only. -/
theorem form_ne_of_challenged {env : Env} (hfirst : first ∈ c.presented m)
    (hsome : (challenge p d c.protocol (c.nonce env) first.1 first.2).isSome = true) :
    ((c.withDirectory d).step p env m).1.form ≠ ((c.withDirectory d').step p env m).1.form := by
  obtain ⟨a, c', -, hno, hstep⟩ := exists_step_of_presented p env hquiet hready hfirst
  have hleft := (hstep d).2 hsome
  have hright := (hstep d').1 (challenge_absent hdiffer (habout first hfirst) _ _ _)
  intro hform
  have hsames := congrArg Answer.isChallenge hform
  rw [Answer.isChallenge_form, Answer.isChallenge_form, hleft, hright, hno] at hsames
  cases hsames

end

theorem unchallenged_iff {env : Env}
    (hc : w.conns i = some (c.withDirectory d, c.withDirectory d')) :
    Unchallenged p d w (.message i env m) ↔
      ∀ first ∈ c.presented m, challenge p d c.protocol (c.nonce env) first.1 first.2 = none := by
  rw [Unchallenged]
  constructor
  · intro h first hfirst
    rw [← Option.not_isSome_iff_eq_none, isSome_challenge_iff]
    rintro ⟨flag, authzid, bare, username, heligible⟩
    have hpresented : first ∈ (c.withDirectory d).presented m := by
      rw [Conn.presented_withDirectory]
      exact hfirst
    refine h _ hc first hpresented flag authzid bare username ?_
    rw [Conn.protocol_withDirectory, Conn.nonce_withDirectory]
    exact heligible
  · intro h pair hpair first hfirst flag authzid bare username heligible
    obtain rfl := Option.some.inj (hc.symm.trans hpair)
    rw [Conn.presented_withDirectory] at hfirst
    rw [Conn.protocol_withDirectory, Conn.nonce_withDirectory] at heligible
    have hsome := isSome_challenge_iff.mpr ⟨flag, authzid, bare, username, heligible⟩
    rw [h first hfirst] at hsome
    cases hsome

theorem step_message {env : Env} {c' : Conn} (hc : w.conns i = some (c, c')) :
    (machine p u d d').step w (.message i env m) =
      { conns := Function.update w.conns i (some ((c.step p env m).2, (c'.step p env m).2))
        log := w.log ++ [((c.step p env m).1, (c'.step p env m).1)] } := by
  simp only [machine, hc]

theorem step_message_none {env : Env} (hc : w.conns i = none) :
    (machine p u d d').step w (.message i env m) = w := by
  simp only [machine, hc]

theorem twins_update {conns : ℕ → Option (Conn × Conn)} (h : ∀ i, ∀ pair ∈ conns i, Twins d d' pair)
    {j : ℕ} {pair : Conn × Conn} (hpair : Twins d d' pair) :
    ∀ i, ∀ pair' ∈ Function.update conns j (some pair) i, Twins d d' pair' := by
  intro i pair' hmem
  by_cases hi : i = j
  · subst hi
    rw [Function.update_self] at hmem
    obtain rfl := Option.some.inj hmem
    exact hpair
  · rw [Function.update_of_ne hi] at hmem
    exact h i pair' hmem

/-- What a step keeps, and what it shows if it is challenged. -/
theorem Inv.step (hdiffer : DifferOnly p u d d') (hinv : Inv d d' w) {e : Event}
    (henabled : (machine p u d d').enabled w e) :
    (Unchallenged p d w e → Inv d d' ((machine p u d d').step w e)) ∧
      (Hidden p ((machine p u d d').step w e).log → Unchallenged p d w e) := by
  cases e with
  | connect i c =>
    refine ⟨fun _ ↦ ⟨twins_update hinv.conns ⟨c, henabled, rfl⟩, hinv.log⟩, fun _ ↦ trivial⟩
  | message i env m =>
    cases hpair : w.conns i with
    | none =>
      rw [step_message_none hpair]
      refine ⟨fun _ ↦ hinv, fun _ pair hmem ↦ ?_⟩
      rw [hpair] at hmem
      cases hmem
    | some pair =>
      obtain ⟨c, hquiet, rfl⟩ := hinv.conns i pair hpair
      obtain ⟨⟨hready, habout, -⟩, -⟩ := henabled _ hpair
      have hready' : c.Ready m := Conn.ready_withDirectory hready
      have habout' : ∀ first ∈ c.presented m, About p d u first.2 := by
        rw [← Conn.presented_withDirectory (d := d)]
        exact habout
      rw [step_message hpair, unchallenged_iff hpair]
      constructor
      · intro hnone
        obtain ⟨hsame, htwins⟩ := twins_of_refused hdiffer hquiet hready' habout' hnone
        refine ⟨twins_update hinv.conns htwins, fun e he ↦ ?_⟩
        rcases List.mem_append.mp he with he | he
        · exact hinv.log e he
        · obtain rfl := List.mem_singleton.mp he
          exact hsame
      · intro hhidden first hfirst
        rw [← Option.not_isSome_iff_eq_none]
        intro hsome
        refine form_ne_of_challenged hdiffer hquiet hready' habout' hfirst hsome ?_
        exact hhidden.form _ (List.mem_append_right _ (List.mem_singleton.mpr rfl))

theorem inv_start : Inv d d' .start := by
  constructor
  · intro i pair h
    cases h
  · intro e h
    cases h

theorem inv_of_reach (hdiffer : DifferOnly p u d d')
    (hreach : (machine p u d d').Reach (Unchallenged p d) .start w) : Inv d d' w :=
  hreach.invariant inv_start fun _ _ hinv henabled hguard ↦ (hinv.step hdiffer henabled).1 hguard

end

/-- **Which accounts exist stays hidden as long as nobody is challenged.** In every run, over any
number of SMTP and IMAP connections, in which no client-first message about the account is good
enough for a challenge where the account is, the answers of the two servers do not tell which of
them has it. The next message keeps it so if and only if it is not good enough for a challenge
either. -/
theorem hidden_iff (p : Primitives) (u : Text) (d d' : Directory) (hdiffer : DifferOnly p u d d')
    {w : World} (hreach : (machine p u d d').Reach (Unchallenged p d) .start w) :
    Hidden p w.log ∧ ∀ e, (machine p u d d').enabled w e →
      (Hidden p ((machine p u d d').step w e).log ↔ Unchallenged p d w e) := by
  have hinv := inv_of_reach hdiffer hreach
  refine ⟨hidden_of_log hinv.log, fun e henabled ↦ ⟨(hinv.step hdiffer henabled).2,
    fun hguard ↦ ?_⟩⟩
  exact hidden_of_log ((hinv.step hdiffer henabled).1 hguard).log

def nobody : Directory := .empty

def alone : Directory :=
  { nobody with
    passwordHashes := (∅ : Table Text).insert "alice".toList "a".toList
    scram := (∅ : Table ScramStored).insert "alice".toList
      ⟨"salt".toList, 4096, List.replicate 32 'k', List.replicate 32 's'⟩ }

theorem differOnly_alone : DifferOnly .plain "alice".toList alone nobody where
  own login hlogin a ha := by
    have hsame : denotes .plain nobody login = denotes .plain alone login := rfl
    rw [hsame, hlogin] at ha
    exact (Option.some.inj ha).symm
  other login _ := rfl
  absent := rfl
  scram a ha := (AList.lookup_insert_ne ha).symm
  passwordHashes a ha := (AList.lookup_insert_ne ha).symm
  allowedProtocols a _ := rfl

/-- A client inside TLS that has said hello. -/
def greeted : Conn := .smtp { Session.new "mx".toList with tlsActive := true, state := .greeted }

/-- A client asks about Alice. -/
def asks (line : String) : Event :=
  .message 0 ⟨0, some "xyz".toList, fun _ _ ↦ true, true⟩
    (.begins [] "SCRAM-SHA-256".toList false (some line.toList))

def connected : World :=
  (machine .plain "alice".toList alone nobody).step .start (.connect 0 greeted)

theorem conns_connected : connected.conns 0 =
    some (greeted.withDirectory alone, greeted.withDirectory nobody) := rfl

theorem about_of_usernameOf {line : Text}
    (h : ((Primitives.plain.base64Decode line).bind decodeUtf8).bind usernameOf =
      some "alice".toList) :
    About .plain alone "alice".toList line := by
  intro username husername
  obtain rfl := Option.some.inj (h.symm.trans husername)
  decide +kernel

theorem enabled_asks {line : String}
    (h : ((Primitives.plain.base64Decode line.toList).bind decodeUtf8).bind usernameOf =
      some "alice".toList) :
    (machine .plain "alice".toList alone nobody).enabled connected (asks line) := by
  intro c hc
  obtain rfl := Option.some.inj (conns_connected.symm.trans hc)
  have hprobe : ∀ d, Probe .plain alone "alice".toList
      (.begins [] "SCRAM-SHA-256".toList false (some line.toList)) (greeted.withDirectory d) := by
    intro d
    have hname : Sasl.Mechanism.parse "SCRAM-SHA-256".toList = some (mechanism false) := by
      decide +kernel
    refine ⟨hname, fun first hfirst ↦ ?_, fun _ hm ↦ by cases hm⟩
    rw [Conn.presented_withDirectory, Conn.presented] at hfirst
    obtain ⟨binding, -, hfirst⟩ := bind_eq_some_iff.mp hfirst
    obtain ⟨sent, hsent, rfl⟩ := map_eq_some_iff.mp hfirst
    obtain rfl := Option.some.inj hsent
    exact about_of_usernameOf h
  exact ⟨hprobe alone, hprobe nobody⟩

theorem hidden_iff_asks :
    Hidden .plain ((machine .plain "alice".toList alone nobody).step connected
      (asks "n,,n=alice")).log := by
  have hreach :
    (machine .plain "alice".toList alone nobody).Reach (Unchallenged .plain alone) .start
      connected := Machine.Reach.refl.step ⟨rfl, rfl, .inl rfl⟩ trivial
  refine ((hidden_iff .plain "alice".toList alone nobody differOnly_alone hreach).2 _
    (enabled_asks (by decide +kernel))).mpr ((unchallenged_iff conns_connected).mpr ?_)
  decide +kernel

/-- The server without Alice refuses where the other sends a challenge. -/
theorem unknown_refused :
    ∃ w, (machine .plain "alice".toList alone nobody).Reach (fun _ _ ↦ True) .start w ∧
      ¬Hidden .plain w.log := by
  have hreach : (machine .plain "alice".toList alone nobody).Reach (fun _ _ ↦ True) .start
      connected := Machine.Reach.refl.step ⟨rfl, rfl, .inl rfl⟩ trivial
  refine ⟨_, hreach.step (e := asks "n,,n=alice,r=abc") (enabled_asks (by decide +kernel)) trivial,
    ?_⟩
  intro hhidden
  have hforms : ¬∀ e ∈ ((machine .plain "alice".toList alone nobody).step connected
      (asks "n,,n=alice,r=abc")).log, e.1.form = e.2.form := by
    decide +kernel
  exact hforms hhidden.form

end Epistle.Auth.Probing
