import Epistle.Auth.Offers

/-!
# Authentication over SMTP

A step of an authentication leaves the transaction alone, and the user it sets is the one that its
offer signs in. Both are read off one walk through the mechanisms (`auth_cases`, `signs_authLine`).
-/

namespace Epistle.Auth

open TextFormat Smtp

section Judging

variable {p : Primitives} {now : ℕ} {directory : Directory} {protocol : Protocol}

theorem bind_plainOffer (ip : Option IpAddr) (encoded : Text) :
    (plainOffer p ip encoded).bind (Offer.account p now directory protocol) =
      (parsePlain p encoded).bind fun credentials ↦
        directory.authenticateWithIp p now credentials.1 credentials.2 ip protocol := by
  unfold plainOffer
  rw [Option.bind_map]
  rfl

theorem eq_some_of_or {x y : Option Text} {a : Text} (h : x.or y = some a) :
    y = some a ∨ x = some a := by
  cases x with
  | none => exact .inl h
  | some b => exact .inr h

theorem filter_allowed (account : Option Text) :
    account.filter (directory.isProtocolAllowed · protocol) = account.bind fun account ↦
      if directory.isProtocolAllowed account protocol then some account else none := by
  cases account with
  | none | some account => rfl

theorem bind_externalOffer (identity : Option Text) (encoded : Text) :
    (externalOffer p identity encoded).bind (Offer.account p now directory protocol) = (do
      let identity ← identity
      let authzid ← Session.externalAuthzid p encoded
      if !authzid.isEmpty && authzid != identity then none
      else
        let account ← directory.accountOf p identity
        if directory.isProtocolAllowed account protocol then some account else none) := by
  unfold externalOffer
  cases identity with
  | none => rfl
  | some identity =>
    cases Session.externalAuthzid p encoded with
    | none => rfl
    | some authzid =>
      simp only [Option.bind_eq_bind, Option.bind_some]
      split
      · rfl
      · exact filter_allowed _

theorem bind_tokenOffer (oauth : Option (Text → ℕ → Option Text)) (initial : Option Text) :
    (tokenOffer p oauth now initial).bind (Offer.account p now directory protocol) = (do
      let verify ← oauth
      let token ← initial.bind (parseBearer p)
      let email ← verify token now
      let account ← directory.accountOf p email
      if directory.isProtocolAllowed account protocol then some account else none) := by
  unfold tokenOffer
  cases oauth with
  | none => rfl
  | some verify =>
    cases initial.bind (parseBearer p) with
    | none => rfl
    | some token =>
      simp only [Option.bind_eq_bind, Option.bind_some]
      cases verify token now with
      | none => rfl
      | some email => exact filter_allowed _

end Judging

end Epistle.Auth

namespace Epistle.Smtp.Acceptance

open Auth TextFormat

/-- What a step of an authentication can do: it may set the user, and it goes on with commands or
with another response, or it closes. -/
def AuthStep (s : Session) (r : Session.Step) : Prop :=
  r.2.state = s.state ∧ r.2.directory = s.directory ∧ r.2.tlsActive = s.tlsActive ∧
    ∃ reply, r.1 = .reply reply ∨ r.1 = .collectAuthResponse reply ∨ r.1 = .close reply

/-- The action neither delivers nor asks for a chunk. -/
def isQuiet : Action → Bool
  | .deliver _ _ => false
  | .collectChunk _ _ => false
  | _ => true

theorem ne_deliver_of_isQuiet {action : Action} (h : isQuiet action = true) (reply : Reply)
    (message : AcceptedMessage) : action ≠ .deliver reply message := by
  rintro rfl
  exact absurd h nofun

variable {p : Primitives} {env : Env} {s : Session} {r : Session.Step}

theorem AuthStep.isQuiet (h : AuthStep s r) : isQuiet r.1 = true := by
  obtain ⟨-, -, -, reply, heq | heq | heq⟩ := h
  · rw [heq]
    rfl
  · rw [heq]
    rfl
  · rw [heq]
    rfl

end Epistle.Smtp.Acceptance

namespace Epistle.Auth.SmtpDesk

open TextFormat Smtp Acceptance

def authOffer (p : Primitives) (env : Env) (mechanism : Text) (initial : Option Text)
    (s : Session) :
    Option Offer :=
  if !s.tlsActive || s.authenticated.isSome then none
  else match s.state with
    | .greeted =>
      match (Sasl.Mechanism.parse mechanism).filter fun mechanism ↦
          (Sasl.available s.clientIdentity.isSome s.cbindData.isSome s.oauth.isSome).contains
            mechanism with
      | some .external => initial.bind (externalOffer p s.clientIdentity)
      | some .plain => initial.bind (plainOffer p s.peerIp)
      | some .oauthBearer => tokenOffer p s.oauth env.now initial
      | some .xoauth2 => tokenOffer p s.oauth env.now initial
      | _ => none
    | _ => none

/-- What the response to a challenge offers. -/
def lineOffer (p : Primitives) (line : Text) (s : Session) : Option Offer :=
  if line == ['*'] then none
  else if s.pendingExternal then externalOffer p s.clientIdentity line
  else match s.pendingLogin with
    | some none => none
    | some (some user) => (p.base64Decode (trim line)).map fun bytes ↦
        .password user (p.fromUtf8Lossy bytes) s.peerIp
    | none =>
      match s.pendingScram with
      | some (.clientFirst _) => none
      | some (.clientFinal server credentials account) =>
        ((p.base64Decode line).bind decodeUtf8).map fun clientFinal ↦
          .proof server credentials account clientFinal
      | none => plainOffer p s.peerIp line

/-- Whom an offer signs in here. -/
abbrev judge (p : Primitives) (now : ℕ) (s : Session) (offer : Option Offer) : Option Text :=
  offer.bind (Offer.account p now s.directory s.authProtocol)

/-- A step of an authentication after which the user is the one of an offer, or else the one
before. -/
def Signs (s : Session) (r : Session.Step) (account : Option Text) : Prop :=
  AuthStep s r ∧ r.2.authenticated = account.or s.authenticated

variable {p : Primitives} {env : Env} {s : Session} {r : Session.Step}

/-- The client is asked for a response. -/
theorem signs_challenge {reply : Reply} {s' : Session} (hstate : s'.state = s.state)
    (hdirectory : s'.directory = s.directory) (htls : s'.tlsActive = s.tlsActive)
    (huser : s'.authenticated = s.authenticated) :
    Signs s (.collectAuthResponse reply, s') none :=
  ⟨⟨hstate, hdirectory, htls, reply, .inr (.inl rfl)⟩, huser⟩

theorem signs_authFail (s : Session) : Signs s s.authFail none := by
  refine ⟨⟨rfl, rfl, rfl, .single 535 "5.7.8 authentication credentials invalid", ?_⟩, rfl⟩
  unfold Session.authFail
  split
  · exact .inr (.inr rfl)
  · exact .inl rfl

theorem signs_authOutcome (account : Option Text) (s : Session) :
    Signs s (s.authOutcome account) account := by
  cases account with
  | none => exact signs_authFail s
  | some account => exact ⟨⟨rfl, rfl, rfl, _, .inl rfl⟩, rfl⟩

theorem signs_verifyPlain (encoded : Text) (s : Session) :
    Signs s (s.verifyPlain p env encoded) (judge p env.now s (plainOffer p s.peerIp encoded)) := by
  rw [judge, bind_plainOffer]
  exact signs_authOutcome _ s

theorem signs_verifyExternal (now : ℕ) (encoded : Text) (s : Session) :
    Signs s (s.verifyExternal p encoded)
      (judge p now s (externalOffer p s.clientIdentity encoded)) := by
  rw [judge, bind_externalOffer]
  exact signs_authOutcome _ s

theorem signs_oauthBearer (initial : Option Text) (s : Session) :
    Signs s (s.oauthBearer p env initial)
      (judge p env.now s (tokenOffer p s.oauth env.now initial)) := by
  rw [judge, bind_tokenOffer]
  unfold Session.oauthBearer
  cases s.oauth with
  | none => exact ⟨⟨rfl, rfl, rfl, _, .inl rfl⟩, rfl⟩
  | some verify => exact signs_authOutcome _ s

theorem signs_scramClientFinal (encoded : Text) (server : ScramServer)
    (credentials : ScramCredentials) (account : Text) (now : ℕ) (s : Session) :
    Signs s (s.scramClientFinal p encoded server credentials account)
      (judge p now s (((p.base64Decode encoded).bind decodeUtf8).map fun clientFinal ↦
        .proof server credentials account clientFinal)) := by
  unfold Session.scramClientFinal judge
  cases (p.base64Decode encoded).bind decodeUtf8 with
  | none => exact signs_authFail { s with pendingScram := none }
  | some clientFinal =>
    simp only [Option.map_some, Option.bind_some, Offer.account]
    cases server.finish p clientFinal credentials with
    | error error => exact signs_authFail { s with pendingScram := none }
    | ok serverFinal => exact ⟨⟨rfl, rfl, rfl, _, .inl rfl⟩, rfl⟩

theorem signs_loginUsername (encoded : Text) (s : Session) :
    Signs s (s.loginUsername p encoded) none := by
  unfold Session.loginUsername
  split
  · exact signs_authFail s
  · exact signs_challenge rfl rfl rfl rfl

theorem signs_loginPassword (user encoded : Text) (s : Session) :
    Signs s (s.loginPassword p env user encoded)
      (judge p env.now s ((p.base64Decode (trim encoded)).map fun bytes ↦
        .password user (p.fromUtf8Lossy bytes) s.peerIp)) := by
  rw [judge, Option.bind_map]
  exact signs_authOutcome _ s

theorem signs_scramClientFirst (encoded : Text) (binding : ChannelBinding) (s : Session) :
    Signs s (s.scramClientFirst p env encoded binding) none := by
  unfold Session.scramClientFirst
  extract_lets outcome
  clear_value outcome
  cases outcome with
  | none => exact signs_authFail { s with pendingScram := none }
  | some found => exact signs_challenge rfl rfl rfl rfl

theorem signs_scramBegin (initial : Option Text) (plus : Bool) (s : Session) :
    Signs s (s.scramBegin p env initial plus) none := by
  unfold Session.scramBegin
  split
  · exact signs_scramClientFirst _ _ s
  · exact signs_challenge rfl rfl rfl rfl

theorem signs_authLine (line : Text) (s : Session) :
    Signs s (s.authLine p env line) (judge p env.now s (lineOffer p line s)) := by
  unfold Session.authLine lineOffer
  split
  · exact ⟨⟨rfl, rfl, rfl, _, .inl rfl⟩, rfl⟩
  · split
    · exact signs_verifyExternal _ line { s with pendingExternal := false }
    · cases s.pendingLogin with
      | some user =>
        cases user with
        | none => exact signs_loginUsername line { s with pendingLogin := none }
        | some user => exact signs_loginPassword user line { s with pendingLogin := none }
      | none =>
        cases s.pendingScram with
        | none => exact signs_verifyPlain line s
        | some pending =>
          cases pending with
          | clientFirst binding =>
            exact signs_scramClientFirst line binding
              { s with pendingLogin := none, pendingScram := none }
          | clientFinal server credentials account =>
            exact signs_scramClientFinal line server credentials account env.now
              { s with pendingLogin := none, pendingScram := none }

/-- `AUTH` is refused with the session as it was, or it is a step of an authentication inside TLS
and outside transactions. -/
theorem auth_cases (p : Primitives) (env : Env) (mechanism : Text) (initial : Option Text)
    (s : Session) :
    (∃ reply, s.auth p env mechanism initial = (.reply reply, s)) ∨
      s.state = .greeted ∧ s.tlsActive = true ∧ Signs s (s.auth p env mechanism initial)
        (judge p env.now s (authOffer p env mechanism initial s)) := by
  unfold Session.auth authOffer
  cases htls : s.tlsActive with
  | false => exact .inl ⟨_, rfl⟩
  | true =>
    cases s.authenticated.isSome with
    | true => exact .inl ⟨_, rfl⟩
    | false =>
      cases hstate : s.state with
      | connected | receivingRecipients reversePath requireTls | receivingData transaction =>
        exact .inl ⟨_, rfl⟩
      | greeted =>
        refine .inr ⟨rfl, rfl, ?_⟩
        cases (Sasl.Mechanism.parse mechanism).filter _ with
        | none => exact ⟨⟨rfl, rfl, rfl, _, .inl rfl⟩, rfl⟩
        | some mechanism =>
          cases mechanism with
          | external =>
            cases initial with
            | none => exact signs_challenge hstate.symm rfl htls.symm rfl
            | some response => exact signs_verifyExternal _ response s
          | plain =>
            cases initial with
            | none => exact signs_challenge rfl rfl rfl rfl
            | some response => exact signs_verifyPlain response s
          | scramSha256 => exact signs_scramBegin initial false s
          | scramSha256Plus => exact signs_scramBegin initial true s
          | oauthBearer | xoauth2 => exact signs_oauthBearer initial s
          | login =>
            cases initial with
            | none => exact signs_challenge hstate.symm rfl htls.symm rfl
            | some user => exact signs_loginUsername user s

end Epistle.Auth.SmtpDesk
