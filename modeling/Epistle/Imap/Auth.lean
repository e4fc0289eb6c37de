import Epistle.Smtp.Session

/-!
# Signing in to IMAP

The part of an IMAP session that signs a client in: `LOGIN`, and `AUTHENTICATE` with its exchanges.
The mechanisms are those of SMTP, but some details differ: `LOGIN` does not know where the client
comes from, responses are not trimmed before they are decoded, and a failure counts only as long as
nobody has signed in. Other commands leave this part of the session alone.
-/

namespace Epistle.Imap.Auth

open TextFormat Smtp

/-- An exchange between two lines, with the tag of its command. -/
inductive PendingAuth
  | plain (tag : Text)
  | scramFirst (tag : Text) (binding : ChannelBinding)
  | scramFinal (tag : Text) (server : ScramServer) (credentials : ScramCredentials) (account : Text)
  | loginUser (tag : Text)
  /-- Waiting for the password of a user. -/
  | loginPass (tag user : Text)
  | external (tag : Text)

def PendingAuth.tag : PendingAuth → Text
  | .plain tag => tag
  | .scramFirst tag _ => tag
  | .scramFinal tag _ _ _ => tag
  | .loginUser tag => tag
  | .loginPass tag _ => tag
  | .external tag => tag

structure Session where
  directory : Directory
  /-- Who has signed in. -/
  account : Option Text
  loginFailures : ℕ
  tlsActive : Bool
  /-- STARTTLS is on offer. -/
  tlsAvailable : Bool
  pendingAuth : Option PendingAuth
  /-- A fixed server nonce. -/
  scramNonce : Option Text
  /-- The OAuth verifier: of a token and a time, the verified address. -/
  oauth : Option (Text → ℕ → Option Text)
  cbindData : Option Bytes
  clientIdentity : Option Text
  peerIp : Option IpAddr
  authProtocol : Protocol

/-- The session of a connection inside TLS that has just been accepted. -/
def Session.new (directory : Directory) : Session where
  directory := directory
  account := none
  loginFailures := 0
  tlsActive := true
  tlsAvailable := false
  pendingAuth := none
  scramNonce := none
  oauth := none
  cbindData := none
  clientIdentity := none
  peerIp := none
  authProtocol := .imaps

structure Output where
  text : Text
  close : Bool
  /-- Read one response. -/
  collectAuth : Bool
  upgradeTls : Bool
  deriving DecidableEq, Repr

def Output.send (text : Text) : Output := ⟨text ++ "\r\n".toList, false, false, false⟩

def Output.tagged (tag : Text) (text : String) : Output := .send (tag ++ ' ' :: text.toList)

/-- Ask for a response. -/
def continuation (challenge : Text) : Output :=
  { Output.send ('+' :: ' ' :: challenge) with collectAuth := true }

def decode (p : Primitives) (encoded : Text) : Option Text :=
  (p.base64Decode encoded).bind decodeUtf8

namespace Session

abbrev Step : Type := Output × Session

/-- Count a failure, and close after three. -/
def countFailure (response : Text) (s : Session) : Step :=
  if s.account.isSome then (.send response, s)
  else if s.loginFailures + 1 ≥ 3 then
    ({ Output.send ("* BYE too many failures\r\n".toList ++ response) with close := true },
      { s with loginFailures := s.loginFailures + 1 })
  else (.send response, { s with loginFailures := s.loginFailures + 1 })

def authFailure (tag : Text) (s : Session) : Step :=
  { s with pendingAuth := none }.countFailure (tag ++ " NO authentication failed".toList)

def authOutcome (tag : Text) (account : Option Text) (s : Session) : Step :=
  match account with
  | some account => (.tagged tag "OK AUTHENTICATE completed", { s with account := some account })
  | none => s.authFailure tag

def admitted (s : Session) (account : Text) : Option Text :=
  if s.directory.isProtocolAllowed account s.authProtocol then some account else none

def login (p : Primitives) (now : ℕ) (tag username password : Text) (s : Session) : Step :=
  if !s.tlsActive then (.tagged tag "NO [PRIVACYREQUIRED] STARTTLS first", s)
  else if s.account.isSome then (.tagged tag "BAD already authenticated", s)
  else match s.directory.authenticateWithIp p now username password none s.authProtocol with
    | some account => (.tagged tag "OK LOGIN completed", { s with account := some account })
    | none => s.countFailure (tag ++ " NO LOGIN failed".toList)

def authPlain (p : Primitives) (now : ℕ) (tag encoded : Text) (s : Session) : Step :=
  s.authOutcome tag ((parsePlain p encoded).bind fun credentials ↦
    s.directory.authenticateWithIp p now credentials.1 credentials.2 s.peerIp s.authProtocol)

/-- LOGIN as a mechanism: remember the user name and ask for the password. -/
def loginUser (p : Primitives) (tag encoded : Text) (s : Session) : Step :=
  match decode p encoded with
  | none => s.authFailure tag
  | some user =>
    (continuation "UGFzc3dvcmQ6".toList, { s with pendingAuth := some (.loginPass tag user) })

def loginPass (p : Primitives) (now : ℕ) (tag user encoded : Text) (s : Session) : Step :=
  s.authOutcome tag ((decode p encoded).bind fun password ↦
    s.directory.authenticateWithIp p now user password s.peerIp s.authProtocol)

/-- EXTERNAL: authenticate as the identity in the client's certificate. -/
def authExternal (p : Primitives) (tag encoded : Text) (s : Session) : Step :=
  s.authOutcome tag do
    let identity ← s.clientIdentity
    let authzid ← Smtp.Session.externalAuthzid p encoded
    if !authzid.isEmpty && authzid != identity then none
    else
      let account ← s.directory.accountOf p identity
      s.admitted account

/-- OAuth: check the token, which comes with the command. -/
def oauthBearer (p : Primitives) (now : ℕ) (tag : Text) (initial : Option Text)
    (s : Session) : Step :=
  s.authOutcome tag do
    let verify ← s.oauth
    let token ← initial.bind (parseBearer p)
    let email ← verify token now
    let account ← s.directory.accountOf p email
    s.admitted account

/-- How a SCRAM exchange is bound to the certificate. -/
def scramBinding (plus : Bool) (s : Session) : ChannelBinding :=
  match s.cbindData, plus with
  | some hash, true => .required hash
  | some _, false => .supported
  | none, _ => .unsupported

/-- SCRAM: look up the user and answer with the challenge. -/
def scramFirst (p : Primitives) (nonce : Option Text) (tag encoded : Text)
    (binding : ChannelBinding) (s : Session) : Step :=
  let outcome : Option (Text × ScramServer × ScramCredentials × Text) := do
    let clientFirst ← decode p encoded
    let username ← usernameOf clientFirst
    let credentials ← s.directory.scramCredentials p username
    let (account, _) ← s.directory.credentials p username
    let account ← s.admitted account
    let nonce ← s.scramNonce.or nonce
    match (ScramServer.new nonce binding).first p clientFirst credentials with
    | (.ok (_, serverFirst), server) => some (serverFirst, server, credentials, account)
    | (.error _, _) => none
  match outcome with
  | none => s.authFailure tag
  | some (serverFirst, server, credentials, account) =>
    (continuation (p.base64Encode (encodeUtf8 serverFirst)),
      { s with pendingAuth := some (.scramFinal tag server credentials account) })

/-- SCRAM: check the proof. -/
def scramFinal (p : Primitives) (tag encoded : Text) (server : ScramServer)
    (credentials : ScramCredentials) (account : Text) (s : Session) : Step :=
  match (decode p encoded).map fun clientFinal ↦ server.finish p clientFinal credentials with
  | some (.ok serverFinal) =>
    (.send (tag ++ " OK [SASL ".toList ++ p.base64Encode (encodeUtf8 serverFinal) ++
      "] AUTHENTICATE completed".toList), { s with account := some account })
  | _ => s.authFailure tag

/-- SCRAM: take the client's first message, or ask for it. -/
def scramBegin (p : Primitives) (nonce : Option Text) (tag : Text) (initial : Option Text)
    (plus : Bool) (s : Session) : Step :=
  match initial with
  | some clientFirst => s.scramFirst p nonce tag clientFirst (s.scramBinding plus)
  | none =>
    (continuation [], { s with pendingAuth := some (.scramFirst tag (s.scramBinding plus)) })

def auth (p : Primitives) (env : Env) (tag mechanism : Text) (initial : Option Text) (s : Session) :
    Step :=
  if !s.tlsActive then (.tagged tag "NO [PRIVACYREQUIRED] STARTTLS first", s)
  else if s.account.isSome then (.tagged tag "BAD already authenticated", s)
  else match (Sasl.Mechanism.parse mechanism).filter fun mechanism ↦
      (Sasl.available s.clientIdentity.isSome s.cbindData.isSome s.oauth.isSome).contains
        mechanism with
    | none => (.tagged tag "NO unsupported SASL mechanism", s)
    | some .external =>
      match initial with
      | some response => s.authExternal p tag response
      | none => (continuation [], { s with pendingAuth := some (.external tag) })
    | some .plain =>
      match initial with
      | some response => s.authPlain p env.now tag response
      | none => (continuation [], { s with pendingAuth := some (.plain tag) })
    | some .scramSha256 => s.scramBegin p env.nonce tag initial false
    | some .scramSha256Plus => s.scramBegin p env.nonce tag initial true
    | some .login =>
      match initial with
      | some user => s.loginUser p tag user
      | none =>
        (continuation "VXNlcm5hbWU6".toList, { s with pendingAuth := some (.loginUser tag) })
    | some .oauthBearer => s.oauthBearer p env.now tag initial
    | some .xoauth2 => s.oauthBearer p env.now tag initial

def authResponse (p : Primitives) (env : Env) (line : Text) (s : Session) : Step :=
  if line == ['*'] then
    (.tagged ((s.pendingAuth.map PendingAuth.tag).getD ['*']) "BAD authentication cancelled",
      { s with pendingAuth := none })
  else
    let taken := { s with pendingAuth := none }
    match s.pendingAuth with
    | some (.plain tag) => taken.authPlain p env.now tag line
    | some (.scramFirst tag binding) => taken.scramFirst p env.nonce tag line binding
    | some (.scramFinal tag server credentials account) =>
      taken.scramFinal p tag line server credentials account
    | some (.loginUser tag) => taken.loginUser p tag line
    | some (.loginPass tag user) => taken.loginPass p env.now tag user line
    | some (.external tag) => taken.authExternal p tag line
    | none => (.tagged ['*'] "BAD unexpected authentication response", s)

def startTls (tag : Text) (s : Session) : Step :=
  if !s.tlsAvailable then (.tagged tag "BAD TLS already active", s)
  else ({ Output.tagged tag "OK begin TLS now" with upgradeTls := true }, s)

/-- The TLS handshake is complete. -/
def tlsStarted (identity : Option Text) (s : Session) : Session :=
  { s with
    clientIdentity := identity
    tlsActive := true
    tlsAvailable := false
    account := none
    loginFailures := 0 }

end Session

end Epistle.Imap.Auth
