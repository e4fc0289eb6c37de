import Epistle.Smtp.Command
import Epistle.Smtp.Directory

/-!
# The SMTP session

The session takes command lines, responses to authentication challenges, lines of message data and
chunks, and says for each what the connection has to do next. It knows nothing about sockets. A mail
transaction begins when `MAIL` is accepted and ends with a delivery or a reset; recipients are
accepted until the message data begin, which come by `DATA` or by `BDAT`, not both.
-/

namespace Epistle

open TextFormat

namespace Sasl

inductive Mechanism
  | external
  | scramSha256Plus
  | scramSha256
  | plain
  | login
  | oauthBearer
  | xoauth2
  deriving DecidableEq, Repr

namespace Mechanism

def name : Mechanism → String
  | external => "EXTERNAL"
  | scramSha256Plus => "SCRAM-SHA-256-PLUS"
  | scramSha256 => "SCRAM-SHA-256"
  | plain => "PLAIN"
  | login => "LOGIN"
  | oauthBearer => "OAUTHBEARER"
  | xoauth2 => "XOAUTH2"

def parse (name : Text) : Option Mechanism :=
  [external, scramSha256Plus, scramSha256, plain, login, oauthBearer, xoauth2].find?
    fun mechanism ↦ mechanism.name.toList == toAsciiUppercase name

end Mechanism

/-- The mechanisms on offer, the strongest first. -/
def available (external channelBinding oauth : Bool) : List Mechanism :=
  (if external then [.external] else []) ++ (if channelBinding then [.scramSha256Plus] else []) ++
    [.scramSha256, .plain, .login] ++ if oauth then [.oauthBearer, .xoauth2] else []

end Sasl

namespace Smtp

def maxMessageSize : ℕ := 25 * 1024 * 1024

def maxRecipients : ℕ := 100

structure Reply where
  code : ℕ
  lines : List Text
  deriving DecidableEq, Repr

namespace Reply

def single (code : ℕ) (text : String) : Reply := ⟨code, [text.toList]⟩

def ok : Reply := single 250 "2.0.0 ok"
def closing : Reply := single 221 "2.0.0 closing connection"
def syntaxError : Reply := single 500 "5.5.2 syntax error"
def invalidArguments : Reply := single 501 "5.5.4 invalid arguments"
def badSequence : Reply := single 503 "5.5.1 bad sequence of commands"
def vrfyNotDisclosed : Reply := single 252 "2.1.5 cannot verify, send some mail and find out"
def startMailInput : Reply := single 354 "start mail input, end with <CRLF>.<CRLF>"

end Reply

/-- What is known of a message while its data are collected. -/
structure Transaction where
  reversePath : Text
  recipients : List Text
  /-- The recipients that asked for no report of a failure. -/
  noDsn : List Text
  size : ℕ
  body : Bytes
  requireTls : Bool
  chunking : Bool

/-- Where the session is in the dialogue. -/
inductive State
  | connected
  | greeted
  | receivingRecipients (reversePath : Text) (requireTls : Bool)
  | receivingData (transaction : Transaction)

structure AcceptedMessage where
  reversePath : Text
  recipients : List Text
  data : Bytes
  requireTls : Bool
  mailbox : Option Text
  noDsn : List Text
  deriving DecidableEq, Repr

def Transaction.message (transaction : Transaction) : AcceptedMessage where
  reversePath := transaction.reversePath
  recipients := transaction.recipients
  data := transaction.body
  requireTls := transaction.requireTls
  mailbox := none
  noDsn := transaction.noDsn

inductive Action
  | reply (reply : Reply)
  | collectData (reply : Reply)
  /-- Read that many bytes. -/
  | collectChunk (size : ℕ) (last : Bool)
  /-- Hand the message to delivery, and send the reply if that succeeds. -/
  | deliver (reply : Reply) (message : AcceptedMessage)
  | upgradeTls (reply : Reply)
  | collectAuthResponse (reply : Reply)
  | close (reply : Reply)
  deriving DecidableEq, Repr

inductive PendingScram
  | clientFirst (binding : ChannelBinding)
  | clientFinal (server : ScramServer) (credentials : ScramCredentials) (account : Text)

structure Session where
  hostname : Text
  state : State
  /-- STARTTLS is on offer. -/
  tlsAvailable : Bool
  /-- The connection is inside TLS. -/
  tlsActive : Bool
  authenticated : Option Text
  authFailures : ℕ
  heloDomain : Option Text
  esmtp : Bool
  directory : Directory
  pendingScram : Option PendingScram
  /-- Waiting for a user name, or for the password of the user. -/
  pendingLogin : Option (Option Text)
  /-- A fixed server nonce. -/
  scramNonce : Option Text
  /-- The OAuth verifier: of a token and a time, the verified address. -/
  oauth : Option (Text → ℕ → Option Text)
  cbindData : Option Bytes
  sendLimiter : Bool
  globalSubmissionRateLimitPerMin : Option ℕ
  clientIdentity : Option Text
  pendingExternal : Bool
  peerIp : Option IpAddr
  diskGuard : Bool
  authProtocol : Protocol

/-- The session of a plaintext connection that has just been accepted. -/
def Session.new (hostname : Text) : Session where
  hostname := hostname
  state := .connected
  tlsAvailable := false
  tlsActive := false
  authenticated := none
  authFailures := 0
  heloDomain := none
  esmtp := false
  directory := .empty
  pendingScram := none
  pendingLogin := none
  scramNonce := none
  oauth := none
  cbindData := none
  sendLimiter := false
  globalSubmissionRateLimitPerMin := none
  clientIdentity := none
  pendingExternal := false
  peerIp := none
  diskGuard := false
  authProtocol := .submission

/-- What the surroundings answer during a step. -/
structure Env where
  now : ℕ
  /-- A fresh random nonce, unless the generator fails. -/
  nonce : Option Text
  /-- Whether the submission limiter admits an account under a limit. -/
  limiterAdmits : Text → ℕ → Bool
  /-- Whether the file system can hold another message. -/
  hasRoom : Bool

/-- The surroundings when nothing stands in the way. -/
def Env.plain : Env := ⟨0, none, fun _ _ ↦ true, true⟩

/-! ## Authentication -/

/-- Decode a PLAIN response into the login and the password. Acting as another user is refused. -/
def parsePlain (p : Primitives) (encoded : Text) : Option (Text × Text) := do
  let text ← (p.base64Decode (trim encoded)).bind decodeUtf8
  match text.splitOn '\x00' with
  | [authzid, authcid, password] =>
    if authcid.isEmpty || password.isEmpty then none
    else if !authzid.isEmpty && authzid != authcid then none
    else some (authcid, password)
  | _ => none

/-- The token of an OAuth response. -/
def parseBearer (p : Primitives) (encoded : Text) : Option Text := do
  let text ← (p.base64Decode encoded).bind decodeUtf8
  let (_, rest) ← splitOnceText "auth=Bearer ".toList text
  let rest := (splitOnceText "auth=Bearer ".toList rest).elim rest Prod.fst
  let token := trim ((rest.splitOn '\x01').headD [])
  if token.isEmpty then none else some token

namespace Session

abbrev Step : Type := Action × Session

/-- Count a failed authentication, and close after three. -/
def authFail (s : Session) : Step :=
  let reply := Reply.single 535 "5.7.8 authentication credentials invalid"
  (if s.authFailures + 1 ≥ 3 then .close reply else .reply reply,
    { s with authFailures := s.authFailures + 1 })

def authSuccess (account : Text) (s : Session) : Step :=
  (.reply (.single 235 "2.7.0 authentication successful"), { s with authenticated := some account })

def authOutcome (account : Option Text) (s : Session) : Step :=
  match account with
  | some account => s.authSuccess account
  | none => s.authFail

def verifyPlain (p : Primitives) (env : Env) (encoded : Text) (s : Session) : Step :=
  s.authOutcome ((parsePlain p encoded).bind fun credentials ↦
    s.directory.authenticateWithIp p env.now credentials.1 credentials.2 s.peerIp s.authProtocol)

/-- LOGIN: remember the user name and ask for the password. -/
def loginUsername (p : Primitives) (encoded : Text) (s : Session) : Step :=
  match p.base64Decode (trim encoded) with
  | none => s.authFail
  | some bytes =>
    (.collectAuthResponse (.single 334 "UGFzc3dvcmQ6"),
      { s with pendingLogin := some (some (p.fromUtf8Lossy bytes)) })

def loginPassword (p : Primitives) (env : Env) (user encoded : Text) (s : Session) : Step :=
  s.authOutcome ((p.base64Decode (trim encoded)).bind fun bytes ↦
    s.directory.authenticateWithIp p env.now user (p.fromUtf8Lossy bytes) s.peerIp s.authProtocol)

def admitted (s : Session) (account : Text) : Option Text :=
  if s.directory.isProtocolAllowed account s.authProtocol then some account else none

/-- The identity that an EXTERNAL response asks for: none in particular, or the given one. -/
def externalAuthzid (p : Primitives) (encoded : Text) : Option Text :=
  let trimmed := trim encoded
  if trimmed.isEmpty || trimmed == ['='] then some []
  else (p.base64Decode trimmed).map p.fromUtf8Lossy

/-- EXTERNAL: authenticate as the identity in the client's certificate. -/
def verifyExternal (p : Primitives) (encoded : Text) (s : Session) : Step :=
  s.authOutcome do
    let identity ← s.clientIdentity
    let authzid ← externalAuthzid p encoded
    if !authzid.isEmpty && authzid != identity then none
    else
      let account ← s.directory.accountOf p identity
      s.admitted account

/-- How a SCRAM exchange is bound to the certificate. -/
def scramBinding (plus : Bool) (s : Session) : ChannelBinding :=
  match s.cbindData, plus with
  | some hash, true => .required hash
  | some _, false => .supported
  | none, _ => .unsupported

def scramFailure (s : Session) : Step := { s with pendingScram := none }.authFail

/-- SCRAM: look up the user and answer with the challenge. -/
def scramClientFirst (p : Primitives) (env : Env) (encoded : Text) (binding : ChannelBinding)
    (s : Session) : Step :=
  let outcome : Option (Text × ScramServer × ScramCredentials × Text) := do
    let clientFirst ← (p.base64Decode encoded).bind decodeUtf8
    let username ← usernameOf clientFirst
    let credentials ← s.directory.scramCredentials p username
    let (account, _) ← s.directory.credentials p username
    let account ← s.admitted account
    let nonce ← s.scramNonce.or env.nonce
    match (ScramServer.new nonce binding).first p clientFirst credentials with
    | (.ok (_, serverFirst), server) => some (serverFirst, server, credentials, account)
    | (.error _, _) => none
  match outcome with
  | none => s.scramFailure
  | some (serverFirst, server, credentials, account) =>
    (.collectAuthResponse ⟨334, [p.base64Encode (encodeUtf8 serverFirst)]⟩,
      { s with pendingScram := some (.clientFinal server credentials account) })

/-- SCRAM: check the proof. -/
def scramClientFinal (p : Primitives) (encoded : Text) (server : ScramServer)
    (credentials : ScramCredentials) (account : Text) (s : Session) : Step :=
  match ((p.base64Decode encoded).bind decodeUtf8).map fun clientFinal ↦
      server.finish p clientFinal credentials with
  | some (.ok serverFinal) =>
    (.reply ⟨235, ["2.7.0 ".toList ++ p.base64Encode (encodeUtf8 serverFinal)]⟩,
      { s with authenticated := some account })
  | _ => s.scramFailure

/-- SCRAM: take the client's first message, or ask for it. -/
def scramBegin (p : Primitives) (env : Env) (initial : Option Text) (plus : Bool)
    (s : Session) : Step :=
  match initial with
  | some clientFirst => s.scramClientFirst p env clientFirst (s.scramBinding plus)
  | none =>
    (.collectAuthResponse (.single 334 ""),
      { s with pendingScram := some (.clientFirst (s.scramBinding plus)) })

/-- OAuth: check the token, which comes with the command. -/
def oauthBearer (p : Primitives) (env : Env) (initial : Option Text) (s : Session) : Step :=
  match s.oauth with
  | none => (.reply (.single 504 "5.5.4 mechanism not supported"), s)
  | some verify =>
    s.authOutcome do
      let token ← initial.bind (parseBearer p)
      let email ← verify token env.now
      let account ← s.directory.accountOf p email
      s.admitted account

def auth (p : Primitives) (env : Env) (mechanism : Text) (initial : Option Text)
    (s : Session) : Step :=
  if !s.tlsActive then (.reply (.single 538 "5.7.11 encryption required for auth"), s)
  else if s.authenticated.isSome then (.reply .badSequence, s)
  else match s.state with
    | .greeted =>
      match (Sasl.Mechanism.parse mechanism).filter fun mechanism ↦
          (Sasl.available s.clientIdentity.isSome s.cbindData.isSome s.oauth.isSome).contains
            mechanism with
      | none => (.reply (.single 504 "5.5.4 mechanism not supported"), s)
      | some .external =>
        match initial with
        | some response => s.verifyExternal p response
        | none => (.collectAuthResponse (.single 334 ""), { s with pendingExternal := true })
      | some .plain =>
        match initial with
        | some response => s.verifyPlain p env response
        | none => (.collectAuthResponse (.single 334 ""), s)
      | some .scramSha256 => s.scramBegin p env initial false
      | some .scramSha256Plus => s.scramBegin p env initial true
      | some .oauthBearer => s.oauthBearer p env initial
      | some .xoauth2 => s.oauthBearer p env initial
      | some .login =>
        match initial with
        | some user => s.loginUsername p user
        | none =>
          (.collectAuthResponse (.single 334 "VXNlcm5hbWU6"), { s with pendingLogin := some none })
    | _ => (.reply .badSequence, s)

/-- The response to a challenge. -/
def authLine (p : Primitives) (env : Env) (line : Text) (s : Session) : Step :=
  if line == ['*'] then
    (.reply (.single 501 "5.7.0 authentication cancelled"),
      { s with pendingScram := none, pendingLogin := none, pendingExternal := false })
  else if s.pendingExternal then { s with pendingExternal := false }.verifyExternal p line
  else match s.pendingLogin with
    | some none => { s with pendingLogin := none }.loginUsername p line
    | some (some user) => { s with pendingLogin := none }.loginPassword p env user line
    | none =>
      match s.pendingScram with
      | some (.clientFirst binding) =>
        { s with pendingScram := none }.scramClientFirst p env line binding
      | some (.clientFinal server credentials account) =>
        { s with pendingScram := none }.scramClientFinal p line server credentials account
      | none => s.verifyPlain p env line

/-! ## Transactions -/

def reset (s : Session) : Session :=
  match s.state with
  | .connected => s
  | _ => { s with state := .greeted }

/-- The `AUTH` line of the greeting. -/
def authCapability (s : Session) : Text :=
  (Sasl.available s.clientIdentity.isSome s.cbindData.isSome s.oauth.isSome).foldl
    (fun line mechanism ↦ line ++ ' ' :: mechanism.name.toList) "AUTH".toList

def greet (domain : Text) (esmtp : Bool) (s : Session) : Step :=
  let s := { s with state := .greeted, heloDomain := some domain, esmtp }
  if !esmtp then (.reply ⟨250, [s.hostname]⟩, s)
  else
    let lines := [s.hostname, "PIPELINING".toList, "ENHANCEDSTATUSCODES".toList, "8BITMIME".toList,
        "SMTPUTF8".toList, "CHUNKING".toList, "DSN".toList,
        "SIZE ".toList ++ decimal maxMessageSize,
        "LIMITS RCPTMAX=".toList ++ decimal maxRecipients] ++
      (if s.tlsAvailable then ["STARTTLS".toList] else []) ++
      (if s.tlsActive && s.authenticated.isNone then [s.authCapability] else []) ++
      if s.tlsActive then ["REQUIRETLS".toList] else []
    (.reply ⟨250, lines⟩, s)

def startTls (s : Session) : Step :=
  if !s.tlsAvailable then (.reply (.single 454 "4.7.0 TLS not available"), s)
  else match s.state with
    | .greeted => (.upgradeTls (.single 220 "ready to start TLS"), s)
    | _ => (.reply .badSequence, s)

/-- Why a sender is refused. An authenticated user sends from an own address; the null path is for
others only. -/
def refuseSender (p : Primitives) (reversePath : Text) (s : Session) : Option Reply :=
  match s.authenticated, Address.parse p.unicode reversePath with
  | some account, .ok address =>
    if s.directory.ownsAddress account address then none
    else some (.single 553 "5.7.1 sender address not owned by authenticated user")
  | some _, .error _ => some (.single 553 "5.1.7 invalid reverse-path")
  | none, .error _ =>
    if reversePath.isEmpty then none else some (.single 553 "5.1.7 invalid reverse-path")
  | none, .ok _ => none

/-- The submission limiter refuses an account. -/
def overLimit (env : Env) (s : Session) : Bool :=
  match s.authenticated with
  | some account =>
    s.sendLimiter && ((s.directory.submissionLimitFor account).or
      s.globalSubmissionRateLimitPerMin).any fun limit ↦ !env.limiterAdmits account limit
  | none => false

def mailFrom (p : Primitives) (env : Env) (reversePath : Text) (size : Option ℕ) (requireTls : Bool)
    (s : Session) : Step :=
  match s.state with
  | .greeted =>
    if requireTls && !s.tlsActive then
      (.reply (.single 530 "5.7.4 REQUIRETLS requires the session to use TLS"), s)
    else match s.refuseSender p reversePath with
      | some reply => (.reply reply, s)
      | none =>
        if s.overLimit env then
          (.reply (.single 450 "4.7.1 sending rate limit exceeded; retry later"), s)
        else if size.any (· > maxMessageSize) then
          (.reply (.single 552 "5.3.4 message exceeds maximum size"), s)
        else if s.diskGuard && !env.hasRoom then
          (.reply (.single 452 "4.3.1 insufficient system storage; retry later"), s)
        else (.reply .ok, { s with state := .receivingRecipients reversePath requireTls })
  | _ => (.reply .badSequence, s)

/-- Why a recipient is refused. Other servers' users are reached by authenticated users only. -/
def refuseRecipient (address : Address) (s : Session) : Option Reply :=
  match s.directory.resolve address with
  | .notLocal =>
    if s.authenticated.isNone then some (.single 550 "5.7.1 relaying denied") else none
  | .unknownUser => some (.single 550 "5.1.1 no such user")
  | .account _ => none
  | .alias _ => none

/-- A recipient asks for no report of a failure. -/
def suppressesDsn : Option Notify → Bool
  | some .never => true
  | some (.on _ failure _) => !failure
  | none => false

def rcptTo (p : Primitives) (forwardPath : Text) (notify : Option Notify) (s : Session) : Step :=
  match Address.parse p.unicode forwardPath with
  | .error _ => (.reply (.single 553 "5.1.3 invalid recipient address"), s)
  | .ok address =>
    match s.refuseRecipient address with
    | some reply => (.reply reply, s)
    | none =>
      let recipient := address.toText
      let noDsn := if suppressesDsn notify then [recipient] else []
      match s.state with
      | .receivingRecipients reversePath requireTls =>
        let transaction := ⟨reversePath, [recipient], noDsn, 0, [], requireTls, false⟩
        (.reply .ok, { s with state := .receivingData transaction })
      | .receivingData transaction =>
        -- once the message data have begun there are no more recipients
        if transaction.body.isEmpty && !transaction.chunking then
          if transaction.recipients.length ≥ maxRecipients then
            (.reply (.single 452 "4.5.3 too many recipients"), s)
          else (.reply .ok, { s with state := .receivingData { transaction with
              recipients := transaction.recipients ++ [recipient]
              noDsn := transaction.noDsn ++ noDsn } })
        else (.reply .badSequence, s)
      | _ => (.reply .badSequence, s)

def data (s : Session) : Step :=
  match s.state with
  | .receivingData transaction =>
    if transaction.body.isEmpty && !transaction.chunking then
      (.collectData .startMailInput, s)
    else (.reply .badSequence, s)
  | _ => (.reply .badSequence, s)

/-- Remove the dot that protects a line of data. -/
def unstuff : Bytes → Bytes
  | 0x2e :: content => content
  | line => line

/-- A line of data, which ends the message if it is a dot. No action means that more lines
follow. -/
def dataLine (line : Bytes) (s : Session) : Option Action × Session :=
  match s.state with
  | .receivingData transaction =>
    if line = [0x2e] then
      (some (if transaction.size > maxMessageSize then
          .reply (.single 552 "message exceeds maximum size")
        else .deliver .ok transaction.message), { s with state := .greeted })
    else
      let content := unstuff line
      let size := transaction.size + content.length + 2
      (none, { s with state := .receivingData { transaction with
        size
        body := if size ≤ maxMessageSize then transaction.body ++ content ++ [0x0d, 0x0a]
          else transaction.body } })
  | _ => (some (.reply .badSequence), s.reset)

/-- `BDAT`. The bytes are read in any case, so that they are not taken for commands, unless there
are too many. -/
def bdat (size : ℕ) (last : Bool) (s : Session) : Step :=
  if size > maxMessageSize then
    (.close (.single 552 "5.3.4 message exceeds maximum size"), s.reset)
  else (.collectChunk size last, s)

def bdatChunk (chunk : Bytes) (last : Bool) (s : Session) : Step :=
  match s.state with
  | .receivingData transaction =>
    let size := transaction.size + chunk.length
    let transaction :=
      { transaction with chunking := true, size, body := transaction.body ++ chunk }
    if size > maxMessageSize then
      (.reply (.single 552 "5.3.4 message exceeds maximum size"), { s with state := .greeted })
    else if last then (.deliver .ok transaction.message, { s with state := .greeted })
    else (.reply (.single 250 "2.0.0 chunk received"),
      { s with state := .receivingData transaction })
  | _ => (.reply .badSequence, s.reset)

/-- The TLS handshake is complete. What was learned before it is forgotten. -/
def tlsStarted (identity : Option Text) (s : Session) : Session :=
  { s with
    clientIdentity := identity
    state := .connected
    tlsAvailable := false
    tlsActive := true
    heloDomain := none
    esmtp := false }

/-! ## Command lines -/

def greeting (s : Session) : Reply := ⟨220, [s.hostname ++ " ESMTP ready".toList]⟩

def apply (p : Primitives) (env : Env) (command : Command) (s : Session) : Step :=
  match command with
  | .helo domain => s.greet domain false
  | .ehlo domain => s.greet domain true
  | .mailFrom reversePath size _ requireTls _ _ => s.mailFrom p env reversePath size requireTls
  | .rcptTo forwardPath notify _ => s.rcptTo p forwardPath notify
  | .data => s.data
  | .bdat size last => s.bdat size last
  | .rset => (.reply .ok, s.reset)
  | .noop => (.reply .ok, s)
  | .quit => (.close .closing, s)
  | .vrfy => (.reply .vrfyNotDisclosed, s)
  | .startTls => s.startTls
  | .auth mechanism initial => s.auth p env mechanism initial

def errorReply : ParseError → Reply
  | .unknownCommand => .syntaxError
  | .lineTooLong => .single 500 "5.5.2 line too long"
  | .invalidCharacters => .syntaxError
  | .invalidArguments => .invalidArguments
  | .unsupportedParameter => .single 555 "5.5.4 parameter not implemented"

def commandLine (p : Primitives) (env : Env) (line : Text) (s : Session) : Step :=
  match Command.parse line with
  | .ok command => s.apply p env command
  | .error error => (.reply (errorReply error), s)

end Session

end Smtp

end Epistle
