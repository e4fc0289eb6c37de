import Epistle.Smtp.Address

/-!
# SCRAM-SHA-256 on the server's side

The exchange has two rounds. The client's first message names the user and a nonce, and the server
answers with its own nonce, the salt and the iteration count. The client's final message proves
knowledge of the password; the server checks the proof against the stored key and answers with its
own signature. On TLS the exchange may be bound to the server's certificate.

Hashes, MACs and the base64 alphabet are functions of `Primitives`.
-/

namespace Epistle.Smtp

open TextFormat

inductive IpAddr
  | v4 (bits : BitVec 32)
  | v6 (bits : BitVec 128)
  deriving DecidableEq, Repr

/-- What libraries compute for the server. -/
structure Primitives where
  unicode : Unicode
  /-- `base64::STANDARD.decode` -/
  base64Decode : Text → Option Bytes
  /-- `base64::STANDARD.encode` -/
  base64Encode : Bytes → Text
  /-- `String::from_utf8_lossy` -/
  fromUtf8Lossy : Bytes → Text
  hmacSha256 : Bytes → Bytes → Bytes
  sha256 : Bytes → Bytes
  /-- Whether a password has the given argon2id hash. -/
  verifyPassword : Text → Text → Bool
  /-- `totp::decode_base32_secret` -/
  decodeBase32Secret : Text → Option Bytes
  /-- `totp::verify`, of a secret, a code and a time. -/
  totpVerify : Bytes → ℕ → ℕ → Bool
  /-- Whether an address is in the network that a text denotes, if it denotes one. -/
  cidrContains : Text → IpAddr → Bool

/-- Primitives that hide nothing: texts stand for their own encodings and hashes, and a code is
valid at the second that it names. -/
def Primitives.plain : Primitives where
  unicode := .ascii
  base64Decode := fun t ↦ some (encodeUtf8 t)
  base64Encode := fun bytes ↦ (decodeUtf8 bytes).getD []
  fromUtf8Lossy := fun bytes ↦ (decodeUtf8 bytes).getD []
  hmacSha256 := fun _ _ ↦ []
  sha256 := id
  verifyPassword := fun hash password ↦ hash == password
  decodeBase32Secret := fun t ↦ some (encodeUtf8 t)
  totpVerify := fun _ code now ↦ code == now
  cidrContains := fun _ _ ↦ false

structure ScramCredentials where
  salt : Bytes
  iterations : ℕ
  storedKey : Bytes
  serverKey : Bytes

/-- Credentials as they are stored, in base64. -/
structure ScramStored where
  salt : Text
  iterations : ℕ
  storedKey : Text
  serverKey : Text

def decodeKey (p : Primitives) (encoded : Text) : Option Bytes :=
  (p.base64Decode encoded).filter fun key ↦ key.length == 32

/-- Reconstruct credentials, unless a field is malformed. -/
def ScramStored.toCredentials (p : Primitives) (stored : ScramStored) :
    Option ScramCredentials := do
  let storedKey ← decodeKey p stored.storedKey
  let serverKey ← decodeKey p stored.serverKey
  let salt ← p.base64Decode stored.salt
  pure { salt, iterations := stored.iterations, storedKey, serverKey }

inductive ScramError
  | malformed
  | authenticationFailed
  deriving DecidableEq, Repr

/-- Whether an exchange is bound to the server's certificate. -/
inductive ChannelBinding
  | unsupported
  /-- Binding is offered, and the client has chosen the mechanism without. -/
  | supported
  /-- The client must bind to this data. -/
  | required (data : Bytes)

structure ScramServer where
  serverNonce : Text
  channelBinding : ChannelBinding
  clientFirstBare : Option Text
  serverFirst : Option Text
  combinedNonce : Option Text
  gs2Header : Option Text

def ScramServer.new (serverNonce : Text) (channelBinding : ChannelBinding) : ScramServer :=
  ⟨serverNonce, channelBinding, none, none, none, none⟩

/-- Everything after the `n`-th comma. -/
def nthCommaRest (text : Text) : ℕ → Option Text
  | 0 => some text
  | n + 1 => (splitOnce ',' text).bind fun parts ↦ nthCommaRest parts.2 n

def stripStart (beginning t : Text) : Option Text :=
  if beginning.isPrefixOf t then some (t.drop beginning.length) else none

/-- The value of an attribute, up to the next comma. -/
def tag (message : Text) (key : String) : Option Text :=
  (message.splitOn ',').findSome? (stripStart key.toList)

/-- The user that a client-first message names. -/
def usernameOf (clientFirst : Text) : Option Text :=
  (nthCommaRest clientFirst 2).bind fun bare ↦ tag bare "n="

/-- The text before the last occurrence of `pattern`. -/
def beforeLast (pattern t : Text) : Option Text :=
  ((List.range (t.length + 1)).reverse.find? fun i ↦ pattern.isPrefixOf (t.drop i)).map t.take

namespace ScramServer

/-- The client's claim about binding fits the exchange. -/
def flagOk : ChannelBinding → Text → Bool
  | .unsupported, _ => true
  | .supported, flag => flag == "n".toList
  | .required _, flag => flag == "p=tls-server-end-point".toList

/-- The client-first message. Returns the user, and the server-first message to send back. -/
def first (p : Primitives) (clientFirst : Text) (credentials : ScramCredentials)
    (server : ScramServer) : Except ScramError (Text × Text) × ScramServer :=
  match nthCommaRest clientFirst 2 with
  | none => (.error .malformed, server)
  | some bare =>
    if !flagOk server.channelBinding ((clientFirst.splitOn ',').headD []) then
      (.error .malformed, server)
    else match tag bare "n=", tag bare "r=" with
      | some username, some clientNonce =>
        let combinedNonce := clientNonce ++ server.serverNonce
        let serverFirst := "r=".toList ++ combinedNonce ++ ",s=".toList ++
          p.base64Encode credentials.salt ++ ",i=".toList ++ decimal credentials.iterations
        (.ok (username, serverFirst),
          { server with
            clientFirstBare := some bare
            serverFirst := some serverFirst
            combinedNonce := some combinedNonce
            gs2Header := some (clientFirst.take (clientFirst.length - bare.length)) })
      | _, _ => (.error .malformed, server)

/-- The client repeats what it was told about binding. -/
def bindingOk (p : Primitives) (clientFinal : Text) (server : ScramServer) : Bool :=
  let echoes (data : Bytes) : Bool :=
    match server.gs2Header, (tag clientFinal "c=").bind p.base64Decode with
    | some gs2Header, some cbind => cbind == encodeUtf8 gs2Header ++ data
    | _, _ => false
  match server.channelBinding with
  | .unsupported => true
  | .supported => echoes []
  | .required data => echoes data

/-- The client-final message. Returns the server-final message, if the proof is right. -/
def finish (p : Primitives) (clientFinal : Text) (credentials : ScramCredentials)
    (server : ScramServer) : Except ScramError Text :=
  match server.clientFirstBare, server.serverFirst, server.combinedNonce with
  | some clientFirstBare, some serverFirst, some combinedNonce =>
    if tag clientFinal "r=" != some combinedNonce then .error .malformed
    else if !server.bindingOk p clientFinal then .error .malformed
    else match (tag clientFinal "p=").bind (decodeKey p), beforeLast ",p=".toList clientFinal with
      | some proof, some withoutProof =>
        let authMessage := encodeUtf8
          (clientFirstBare ++ ',' :: (serverFirst ++ ',' :: withoutProof))
        let clientKey := proof.zipWith (· ^^^ ·) (p.hmacSha256 credentials.storedKey authMessage)
        if p.sha256 clientKey == credentials.storedKey then
          .ok ("v=".toList ++ p.base64Encode (p.hmacSha256 credentials.serverKey authMessage))
        else .error .authenticationFailed
      | _, _ => .error .malformed
  | _, _, _ => .error .malformed

end ScramServer

end Epistle.Smtp
