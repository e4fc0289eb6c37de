import Epistle.Smtp.Directory

/-!
# The authorization server

Two grants give out access tokens. In the device flow a client gets a device code and a user code; a
user approves the user code with their credentials, and the client, which asks again and again with
its device code, gets a token for that user. In the authorization code flow a user authenticates for
a code and a challenge, and whoever redeems the code must know the verifier that the challenge was
made from.

Requests come with their fields as `parse_fields` has read them, and with the text of their
`Authorization` header. Random codes come from outside, as does the time. Hashes, base64 and the
signing of tokens are parameters.
-/

namespace Epistle.Oauth

open TextFormat Smtp

/-- How long a grant is valid, in seconds. -/
def codeTtlSecs : ℕ := 600

/-- How long a client has to wait before it asks again. -/
def pollIntervalSecs : ℕ := 5

/-- How long a token is valid. -/
def accessTokenTtlSecs : ℕ := 3600

structure Claims where
  sub : Text
  iss : Text
  aud : Text
  iat : ℕ
  exp : ℕ
  deriving DecidableEq

/-- What libraries compute for the server. -/
structure Crypto where
  primitives : Primitives
  /-- `URL_SAFE_NO_PAD.encode` -/
  base64Url : Bytes → Text
  /-- `jwt::sign` with the server's key, unless it fails. -/
  sign : Claims → Option Text

/-- `BASE64URL(SHA256(code_verifier))` -/
def Crypto.s256 (crypto : Crypto) (verifier : Text) : Text :=
  crypto.base64Url (crypto.primitives.sha256 (encodeUtf8 verifier))

structure DeviceGrant where
  userCode : Text
  approvedAccount : Option Text
  expiresAt : ℕ
  nextPollAt : ℕ
  deriving DecidableEq

structure AuthCode where
  account : Text
  codeChallenge : Text
  expiresAt : ℕ
  deriving DecidableEq

structure AuthzServer where
  issuer : Text
  audience : Text
  devices : Table DeviceGrant
  codes : Table AuthCode

inductive Response
  | error (code : Text)
  | device (deviceCode userCode verificationUri verificationUriComplete : Text)
    (expiresIn interval : ℕ)
  | approved
  | code (code : Text) (state : Option Text)
  | token (accessToken : Text) (expiresIn : ℕ)
  deriving DecidableEq

def oauthError (code : String) : Response := .error code.toList

abbrev Fields : Type := Table Text

/-- The value of a field; one that is not there is empty. -/
def field (fields : Fields) (name : String) : Text := (fields.lookup name.toList).getD []

abbrev Step : Type := Response × AuthzServer

/-- The login and the password in an `Authorization` header. -/
def basicAuth (p : Primitives) (authorization : Option Text) : Option (Text × Text) := do
  let value ← authorization.bind (stripStart "Basic ".toList)
  let text ← (p.base64Decode value).bind decodeUtf8
  splitOnce ':' text

/-- The login and the password of a request. -/
def accountCredentials (p : Primitives) (authorization : Option Text) (fields : Fields) :
    Option (Text × Text) :=
  match fields.lookup "login".toList, fields.lookup "password".toList with
  | some login, some password => some (login, password)
  | _, _ => basicAuth p authorization

/-- Whom a request authenticates. -/
def authenticated (p : Primitives) (now : ℕ) (directory : Directory) (authorization : Option Text)
    (fields : Fields) : Option Text :=
  (accountCredentials p authorization fields).bind fun credentials ↦
    directory.authenticateWithIp p now credentials.1 credentials.2 none .api

namespace AuthzServer

def issueToken (crypto : Crypto) (account : Text) (now : ℕ) (server : AuthzServer) : Option Text :=
  crypto.sign ⟨account, server.issuer, server.audience, now, now + accessTokenTtlSecs⟩

/-- `POST /oauth/device_authorization`: begin a device flow. -/
def deviceAuthorization (fields : Fields) (deviceCode userCode : Option Text) (now : ℕ)
    (server : AuthzServer) : Step :=
  if field fields "client_id" = [] then (oauthError "invalid_request", server)
  else match deviceCode, userCode with
    | some deviceCode, some userCode =>
      let uri := "/oauth/device/approve".toList
      (.device deviceCode userCode uri (uri ++ "?user_code=".toList ++ userCode) codeTtlSecs
          pollIntervalSecs,
        { server with
          devices := server.devices.insert deviceCode ⟨userCode, none, now + codeTtlSecs, now⟩ })
    | _, _ => (oauthError "server_error", server)

def findGrant (userCode : Text) (now : ℕ) (server : AuthzServer) : Option (Text × DeviceGrant) :=
  (server.devices.entries.find? fun entry ↦
    entry.2.userCode == userCode && now < entry.2.expiresAt).map fun entry ↦ (entry.1, entry.2)

def deviceApprove (fields : Fields) (account : Option Text) (now : ℕ)
    (server : AuthzServer) : Step :=
  match server.findGrant (field fields "user_code") now, account with
  | some (deviceCode, grant), some account =>
    (.approved,
      { server with
        devices :=
          server.devices.insert deviceCode { grant with approvedAccount := some account } })
  | _, _ => (oauthError "invalid_grant", server)

def redeemDeviceCode (crypto : Crypto) (deviceCode : Text) (now : ℕ)
    (server : AuthzServer) : Step :=
  match server.devices.lookup deviceCode with
  | none => (oauthError "invalid_grant", server)
  | some grant =>
    let consumed := { server with devices := server.devices.erase deviceCode }
    let polled := { server with
      devices :=
        server.devices.insert deviceCode { grant with nextPollAt := now + pollIntervalSecs } }
    if grant.expiresAt ≤ now then (oauthError "expired_token", consumed)
    else if now < grant.nextPollAt then (oauthError "slow_down", polled)
    else match grant.approvedAccount with
      | none => (oauthError "authorization_pending", polled)
      | some account =>
        match server.issueToken crypto account now with
        | some token => (.token token accessTokenTtlSecs, consumed)
        | none => (oauthError "server_error", consumed)

/-- `POST /oauth/authorize`: issue a code for the account and the challenge. -/
def authorize (fields : Fields) (account : Option Text) (code : Option Text) (now : ℕ)
    (server : AuthzServer) : Step :=
  let challenge := field fields "code_challenge"
  if fields.lookup "code_challenge_method".toList ≠ some "S256".toList then
    (oauthError "invalid_request", server)
  else if challenge = [] ∨ field fields "client_id" = [] then (oauthError "invalid_request", server)
  else match account with
    | none => (oauthError "invalid_grant", server)
    | some account =>
      match code with
      | none => (oauthError "server_error", server)
      | some code =>
        (.code code (fields.lookup "state".toList),
          { server with codes := server.codes.insert code ⟨account, challenge, now + codeTtlSecs⟩ })

/-- Redeem an authorization code. It is consumed whatever the verifier. -/
def redeemAuthorizationCode (crypto : Crypto) (fields : Fields) (now : ℕ)
    (server : AuthzServer) : Step :=
  let code := field fields "code"
  let verifier := field fields "code_verifier"
  if code = [] ∨ verifier = [] then (oauthError "invalid_request", server)
  else
    let consumed := { server with codes := server.codes.erase code }
    match server.codes.lookup code with
    | none => (oauthError "invalid_grant", consumed)
    | some stored =>
      if stored.expiresAt ≤ now then (oauthError "invalid_grant", consumed)
      else if crypto.s256 verifier ≠ stored.codeChallenge then
        (oauthError "invalid_grant", consumed)
      else match server.issueToken crypto stored.account now with
        | some token => (.token token accessTokenTtlSecs, consumed)
        | none => (oauthError "server_error", consumed)

def deviceCodeGrant : Text :=
  ["urn:ietf:params:".toList, "oauth:grant-type:".toList, "device_code".toList].flatten

def token (crypto : Crypto) (fields : Fields) (now : ℕ) (server : AuthzServer) : Step :=
  let grantType := fields.lookup "grant_type".toList
  if grantType = some deviceCodeGrant then
    if field fields "device_code" = [] then (oauthError "invalid_request", server)
    else server.redeemDeviceCode crypto (field fields "device_code") now
  else if grantType = some "authorization_code".toList then
    server.redeemAuthorizationCode crypto fields now
  else (oauthError "unsupported_grant_type", server)

end AuthzServer

end Epistle.Oauth
