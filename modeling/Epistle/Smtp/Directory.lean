import Epistle.Smtp.Scram

/-!
# The directory of accounts

The directory says which account receives an address, which addresses an account may send as, and
who may sign in. Recipients go through the account addresses, multi-target aliases, masked
addresses, sub-addressing and the domain's catch-all, in this order. A password is checked against
the account's hash, with a one-time code if the account has a secret for it, then against its app
passwords, then by LDAP.
-/

namespace Epistle.Smtp

open TextFormat

variable (p : Primitives) (directory : Directory) (account : Text)

inductive Resolution
  /-- The domain is not served here. -/
  | notLocal
  /-- No account owns the address. -/
  | unknownUser
  | account (account : Text)
  /-- A multi-target alias that delivers to these accounts. -/
  | alias (accounts : List Text)
  deriving DecidableEq, Repr

structure AliasSpec where
  members : List Text
  /-- The addresses that may send as the alias; if there are none, any member may. -/
  senders : List Text
  listId : Option Text

/-- The service that a client signs in to. -/
inductive Protocol
  | smtp
  | submission
  | submissions
  | api
  | imaps
  | imap
  | pop3s
  | manageSieve
  | webDav
  deriving DecidableEq, Repr

structure AppPassword where
  label : Text
  hash : Text
  expiresAt : Option ℕ
  ipCidr : Option Text

/-- Whether a password is the app password, not expired, and comes from where it may. -/
def AppPassword.admits (password : Text) (clientIp : Option IpAddr) (now : ℕ)
    (app : AppPassword) : Bool :=
  p.verifyPassword app.hash password && (app.expiresAt.all fun expiry ↦ now < expiry) &&
    app.ipCidr.all fun spec ↦ clientIp.any fun ip ↦ p.cidrContains spec ip

abbrev Table (α : Type) : Type := AList fun _ : Text ↦ α

/-- The directory. Domains, addresses and names are stored in lower case. -/
structure Directory where
  domains : List Text
  accountsByAddress : Table Text
  passwordHashes : Table Text
  /-- What separates a user from a tag in the local part of an address. -/
  subaddressSeparators : List Char
  catchAll : Table Text
  domainAliases : Table Text
  scram : Table ScramStored
  totp : Table Text
  disabled : List Text
  domainSubmissionLimits : Table ℕ
  aliases : Table AliasSpec
  appPasswords : Table (List AppPassword)
  /-- Live LDAP authentication, of a login and a password. -/
  ldap : Option (Text → Text → Option Text)
  maskedByAddress : Table Text
  allowedProtocols : Table (List Protocol)
  /-- Where the mail of an account is sent on to, and whether it is kept as well. -/
  forwards : Table (List Text × Bool)

namespace Directory

def empty : Directory :=
  ⟨[], ∅, ∅, ['+'], ∅, ∅, ∅, ∅, [], ∅, ∅, ∅, none, ∅, ∅, ∅⟩

/-- The address without its tag, if it has one. -/
def stripSubaddress (localPart domain : Text) : Option Text :=
  match (directory.subaddressSeparators.filterMap fun separator ↦
    localPart.idxOf? separator).min? with
  | none => none
  | some cut =>
    if cut = 0 then none
    else some (toAsciiLowercase (localPart.take cut ++ '@' :: domain))

def resolve (address : Address) : Resolution :=
  let domain := (directory.domainAliases.lookup address.domain).getD address.domain
  if !directory.domains.contains domain then .notLocal
  else
    let key := toAsciiLowercase (address.localPart ++ '@' :: domain)
    match directory.accountsByAddress.lookup key with
    | some account => .account account
    | none =>
      match directory.aliases.lookup key with
      | some spec => .alias (spec.members.filterMap fun member ↦
          directory.accountsByAddress.lookup (toAsciiLowercase member))
      | none =>
        match directory.maskedByAddress.lookup key with
        | some account => .account account
        | none =>
          match (directory.stripSubaddress address.localPart domain).bind fun base ↦
              directory.accountsByAddress.lookup base with
          | some account => .account account
          | none =>
            match directory.catchAll.lookup domain with
            | some account => .account account
            | none => .unknownUser

def ownsAddress (address : Address) : Bool :=
  let key := toAsciiLowercase address.toText
  match directory.accountsByAddress.lookup key with
  | some owner => owner == account
  | none =>
    match directory.aliases.lookup key with
    | some spec =>
      (if spec.senders.isEmpty then spec.members else spec.senders).any fun sender ↦
        directory.accountsByAddress.lookup (toAsciiLowercase sender) == some account
    | none =>
      match directory.maskedByAddress.lookup key with
      | some owner => owner == account
      | none => false

/-- Whether an account may sign in to a service. -/
def isProtocolAllowed (protocol : Protocol) : Bool :=
  (directory.allowedProtocols.lookup (toAsciiLowercase account)).all (·.contains protocol)

def accountOf (login : Text) : Option Text :=
  match Address.parse p.unicode login with
  | .error _ => none
  | .ok address =>
    match directory.resolve address with
    | .account account => some account
    | _ => none

def credentials (login : Text) : Option (Text × Text) := do
  let account ← if login.contains '@' then directory.accountOf p login
    else some (toAsciiLowercase login)
  let hash ← directory.passwordHashes.lookup account
  pure (account, hash)

def scramCredentials (login : Text) :
    Option ScramCredentials := do
  let account ← if login.contains '@' then directory.accountOf p login
    else some (toAsciiLowercase login)
  let stored ← directory.scram.lookup account
  stored.toCredentials p

/-- Check the one-time code at the end of a password and remove it. -/
def totpStrip (now : ℕ) (password secret : Text) : Option Text :=
  let code := password.drop (password.length - 6)
  if utf8Len password < 7 || code.length != 6 || !code.all Char.isDigit then none
  else do
    let digits ← parseDecimal code
    let secretBytes ← p.decodeBase32Secret secret
    if p.totpVerify secretBytes digits now then some (password.take (password.length - 6)) else none

/-- Check a password against the account's own hash, then against its app passwords. -/
def authenticateLocal (now : ℕ) (login password : Text) (ip : Option IpAddr)
    (directory : Directory) : Option Text :=
  match directory.credentials p login with
  | none => none
  | some (account, hash) =>
    if directory.disabled.contains account then none
    else
      let primary := match directory.totp.lookup account with
        | some secret => totpStrip p now password secret
        | none => some password
      if primary.any (p.verifyPassword hash) then some account
      else if ((directory.appPasswords.lookup account).getD []).any
        (·.admits p password ip now) then
        some account
      else none

def authenticateWithIp (now : ℕ) (login password : Text) (ip : Option IpAddr)
    (protocol : Protocol) (directory : Directory) : Option Text :=
  let account := (directory.authenticateLocal p now login password ip).or
    (directory.ldap.bind fun ldap ↦ ldap login password)
  account.filter fun account ↦ directory.isProtocolAllowed account protocol

/-- Where the mail of an account is sent on to. -/
def forwardsOf : Option (List Text × Bool) :=
  directory.forwards.lookup (toAsciiLowercase account)

def listHeaders (address : Text) : Option Text := do
  let spec ← directory.aliases.lookup (toAsciiLowercase address)
  let listId ← spec.listId
  pure ("List-Id: <".toList ++ listId ++ ">\r\nList-Post: <mailto:".toList ++ address ++
    ">\r\nList-Unsubscribe: <mailto:".toList ++ address ++ "?subject=unsubscribe>\r\n".toList)

/-- The submission limit of the account's domain, in messages per minute. -/
def submissionLimitFor : Option ℕ :=
  directory.accountsByAddress.entries.findSome? fun entry ↦
    if eqIgnoreAsciiCase entry.2 account then
      (rsplitOnce '@' entry.1).bind fun parts ↦ directory.domainSubmissionLimits.lookup parts.2
    else none

end Directory

end Epistle.Smtp
