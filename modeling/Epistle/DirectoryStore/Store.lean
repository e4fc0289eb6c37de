import Epistle.Effects.Mirror
import Epistle.Smtp.Directory

/-!
# The stores behind the directory

Accounts come from the configuration, from the SQL and LDAP backends and from the API. The last ones
are dynamic: they are kept in `accounts.toml`. The directory is built of all of them and published,
and the calls that change dynamic accounts change the list in memory, write the file and publish
anew. App passwords and masked addresses have stores of their own.

A call is its checks, which come to a `Decision`, and what is done about it.
-/

namespace Epistle.DirectoryStore

open TextFormat Smtp Effects

structure Account where
  name : Text
  addresses : List Text
  passwordHash : Option Text
  /-- The domains whose unknown users the account receives for. -/
  catchAll : List Text
  /-- Where mail is sent on to. -/
  forward : List Text
  forwardKeepLocal : Bool
  allowedProtocols : Option (List Protocol)

structure DynamicAccount where
  name : Text
  addresses : List Text
  passwordHash : Text
  scram : Option ScramStored
  totpSecret : Option Text
  /-- The account is kept but must not sign in. -/
  disabled : Bool
  allowedProtocols : Option (List Protocol)

structure SqlAccount where
  name : Text
  addresses : List Text
  passwordHash : Option Text

structure LdapAccount where
  name : Text
  addresses : List Text

structure Alias where
  address : Text
  spec : AliasSpec

inductive StoreError
  | invalid (reason : Text)
  | duplicate (name : Text)
  | notFound (name : Text)
  | limitReached (max : ℕ)
  | io
  deriving DecidableEq

/-- What an account may be called. -/
def validateName (name : Text) : Except StoreError Unit :=
  if !name.isEmpty && utf8Len name ≤ 64 && (name.all fun c ↦ c.isLower || c.isDigit || c == '-') &&
      name.head? != some '-' then .ok ()
  else .error (.invalid ("account name \"".toList ++ name ++
    "\" must be lowercase alphanumeric/hyphen".toList))

def withSafeNames {α : Type} (accounts : List α) (nameOf : α → Text) : List α :=
  accounts.filter fun account ↦ (validateName (nameOf account)).toBool

/-! ## Masked addresses -/

structure MaskedAddress where
  address : Text
  account : Text
  label : Text
  createdAt : ℕ
  enabled : Bool
  lastUsedAt : Option ℕ
  deriving DecidableEq

/-- The masked addresses, by lower-case address. -/
structure MaskedAddressStore where
  entries : Mirrored (Table MaskedAddress)
  /-- The most that an account may have, or zero. -/
  maxPerAccount : ℕ

/-- The part of a masked address that comes from its label. -/
def slugifyLabel (label : Text) : Text :=
  let step (slug : Text × Bool) (c : Char) : Text × Bool :=
    if c.isAlphanum then (slug.1 ++ [c.toLower], false)
    else if !slug.2 then (slug.1 ++ ['-'], true)
    else slug
  ((label.foldl step ([], true)).1.reverse.dropWhile (· == '-')).reverse

namespace MaskedAddressStore

/-- The enabled addresses with their owners. -/
def enabled (store : MaskedAddressStore) : List (Text × Text) :=
  store.entries.memory.entries.filterMap fun entry ↦
    if entry.2.enabled then some (entry.2.address, entry.2.account) else none

def freshEntry (account slug label domain : Text) (now : ℕ) (suffix : Except Text Text) :
    Except StoreError MaskedAddress :=
  match suffix with
  | .error reason => .error (.invalid ("cannot generate random suffix: ".toList ++ reason))
  | .ok suffix => .ok
    { address := toAsciiLowercase (slug ++ '.' :: suffix ++ '@' :: domain)
      account
      label := trim label
      createdAt := now
      enabled := true
      lastUsedAt := none }

/-- The random suffixes are drawn by need. -/
def add (account label domain : Text) (now : ℕ) (suffix secondSuffix : Except Text Text)
    (store : MaskedAddressStore) : Decision (Table MaskedAddress) StoreError MaskedAddress :=
  let account := toAsciiLowercase account
  let slug := slugifyLabel label
  let current := (store.entries.memory.entries.filter fun entry ↦ entry.2.account == account).length
  let insert (entry : MaskedAddress) := store.entries.memory.insert entry.address entry
  if account.isEmpty then .refuse (.invalid "account is empty".toList)
  else if domain.isEmpty then .refuse (.invalid "domain is empty".toList)
  else if slug.isEmpty then
    .refuse (.invalid "label must contain at least one alphanumeric character".toList)
  else if store.maxPerAccount > 0 && current ≥ store.maxPerAccount then
    .refuse (.limitReached store.maxPerAccount)
  else match freshEntry account slug label domain now suffix with
    | .error error => .refuse error
    | .ok entry =>
      if (store.entries.memory.lookup entry.address).isNone then .change (insert entry) entry
      else match freshEntry account slug label domain now secondSuffix with
        | .error error => .refuse error
        | .ok entry =>
          if (store.entries.memory.lookup entry.address).isNone then .change (insert entry) entry
          else .refuse (.invalid "cannot generate a unique masked address".toList)

def owned (account address : Text) (store : MaskedAddressStore) : Except StoreError MaskedAddress :=
  match (store.entries.memory.lookup (toAsciiLowercase address)).filter fun entry ↦
      entry.account == toAsciiLowercase account with
  | none => .error (.notFound (toAsciiLowercase account ++ '/' :: address))
  | some entry => .ok entry

/-- The result is whether the address was enabled before. -/
def setEnabled (account address : Text) (enabled : Bool) (store : MaskedAddressStore) :
    Decision (Table MaskedAddress) StoreError Bool :=
  match store.owned account address with
  | .error error => .refuse error
  | .ok entry =>
    if entry.enabled = enabled then .keep entry.enabled
    else .change (store.entries.memory.insert (toAsciiLowercase address) { entry with enabled })
      entry.enabled

/-- The entry is removed under the address that it holds, not the one it was found under. -/
def remove (account address : Text) (store : MaskedAddressStore) :
    Decision (Table MaskedAddress) StoreError Unit :=
  match store.owned account address with
  | .error error => .refuse error
  | .ok entry => .change (store.entries.memory.erase entry.address) ()

end MaskedAddressStore

/-! ## App passwords -/

abbrev AppPasswordStore : Type := Mirrored (Table (List AppPassword))

namespace AppPasswordStore

/-- The network must be one that `Cidr::parse` reads. -/
def add (cidrOk : Text → Bool) (account : Text) (password : AppPassword)
    (store : AppPasswordStore) :
    Decision (Table (List AppPassword)) StoreError Unit :=
  match password.ipCidr.filter fun spec ↦ !cidrOk spec with
  | some spec => .refuse (.invalid ("invalid CIDR \"".toList ++ spec ++ ['"']))
  | none =>
    let list := (store.memory.lookup (toAsciiLowercase account)).getD []
    if list.any (·.label == password.label) then .refuse (.duplicate password.label)
    else .change (store.memory.insert (toAsciiLowercase account) (list ++ [password])) ()

def remove (account label : Text) (store : AppPasswordStore) :
    Decision (Table (List AppPassword)) StoreError Unit :=
  let account := toAsciiLowercase account
  match store.memory.lookup account with
  | none => .refuse (.notFound (account ++ '/' :: label))
  | some list =>
    let kept := list.filter (·.label != label)
    if kept.length = list.length then .refuse (.notFound (account ++ '/' :: label))
    else .change (if kept.isEmpty then
      store.memory.erase account else store.memory.insert account kept) ()

end AppPasswordStore

/-! ## The directory -/

/-- A table of pairs, of which the last one with a key counts. -/
def collect {α : Type} (pairs : List (Text × α)) : Table α :=
  pairs.foldl (fun table pair ↦ table.insert pair.1 pair.2) ∅

/-- A table with lower-case keys. -/
def collectLowercase {α : Type} (pairs : List (Text × α)) : Table α :=
  collect (pairs.map fun pair ↦ (toAsciiLowercase pair.1, pair.2))

def collectAppPasswords (pairs : List (Text × AppPassword)) : Table (List AppPassword) :=
  pairs.foldl (fun table pair ↦ table.insert (toAsciiLowercase pair.1)
    ((table.lookup (toAsciiLowercase pair.1)).getD [] ++ [pair.2])) ∅

structure AccountStore where
  domains : List Text
  domainAliases : List (Text × Text)
  staticAccounts : List Account
  /-- Messages per minute. -/
  domainSubmissionLimits : List (Text × ℕ)
  aliases : List Alias
  appPasswords : List (Text × AppPassword)
  dynamic : Mirrored (List DynamicAccount)
  sqlAccounts : List SqlAccount
  ldapAccounts : List LdapAccount
  ldapAuth : Option (Text → Text → Option Text)
  masked : MaskedAddressStore
  /-- The addresses of disabled aliases, in lower case. -/
  aliasesDisabled : List Text
  /-- The directory that servers read. -/
  published : Directory

namespace AccountStore

def addressAccounts (s : AccountStore) : List (Text × Text) :=
  (s.ldapAccounts.flatMap fun account ↦
    account.addresses.map fun address ↦ (address, account.name)) ++
    (s.sqlAccounts.flatMap fun account ↦
      account.addresses.map fun address ↦ (address, account.name)) ++
    (s.staticAccounts.flatMap fun account ↦
      account.addresses.map fun address ↦ (address, account.name)) ++
    s.dynamic.memory.flatMap fun account ↦
      account.addresses.map fun address ↦ (address, account.name)

def passwordHashes (s : AccountStore) : List (Text × Text) :=
  (s.sqlAccounts.filterMap fun account ↦ account.passwordHash.map fun hash ↦
    (account.name, hash)) ++
    (s.staticAccounts.filterMap fun account ↦ account.passwordHash.map fun hash ↦
      (account.name, hash)) ++
    s.dynamic.memory.map fun account ↦ (account.name, account.passwordHash)

def allowedProtocols (s : AccountStore) : List (Text × List Protocol) :=
  (s.staticAccounts.filterMap fun account ↦ account.allowedProtocols.map fun set ↦
    (account.name, set)) ++
    s.dynamic.memory.filterMap fun account ↦ account.allowedProtocols.map fun set ↦
      (account.name, set)

def totp (dynamic : List DynamicAccount) : Table Text :=
  collectLowercase (dynamic.filterMap fun account ↦
    account.totpSecret.map fun secret ↦ (account.name, secret))

def buildDirectory (s : AccountStore) : Directory where
  domains := s.domains.map toAsciiLowercase
  accountsByAddress := collectLowercase s.addressAccounts
  passwordHashes := collect s.passwordHashes
  subaddressSeparators := ['+']
  catchAll := collectLowercase (s.staticAccounts.flatMap fun account ↦
    account.catchAll.map fun domain ↦ (domain, account.name))
  domainAliases := collect (s.domainAliases.map fun pair ↦
    (toAsciiLowercase pair.1, toAsciiLowercase pair.2))
  scram := collectLowercase (s.dynamic.memory.filterMap fun account ↦
    account.scram.map fun stored ↦ (account.name, stored))
  totp := totp s.dynamic.memory
  disabled := (s.dynamic.memory.filter (·.disabled)).map fun account ↦ toAsciiLowercase account.name
  domainSubmissionLimits := collectLowercase s.domainSubmissionLimits
  aliases := collectLowercase ((s.aliases.filter fun entry ↦
    !s.aliasesDisabled.contains (toAsciiLowercase entry.address)).map fun entry ↦
      (entry.address, entry.spec))
  appPasswords := collectAppPasswords s.appPasswords
  ldap := s.ldapAuth
  maskedByAddress := collectLowercase s.masked.enabled
  allowedProtocols := collectLowercase s.allowedProtocols
  forwards := collectLowercase ((s.staticAccounts.filter (!·.forward.isEmpty)).map fun account ↦
    (account.name, (account.forward, account.forwardKeepLocal)))

def publish (s : AccountStore) : AccountStore := { s with published := s.buildDirectory }

/-! ## The calls -/

def taken (known addresses : List Text) : Option Text :=
  addresses.find? fun raw ↦ (known.map toAsciiLowercase).contains (toAsciiLowercase raw)

/-- The addresses of an account that is to be added. -/
def validateAddresses (u : Unicode) (domains : List Text) : List Text → Except StoreError Unit
  | [] => .ok ()
  | raw :: rest =>
    match Address.parse u raw with
    | .error _ => .error (.invalid ("invalid address ".toList ++ raw))
    | .ok address =>
      if domains.any fun domain ↦ eqIgnoreAsciiCase domain address.domain then
        validateAddresses u domains rest
      else .error (.invalid
        ("address ".toList ++ raw ++ " is not in a configured domain".toList))

abbrev Accounts : Type := List DynamicAccount

def add (u : Unicode) (account : DynamicAccount) (s : AccountStore) :
    Decision Accounts StoreError Unit :=
  match validateName account.name with
  | .error error => .refuse error
  | .ok () =>
    if account.addresses.isEmpty then .refuse (.invalid "addresses must not be empty".toList)
    else match validateAddresses u s.domains account.addresses with
      | .error error => .refuse error
      | .ok () =>
        if (s.staticAccounts.map (·.name) ++
          s.dynamic.memory.map (·.name)).contains account.name then
          .refuse (.duplicate account.name)
        else match taken (s.staticAccounts.flatMap (·.addresses) ++
            s.dynamic.memory.flatMap (·.addresses)) account.addresses with
          | some raw => .refuse (.duplicate raw)
          | none => .change (s.dynamic.memory ++ [account]) ()

def remove (name : Text) (s : AccountStore) : Decision Accounts StoreError Unit :=
  let kept := s.dynamic.memory.filter (·.name != name)
  if kept.length = s.dynamic.memory.length then .refuse (.notFound name)
  else .change kept ()

def update {β : Type} (name : Text) (f : DynamicAccount → DynamicAccount)
    (result : DynamicAccount → β) (s : AccountStore) : Decision Accounts StoreError β :=
  match s.dynamic.memory.find? (·.name == name) with
  | none => .refuse (.notFound name)
  | some account =>
    .change (s.dynamic.memory.modify (s.dynamic.memory.findIdx (·.name == name)) f) (result account)

def setPasswordHash (name hash : Text) (scram : Option ScramStored) (s : AccountStore) :
    Decision Accounts StoreError Unit :=
  s.update name (fun account ↦ { account with passwordHash := hash, scram }) fun _ ↦ ()

def setTotp (name : Text) (secret : Option Text) (s : AccountStore) :
    Decision Accounts StoreError Unit :=
  s.update name (fun account ↦ { account with totpSecret := secret }) fun _ ↦ ()

/-- The result is whether the account was disabled before. -/
def setDisabled (name : Text) (disabled : Bool) (s : AccountStore) :
    Decision Accounts StoreError Bool :=
  s.update name (fun account ↦ { account with disabled }) (·.disabled)

/-- The addresses of the account that is replaced may be used again. They are not checked
otherwise. -/
def replaceAccount (name : Text) (replacement : DynamicAccount) (s : AccountStore) :
    Decision Accounts StoreError Unit :=
  let slot := s.dynamic.memory.findIdx (·.name == name)
  if slot = s.dynamic.memory.length then .refuse (.notFound name)
  else match taken (s.staticAccounts.flatMap (·.addresses) ++
      (s.dynamic.memory.eraseIdx slot).flatMap (·.addresses)) replacement.addresses with
    | some raw => .refuse (.duplicate raw)
    | none => .change (s.dynamic.memory.set slot { replacement with name }) ()

/-- Carry out a decision about the dynamic accounts, and publish the directory if the call does. -/
def mutate {β : Type} (publishes : Bool) (fault : Option StoreError)
    (decision : Decision Accounts StoreError β) (s : AccountStore) :
      Except StoreError β × AccountStore :=
  match s.dynamic.mutate fault decision with
  | (.error error, dynamic) => (.error error, { s with dynamic })
  | (.ok result, dynamic) =>
    (.ok result, if publishes then { s with dynamic }.publish else { s with dynamic })

def setSqlAccounts (accounts : List SqlAccount) (s : AccountStore) : AccountStore :=
  { s with sqlAccounts := withSafeNames accounts (·.name) }.publish

def setLdapAccounts (accounts : List LdapAccount) (s : AccountStore) : AccountStore :=
  { s with ldapAccounts := withSafeNames accounts (·.name) }.publish

end AccountStore

end Epistle.DirectoryStore
