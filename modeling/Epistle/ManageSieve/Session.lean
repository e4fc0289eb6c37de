import Epistle.Smtp.Session

/-!
# ManageSieve sessions

A client signs in with SASL PLAIN, inside TLS only, and then manages the scripts of its account. The
session takes parsed commands. What the script store answers is a function of the backend.
-/

namespace Epistle.ManageSieve

open TextFormat

inductive ScriptCommand
  | listScripts
  | setActive (name : Text)
  | getScript (name : Text)
  | deleteScript (name : Text)
  | renameScript (source target : Text)
  | haveSpace (name : Text) (size : ℕ)
  | putScript (name content : Text)
  | checkScript (content : Text)

inductive Command
  | capability
  | startTls
  | logout
  | noop (tag : Option Text)
  | authenticate (mechanism : Text) (initial : Option Text)
  | unauthenticate
  | script (command : ScriptCommand)

inductive Response
  | ok (message : Option Text)
  | no (message : Option Text)
  | noCode (code message : Text)
  /-- The connection closes. -/
  | bye (message : Text)
  | lines (lines : List Text) (ok : Text)
  | script (content : Text)
  /-- The connection is upgraded to TLS. -/
  | startTls
  deriving DecidableEq, Repr

/-- What a session works with. -/
structure Backend where
  verify : Text → Text → Option Text
  /-- What the script store of an account answers. -/
  answer : Text → ScriptCommand → Response

def maxAuthFailures : ℕ := 3

/-- The extensions that scripts may use. -/
def sieveExtensions : Text :=
  ("fileinto envelope vacation imap4flags relational variables reject ereject copy body date " ++
    "comparator-i;ascii-numeric").toList

def quoted (value : Text) : Text :=
  '"' :: (value.flatMap fun c ↦ if c = '"' ∨ c = '\\' then ['\\', c] else [c]) ++ ['"']

structure Session where
  tls : Bool
  account : Option Text
  authFailures : ℕ

namespace Session

def new (tls : Bool) : Session := ⟨tls, none, 0⟩

def setTls (s : Session) : Session := { s with tls := true }

def capabilities (s : Session) : List Text :=
  [quoted "IMPLEMENTATION".toList ++ ' ' :: quoted "epistle".toList,
    quoted "SIEVE".toList ++ ' ' :: quoted sieveExtensions,
    quoted "VERSION".toList ++ ' ' :: quoted "1.0".toList,
    if s.tls then quoted "SASL".toList ++ ' ' :: quoted "PLAIN".toList
    else quoted "STARTTLS".toList]

abbrev Step : Type := Response × Session

def authenticate (p : Smtp.Primitives) (backend : Backend) (mechanism : Text)
    (initial : Option Text) (s : Session) : Step :=
  if s.account.isSome then (.no (some "Already authenticated.".toList), s)
  else if !s.tls then (.noCode "ENCRYPT-NEEDED".toList "TLS is required first.".toList, s)
  else if !eqIgnoreAsciiCase mechanism "PLAIN".toList then
    (.no (some "Only SASL PLAIN is supported.".toList), s)
  else match (initial.bind (Smtp.parsePlain p)).bind fun credentials ↦
      backend.verify credentials.1 credentials.2 with
    | some account => (.ok (some "Authenticated.".toList),
        { s with account := some account, authFailures := 0 })
    | none =>
      let authFailures := min (s.authFailures + 1) 255
      (if authFailures ≥ maxAuthFailures then .bye "Too many authentication failures.".toList
        else .no (some "Authentication failed.".toList), { s with authFailures })

def handle (p : Smtp.Primitives) (backend : Backend) (command : Command) (s : Session) : Step :=
  match command with
  | .capability => (.lines s.capabilities "Capabilities follow.".toList, s)
  | .logout => (.bye "Goodbye.".toList, s)
  | .noop tag => (.ok tag, s)
  | .startTls => (if s.tls then .no (some "Already using TLS.".toList) else .startTls, s)
  | .authenticate mechanism initial => s.authenticate p backend mechanism initial
  | .unauthenticate =>
    if s.account.isSome then (.ok none, { s with account := none })
    else (.no (some "Not authenticated.".toList), s)
  | .script command =>
    match s.account with
    | none => (.no (some "Authenticate first.".toList), s)
    | some account => (backend.answer account command, s)

end Session

def verify (p : Smtp.Primitives) (now : ℕ) (directory : Smtp.Directory) (authcid password : Text) :
    Option Text :=
  directory.authenticateWithIp p now authcid password none .manageSieve

end Epistle.ManageSieve
