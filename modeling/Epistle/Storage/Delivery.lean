import Epistle.Effects.Filing
import Epistle.Imap.Account
import Epistle.Smtp.Session

/-!
# Local delivery

A message is delivered to the accounts that its recipients resolve to, one copy each. A mailbox that
an administrator's rule or a quarantine names comes first; else the account's Sieve filter decides,
and without a filter the message goes to the INBOX. Filters and the forwards of an account may send
the message on: that is for the caller to do, who has the outbound spool.

A delivery files copies away, one after the other, and stops at the first that cannot be stored.
-/

namespace Epistle

open TextFormat
open Smtp (AcceptedMessage)

namespace Sieve

/-- An autoresponse that a filter asks for. -/
structure VacationRequest where
  reason : Text
  subject : Option Text
  sender : Option Text
  days : ℕ
  deriving DecidableEq

/-- What a filter decides about a message. -/
structure Outcome where
  /-- Deliver to the INBOX. -/
  keep : Bool
  fileinto : List Text
  redirects : List Text
  flags : List Text
  /-- Refuse the message, with a reason. -/
  reject : Option Text
  vacation : Option VacationRequest
  deriving DecidableEq

end Sieve

namespace Storage

open Effects

inductive SinkError
  /-- A recipient cannot be read. -/
  | unparseable (recipient : Text)
  /-- A recipient does not resolve any more. -/
  | unresolved (recipient : Text)
  | unsafeMailbox (name : Text)
  | noAccounts
  /-- The file system's reason. -/
  | storage (reason : Text)
  /-- The program panics. -/
  | panicked
  deriving DecidableEq, Repr

inductive Purpose
  | bounce
  /-- A message that a filter or a forward sends on. -/
  | redirect
  /-- An autoresponse. -/
  | reply
  /-- A report on its way back to the original sender. -/
  | srsReturn
  /-- A message for recipients elsewhere. -/
  | relay
  deriving DecidableEq, Repr

/-- What is written when a message is delivered. -/
inductive Write
  /-- The directory of an account's INBOX or folder, which may be there already. -/
  | directory (account : Text) (mailbox : Option Text)
  /-- A copy in it, with the directories `tmp` and `new` that this takes. -/
  | copy (account : Text) (mailbox : Option Text) (data : Bytes) (flags : List Text)
  /-- An entry of the outbound spool. -/
  | spool (purpose : Purpose) (message : AcceptedMessage)
  deriving DecidableEq

namespace Write

/-- The account whose mail is written. -/
def account : Write → Option Text
  | .directory account _ | .copy account _ _ _ => some account
  | .spool _ _ => none

/-- Something is there that was not there before, where `existing` tells the mailboxes that were. -/
def creates (existing : Text → Option Text → Bool) : Write → Bool
  | .directory account mailbox => !existing account mailbox
  | .copy _ _ _ _ | .spool _ _ => true

end Write

/-- Deliveries. -/
abbrev Delivery (α : Type) : Type := Filing Write SinkError α

def maxForwardHops : ℕ := 25

/-- The data up to the first empty line, without its line end. -/
def beforeBody : Bytes → Bytes
  | [] => []
  | b :: rest =>
    if [0x0d, 0x0a, 0x0d, 0x0a].isPrefixOf (b :: rest) then [] else b :: beforeBody rest

/-- Whether a line begins a `Received` header. -/
def isReceived (line : Bytes) : Bool :=
  let line := if line.getLast? = some 0x0d then line.dropLast else line
  line.length ≥ 9 &&
    (line.take 9).map (fun b ↦ if 0x41 ≤ b && b ≤ 0x5a then b + 0x20 else b) ==
      encodeUtf8 "received:".toList

def receivedHops (data : Bytes) : ℕ := ((beforeBody data).splitOn 0x0a).countP isReceived

def isSafeMailbox (name : Text) : Bool :=
  !name.isEmpty && utf8Len name ≤ 64 && name.head? != some '.' &&
    name.all fun c ↦ c.isAlphanum || ['-', '_', ' '].contains c

/-- What a local delivery leaves for the caller to do. -/
structure Delivered where
  redirects : List Text
  /-- The reason to refuse the message with. -/
  reject : Option Text
  /-- Autoresponses. -/
  replies : List AcceptedMessage

def Delivered.default : Delivered := ⟨[], none, []⟩

/-- Add what the delivery to one account has come to. -/
def Delivered.extend (delivered one : Delivered) : Delivered :=
  ⟨delivered.redirects ++ one.redirects, delivered.reject.or one.reject,
    delivered.replies ++ one.replies⟩

structure LocalDelivery where
  directory : Smtp.Directory
  /-- What the filter of an account decides; nothing if there is none, or it cannot be read. -/
  sieveOutcome : Text → AcceptedMessage → Option Sieve.Outcome
  /-- The autoresponse of an account, unless there is a reason not to send one. -/
  vacationReply : Text → AcceptedMessage → Sieve.VacationRequest → Option AcceptedMessage

namespace LocalDelivery

variable (p : Smtp.Primitives) (sink : LocalDelivery)

def accountsOf (recipient : Text) : Except SinkError (List Text) :=
  match Smtp.Address.parse p.unicode recipient with
  | .error _ => .error (.unparseable recipient)
  | .ok address =>
    match sink.directory.resolve address with
    | .account account => .ok [account]
    | .alias members => .ok members
    | _ => .error (.unresolved recipient)

/-- The accounts of all recipients, without repetition and in order. -/
def accountsFor (message : AcceptedMessage) : Except SinkError (List Text) := do
  let accounts ← message.recipients.mapM (sink.accountsOf p)
  pure (accounts.flatten.dedup.insertionSort (· ≤ ·))

def deliverToAccount (account : Text) (mailbox : Option Text) (data : Bytes) (flags : List Text) :
    Delivery Unit := do
  .write (.directory account mailbox)
  .write (.copy account mailbox data flags)

/-- Where the mail of an account is sent on to, unless it might loop. -/
def accountForwards (account : Text) (message : AcceptedMessage) : List Text × Bool :=
  match sink.directory.forwardsOf account with
  | none => ([], true)
  | some (targets, keepLocal) =>
    if message.reversePath.isEmpty || receivedHops message.data > maxForwardHops then
      ([], keepLocal)
    else (targets, keepLocal)

/-- The message with the headers of the mailing list that it goes to, if it goes to one. -/
def listMessage (message : AcceptedMessage) : Option AcceptedMessage :=
  let addresses := message.recipients.filterMap fun recipient ↦
    (Smtp.Address.parse p.unicode recipient).toOption
  (addresses.findSome? fun address ↦ sink.directory.listHeaders address.toText).map fun headers ↦
    { message with data := encodeUtf8 headers ++ message.data }

/-- Deliver what a filter has decided, unless it refuses the message. -/
def fileOutcome (account : Text) (message : AcceptedMessage) (forwards : List Text)
    (outcome : Sieve.Outcome) : Delivery Delivered := do
  if outcome.keep then deliverToAccount account none message.data outcome.flags
  outcome.fileinto.forM fun folder ↦
    if isSafeMailbox folder then deliverToAccount account (some folder) message.data outcome.flags
    else pure ()
  let replies := (outcome.vacation.bind (sink.vacationReply account message)).toList
  let redirects := if message.reversePath.isEmpty then [] else outcome.redirects
  pure ⟨redirects ++ forwards, none, replies⟩

def deliverForAccount (account : Text) (message : AcceptedMessage) (hint : Option Text) :
    Delivery Delivered :=
  match hint with
  | some mailbox => do
    deliverToAccount account (some mailbox) message.data []
    pure .default
  | none =>
    let (forwards, keepLocal) := sink.accountForwards account message
    match sink.sieveOutcome account message with
    | none => do
      if keepLocal || forwards.isEmpty then deliverToAccount account none message.data []
      pure { Delivered.default with redirects := forwards }
    | some outcome =>
      match outcome.reject with
      | some reason =>
        pure { Delivered.default with
          reject := if message.reversePath.isEmpty then none else some reason }
      | none => sink.fileOutcome account message forwards outcome

def deliverRouted (message : AcceptedMessage) (mailbox : Option Text) : Delivery Delivered :=
  match mailbox.filter fun name ↦ !isSafeMailbox name with
  | some name => .fail (.unsafeMailbox name)
  | none =>
    match sink.accountsFor p message with
    | .error error => .fail error
    | .ok accounts =>
      if accounts.isEmpty then .fail .noAccounts
      else
        let message := (sink.listMessage p message).getD message
        accounts.foldlM (fun delivered account ↦ do
          let one ← sink.deliverForAccount account message mailbox
          pure (delivered.extend one)) .default

end LocalDelivery

end Storage

end Epistle
