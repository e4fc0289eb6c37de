import Epistle.Arc.Sealing
import Epistle.Queue.Bounce
import Epistle.Queue.Srs
import Epistle.Storage.Delivery
import Epistle.Storage.Rules

/-!
# Routing

An accepted message is split between the mailboxes here and the outbound spool. What filters and
forwards send on is spooled as well, with a sender of ours, and so are refusals, autoresponses and
reports on their way back.
-/

namespace Epistle.Storage

open TextFormat Effects
open Smtp (AcceptedMessage)

/-- How long an address for reports stays valid. -/
def srsMaxAgeDays : ℕ := 14

structure SplitDelivery where
  here : LocalDelivery
  rules : List Rule
  /-- The rewriter of senders, with our domain. -/
  srs : Option (Queue.Srs × Text)
  /-- Seals what is sent on. -/
  arcSealer : Option Arc.ArcSealer
  /-- The DKIM signature of a message for a domain. -/
  sign : Text → Bytes → Option Text

/-- The recipients of a message, by where they are. -/
structure Split where
  here : List Text
  remote : List Text
  /-- The original senders that reports go back to. -/
  srsReturns : List Text

namespace SplitDelivery

variable (p : Smtp.Primitives) (sink : SplitDelivery) (now : ℕ)

/-- The sender of a message that is sent on. -/
def forwardSender (original : Text) : Text :=
  if original.isEmpty then []
  else match sink.srs with
    | none => original
    | some (srs, ourDomain) =>
      match rsplitOnce '@' original with
      | none => original
      | some (localPart, domain) => srs.forward p localPart domain ourDomain (now / 86400)

/-- The original sender, if a recipient is an address for reports. The program may panic. -/
def srsReturn (recipient : Text) : Option (Option Text) :=
  match sink.srs, rsplitOnce '@' recipient with
  | some (srs, ourDomain), some (localPart, domain) =>
    if !eqIgnoreAsciiCase domain ourDomain then some none
    else (srs.reverse p localPart (now / 86400) srsMaxAgeDays).map fun original ↦
      original.map fun (localPart, domain) ↦ localPart ++ '@' :: domain
  | _, _ => some none

def targetMailbox (message : AcceptedMessage) : Option Text :=
  let senderDomain := (rsplitOnce '@' message.reversePath).map fun parts ↦ toAsciiLowercase parts.2
  (Rule.evaluate sink.rules message.data senderDomain).bind fun rule ↦
    match rule.mailbox with
    | some mailbox => some mailbox
    | none => if rule.junk then some "Junk".toList else none

def place (split : Split) (recipient : Text) : Except SinkError Split :=
  match sink.srsReturn p now recipient with
  | none => .error .panicked
  | some (some original) => .ok { split with srsReturns := split.srsReturns ++ [original] }
  | some none =>
    match Smtp.Address.parse p.unicode recipient with
    | .error _ => .error (.unparseable recipient)
    | .ok address =>
      match sink.here.directory.resolve address with
      | .account _ => .ok { split with here := split.here ++ [recipient] }
      | .alias _ => .ok { split with here := split.here ++ [recipient] }
      | .notLocal => .ok { split with remote := split.remote ++ [recipient] }
      | .unknownUser => .error (.unresolved recipient)

def split (recipients : List Text) : Except SinkError Split :=
  recipients.foldlM (sink.place p now) ⟨[], [], []⟩

def spool (purpose : Purpose) (message : AcceptedMessage) : Delivery Unit :=
  .write (.spool purpose message)

/-- The report that a filter has refused a message. -/
def rejection (message localMessage : AcceptedMessage) (reason : Text) :
    Option AcceptedMessage :=
  let hostname := ((localMessage.recipients.head?.bind (rsplitOnce '@')).map Prod.snd).getD
    "localhost".toList
  let dsnRecipients := localMessage.recipients.filter fun recipient ↦
    !localMessage.noDsn.contains recipient
  if dsnRecipients.isEmpty then none
  else Queue.build p hostname message.reversePath dsnRecipients reason message.data now

/-- The sink with a sealer for what is sent on. -/
def withArcSealer (sealer : Arc.ArcSealer) : SplitDelivery := { sink with arcSealer := some sealer }

/-- The data of a message that is sent on. The program may panic. -/
def forwardData (data : Bytes) : Option Bytes :=
  match sink.arcSealer with
  | none => some data
  | some sealer => (Arc.arcSeal p sealer data).map fun headers ↦
      (headers.map encodeUtf8).getD [] ++ data

def forwarded (message : AcceptedMessage) (data : Bytes) (address : Text) : AcceptedMessage where
  reversePath := sink.forwardSender p now message.reversePath
  recipients := [address]
  data := data
  requireTls := false
  mailbox := none
  noDsn := []

/-- A report on its way back. -/
def returned (message : AcceptedMessage) (original : Text) : AcceptedMessage where
  reversePath := message.reversePath
  recipients := [original]
  data := message.data
  requireTls := false
  mailbox := none
  noDsn := []

/-- The message for recipients elsewhere, signed. -/
def outbound (message : AcceptedMessage) (remote : List Text) : AcceptedMessage :=
  let header := (rsplitOnce '@' message.reversePath).bind fun parts ↦ sink.sign parts.2 message.data
  { message with
    recipients := remote
    data := (header.map encodeUtf8).getD [] ++ message.data }

def spoolDelivered (message localMessage : AcceptedMessage) (delivered : Delivered) :
    Delivery Unit := do
  (delivered.reject.bind (rejection p now message localMessage)).toList.forM (spool .bounce)
  -- the chain is read even if nothing is sent on
  match sink.forwardData p message.data with
  | none => .fail .panicked
  | some data =>
    delivered.redirects.forM fun address ↦
      spool .redirect (sink.forwarded p now message data address)
    delivered.replies.forM (spool .reply)

def deliverHere (message : AcceptedMessage) (recipients : List Text) : Delivery Unit := do
  let mailbox := message.mailbox.or (sink.targetMailbox message)
  let localMessage := { message with recipients }
  let delivered ← sink.here.deliverRouted p localMessage mailbox
  sink.spoolDelivered p now message localMessage delivered

/-- Spool what is for recipients elsewhere. -/
def deliverAway (message : AcceptedMessage) (split : Split) : Delivery Unit := do
  split.srsReturns.forM fun original ↦ spool .srsReturn (returned message original)
  if !split.remote.isEmpty then spool .relay (sink.outbound message split.remote)

def deliver (message : AcceptedMessage) : Delivery Unit :=
  match sink.split p now message.recipients with
  | .error error => .fail error
  | .ok split => do
    if !split.here.isEmpty then sink.deliverHere p now message split.here
    sink.deliverAway message split

end SplitDelivery

end Epistle.Storage
