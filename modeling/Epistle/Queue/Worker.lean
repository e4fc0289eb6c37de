import Epistle.Queue.Bounce
import Epistle.Queue.Client
import Epistle.Queue.Transport
import Epistle.Storage.Spool

/-!
# The queue worker

A pass visits the entries of the spool. The recipients of an entry are grouped by domain, with one
conversation for each group, and the first group that fails decides about the whole entry: it is
tried again later, or it is dropped. A dropped entry is reported to its sender and its recipients
are put on the suppression list; one that has been tried for too long is reported as well.

Beside the spool and the suppression list the state has a history: the conversations held, the
reports made and the addresses suppressed, in the order in which they happened. The program does not
read it.
-/

namespace Epistle.Queue

open TextFormat Storage

def backoffBaseSecs : ℕ := 60

def backoffCapSecs : ℕ := 3600

/-- The age at which the sender is warned. -/
def delayWarningSecs : ℕ := 4 * 3600

/-- When the next attempt may be made. -/
def backoffUntil (now attempts : ℕ) : ℕ :=
  min (now + min (backoffBaseSecs * 2 ^ min attempts 16) backoffCapSecs) (2 ^ 64 - 1)

structure Worker where
  ehloHostname : Text
  /-- There is somewhere to send reports. -/
  bounceSink : Bool
  maxAgeSecs : ℕ
  suppression : Bool
  transports : List Transport
  outboundTls : OutboundTls

/-! ## The surroundings -/

/-- The MTA-STS policy of a domain. -/
inductive PolicyAnswer
  /-- None, or one that is not enforced or cannot be read. -/
  | absent
  | enforce
  | temporary (reason : Text)

/-- What a domain's exchanger, or the relay in its place, does. -/
structure Hop where
  policy : PolicyAnswer
  /-- The connection, with the name of the server. -/
  connect : Except DeliveryError Text
  /-- Whether there are TLSA records; the lookup may fail for now. -/
  tlsa : Option Bool
  peer : Peer

/-- Where an entry is read or written during a visit. -/
inductive Site
  | check
  | entry
  | prior
  | record
  | bounce
  | suppress
  | delay
  | mark
  deriving DecidableEq

/-- How the removal of an entry ends. -/
inductive Removal
  | removed
  /-- The envelope is gone, the message file is not. -/
  | orphaned
  | failed
  deriving DecidableEq

/-- What the surroundings answer during a visit. -/
structure Visit where
  /-- The files can be read or written there. -/
  io : Site → Bool
  ioReason : Text
  removal : Removal
  hop : Text → Hop
  /-- The second of creation that the id encodes. -/
  created : Option ℕ
  /-- The second that goes into a report. -/
  date : ℕ
  /-- The sink takes a report. -/
  sinkAccepts : Bool

/-! ## The state -/

structure Conversation where
  id : Uuid
  recipients : List Text
  requireTls : Bool
  transcript : Transcript
  /-- The remote took the message. -/
  accepted : Bool

structure Report where
  id : Uuid
  kind : Kind
  recipients : List Text
  message : Smtp.AcceptedMessage
  /-- The sink took it. -/
  delivered : Bool

/-- An address that was put on the suppression list, for everybody or for an account. -/
structure Mark where
  id : Uuid
  recipient : Text
  account : Option Text

inductive Happening
  | conversation (conversation : Conversation)
  | report (report : Report)
  | mark (mark : Mark)

structure State where
  spool : Spool
  suppressed : List Bytes
  /-- The digests of an account and of an address that is suppressed for it. -/
  suppressedFor : List (Bytes × Bytes)
  history : List Happening

section Worker

variable (p : Smtp.Primitives) (w : Worker) (v : Visit)

/-! ## Suppression -/

def digestName (value : Text) : Bytes := p.sha256 (encodeUtf8 (toAsciiLowercase value))

def State.isSuppressed (address : Text) (q : State) : Bool :=
  q.suppressed.contains (digestName p address)

def State.isSuppressedFor (account address : Text) (q : State) : Bool :=
  q.suppressedFor.contains (digestName p account, digestName p address)

def State.suppress (id : Uuid) (address : Text) (q : State) : State :=
  if q.isSuppressed p address then q
  else { q with
    suppressed := q.suppressed ++ [digestName p address]
    history := q.history ++ [.mark ⟨id, address, none⟩] }

def State.suppressFor (id : Uuid) (account address : Text) (q : State) : State :=
  if q.isSuppressedFor p account address then q
  else { q with
    suppressedFor := q.suppressedFor ++ [(digestName p account, digestName p address)]
    history := q.history ++ [.mark ⟨id, address, some account⟩] }

/-- Suppress a recipient of an entry, for everybody and for the sender. -/
def State.suppressRecipient (id : Uuid) (account : Text) (q : State) (recipient : Text) : State :=
  let q := q.suppress p id recipient
  if account.isEmpty then q else q.suppressFor p id account recipient

def Visit.load (site : Site) (id : Uuid) (q : State) : Option SpoolEntry :=
  if v.io site then q.spool.load id else none

def suppressEntry (id : Uuid) (q : State) : State :=
  if w.suppression then
    match v.load .suppress id q with
    | none => q
    | some entry =>
      entry.envelope.recipients.foldl (State.suppressRecipient p id entry.envelope.reversePath) q
  else q

/-! ## Reports -/

/-- The recipients that want to hear of a failure. -/
def dsnRecipients (envelope : Envelope) : List Text :=
  envelope.recipients.filter fun recipient ↦ !envelope.noDsn.contains recipient

def State.report (kind : Kind) (id : Uuid) (entry : SpoolEntry) (reason : Text)
    (q : State) : State :=
  let recipients := dsnRecipients entry.envelope
  if recipients.isEmpty then q
  else match buildReport p kind w.ehloHostname entry.envelope.reversePath recipients reason
      entry.data v.date with
    | none => q
    | some message =>
      { q with history := q.history ++
        [.report ⟨id, kind, recipients, message, w.bounceSink && v.sinkAccepts⟩] }

def bounce (id : Uuid) (reason : Text) (q : State) : State :=
  match v.load .bounce id q with
  | none => q
  | some entry => q.report p w v .failed id entry reason

def warnDelayed (id : Uuid) (reason : Text) (q : State) : State :=
  match v.load .delay id q with
  | none => q
  | some entry =>
    if entry.envelope.delayWarned then q
    else
      let q := q.report p w v .delayed id entry reason
      if v.io .mark then { q with spool := q.spool.markDelayWarned id } else q

/-! ## Delivery -/

inductive Outcome
  | delivered
  | retry (reason : Text)
  | dropped (reason : Text)
  | suppressed
  deriving DecidableEq

def Outcome.isRetry : Outcome → Bool
  | .retry _ => true
  | _ => false

def Outcome.ofError : DeliveryError → Outcome
  | .transient reason => .retry reason
  | .permanent reason => .dropped reason

structure Route where
  serverName : Text
  auth : Option (Text × Text)
  tlsRequired : Bool
  dane : Bool

/-- Reach an exchange host of the domain itself. -/
def Hop.direct (hop : Hop) (requireTls : Bool) : Except Outcome Route :=
  match hop.connect with
  | .error error => .error (.ofError error)
  | .ok serverName =>
    match hop.tlsa with
    | none => .error (.retry ("transient TLSA lookup failure for ".toList ++ serverName))
    | some dane => .ok ⟨serverName, none, requireTls, dane⟩

def Worker.route (envelope : Envelope) (domain : Text) (hop : Hop) : Except Outcome Route :=
  match hop.policy with
  | .temporary reason => .error (.retry reason)
  | policy =>
    let requireTls := (match policy with
      | .enforce => true
      | _ => false) || envelope.requireTls
    let senderAccount := ((rsplitOnce '@' envelope.reversePath).map Prod.fst).filter (· ≠ [])
    match Transport.select w.transports senderAccount domain with
    | none => hop.direct requireTls
    | some rule =>
      match rule.kind with
      | .fail => .error (.dropped ("transport policy rejects ".toList ++ domain))
      | .relay =>
        match hop.connect with
        | .error error => .error (.ofError error)
        | .ok _ =>
          let auth := rule.username.bind fun username ↦ rule.password.map fun password ↦
            (username, password)
          .ok ⟨rule.host.getD [], auth, rule.starttls, false⟩
      | .direct => hop.direct requireTls

def Worker.converse (entry : SpoolEntry) (recipients : List Text) (route : Route) (peer : Peer) :
    Transcript × Except DeliveryError Unit :=
  deliver p peer route.serverName w.ehloHostname entry.envelope.reversePath recipients entry.data
    route.tlsRequired route.auth route.dane w.outboundTls []

/-- Deliver to the recipients of a domain: the conversation, if there was one, and what becomes of
the entry, unless the remote took the message. -/
def Worker.attemptDomain (entry : SpoolEntry) (group : Text × List Text) :
    Option Conversation × Option Outcome :=
  match w.route entry.envelope group.1 (v.hop group.1) with
  | .error outcome => (none, some outcome)
  | .ok route =>
    match w.converse p entry group.2 route (v.hop group.1).peer with
    | (transcript, .ok ()) =>
      (some ⟨entry.envelope.id, group.2, route.tlsRequired, transcript, true⟩, none)
    | (transcript, .error error) =>
      (some ⟨entry.envelope.id, group.2, route.tlsRequired, transcript, false⟩,
        some (.ofError error))

/-- Deliver to one domain after the other, up to the first that fails. -/
def Worker.deliverGroups (entry : SpoolEntry) :
    List (Text × List Text) → List Conversation × Outcome
  | [] => ([], .delivered)
  | group :: groups =>
    match w.attemptDomain p v entry group with
    | (conversation, some outcome) => (conversation.toList, outcome)
    | (conversation, none) =>
      let rest := Worker.deliverGroups entry groups
      (conversation.toList ++ rest.1, rest.2)

def addToGroup (domain recipient : Text) : List (Text × List Text) → List (Text × List Text)
  | [] => [(domain, [recipient])]
  | group :: groups =>
    if domain = group.1 then (group.1, group.2 ++ [recipient]) :: groups
    else if domain < group.1 then (domain, [recipient]) :: group :: groups
    else group :: addToGroup domain recipient groups

/-- Put a recipient into its group, unless it cannot be read. -/
def placeRecipient (groups : List (Text × List Text)) (recipient : Text) :
    Except Text (List (Text × List Text)) :=
  match Smtp.Address.parse p.unicode recipient with
  | .error _ => .error recipient
  | .ok address => .ok (addToGroup address.domain recipient groups)

/-- Group recipients by domain, unless one of them cannot be read. -/
def groupByDomain (recipients : List Text) : Except Text (List (Text × List Text)) :=
  recipients.foldlM (placeRecipient p) []

/-- The recipients of an entry that are not suppressed. -/
def State.openRecipients (envelope : Envelope) (q : State) : List Text :=
  envelope.recipients.filter fun recipient ↦ !w.suppression ||
    !q.isSuppressed p recipient && !q.isSuppressedFor p envelope.reversePath recipient

def deliverEntry (id : Uuid) (q : State) : List Conversation × Outcome :=
  match v.load .entry id q with
  | none => ([], .retry ("spool read failed: ".toList ++ v.ioReason))
  | some entry =>
    let recipients := q.openRecipients p w entry.envelope
    if recipients.isEmpty then ([], .suppressed)
    else match groupByDomain p recipients with
      | .error recipient => ([], .dropped ("unparseable recipient ".toList ++ recipient))
      | .ok groups => w.deliverGroups p v entry groups

/-! ## Passes -/

/-- Remove an entry. The pass ends when this fails; else the answer says whether it was
delivered. -/
def removeEntry (id : Uuid) (delivered : Bool) (q : State) : State × Option Bool :=
  match v.removal with
  | .removed => ({ q with spool := q.spool.remove id }, some delivered)
  | .orphaned => ({ q with spool := q.spool.remove id }, none)
  | .failed => (q, none)

def Visit.messageAge (now : ℕ) : ℕ := now - v.created.getD now

/-- Keep an entry for later, or give it up. -/
def retryEntry (now : ℕ) (id : Uuid) (reason : Text) (q : State) : State × Option Bool :=
  let prior := ((v.load .prior id q).map (·.envelope.attempts)).getD 0
  let q := if v.io .record then
      { q with spool := q.spool.recordAttempt id (backoffUntil now ((prior + 1) % 2 ^ 32)) }
    else q
  if v.messageAge now ≥ w.maxAgeSecs then removeEntry v id false (bounce p w v id reason q)
  else if v.messageAge now ≥ delayWarningSecs then (warnDelayed p w v id reason q, some false)
  else (q, some false)

/-- The entry's time has not come. -/
def Visit.notDue (now : ℕ) (id : Uuid) (q : State) : Bool :=
  (v.load .check id q).any fun entry ↦ now < entry.envelope.nextAttempt

def visitEntry (now : ℕ) (id : Uuid) (q : State) : State × Option Bool :=
  if v.notDue now id q then (q, some false)
  else
    let attempt := deliverEntry p w v id q
    let q := { q with history := q.history ++ attempt.1.map .conversation }
    match attempt.2 with
    | .delivered => removeEntry v id true q
    | .dropped reason => removeEntry v id false (suppressEntry p w v id (bounce p w v id reason q))
    | .suppressed => removeEntry v id false q
    | .retry reason => retryEntry p w v now id reason q

def visitAll (visits : Uuid → Visit) (now : ℕ) : List Uuid → ℕ → State → State × Option ℕ
  | [], delivered, q => (q, some delivered)
  | id :: ids, delivered, q =>
    match visitEntry p w (visits id) now id q with
    | (q, none) => (q, none)
    | (q, some taken) => visitAll visits now ids (if taken then delivered + 1 else delivered) q

/-- One pass over the spool, and the number of delivered entries unless it fails. -/
def pass (visits : Uuid → Visit) (now : ℕ) (q : State) : State × Option ℕ :=
  visitAll p w visits now q.spool.list 0 q

end Worker

end Epistle.Queue
