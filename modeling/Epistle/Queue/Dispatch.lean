import Epistle.Dane.Verify
import Epistle.Effects.Recorded
import Epistle.MtaSts.Policy
import Epistle.Queue.Attempts

/-!
# Outbound delivery with its lookups

The worker of `Queue.Worker` takes from its surroundings what a domain's policy is, which host was
reached and whether its certificate is the right one. Here these are computed as the program does
it: the policy comes out of the store of `MtaSts.Policy`, the connector goes through the exchange
hosts, and the certificates of the handshake are compared with the TLSA records of the host that was
reached.

What is done for a domain is recorded. A command is recorded with the connection that it was sent
on, and a connection says which host it goes to and which handshake was made on it.

Every run here is one of the worker with answers that the lookups give (`deliverEntry_refines`), so
what is known of the worker, for all answers, is true here as well.
-/

namespace Epistle.Dispatch

open TextFormat Storage Queue MtaSts Dane Effects
open Recorded (bind_of_ok bind_of_error mapError)

/-- What can be read off a certificate, and the names that a handshake can be made for. -/
structure Tls extends X509 where
  isServerName : Text → Bool

structure Server where
  /-- The answer to the last of the commands. -/
  answer : List Sent → Answer
  /-- The handshake for a name, with the certificate verified for it or not: the certificates. -/
  handshake : Text → Bool → Except Text (List Bytes)

structure Handshake where
  serverName : Text
  /-- The certificate was verified, by the roots and for the name. -/
  pkix : Bool
  chain : List Bytes
  deriving DecidableEq

structure Stream where
  host : Text
  tls : Option Handshake
  deriving DecidableEq

inductive Event
  | contact (host : Text)
  | exchange (stream : Stream) (sent : Sent) (answer : Answer)
  /-- The certificates were compared with the records. -/
  | verified (records : List TlsaRecord) (chain : List Bytes) (outcome : DaneOutcome)
  deriving DecidableEq

def Event.exchanged : Event → Option (Sent × Answer)
  | .exchange _ sent answer => some (sent, answer)
  | _ => none

def transcript (record : List Event) : Transcript := record.filterMap Event.exchanged

/-! ## The client -/

abbrev Session : Type → Type := Recorded Event DeliveryError

/-- What the client makes of an answer. -/
def requireCode (expected : ℕ) : Answer → Except DeliveryError Text
  | .broken reason => .error (.transient reason)
  | .reply code text => if code ≠ expected then .error (.fromReply code text) else .ok text

def command (server : Server) (stream : Stream) (sent : Sent) (expected : ℕ) : Session Text :=
  fun record ↦
    let answer := server.answer ((transcript record).map Prod.fst ++ [sent])
    (record ++ [.exchange stream sent answer], requireCode expected answer)

section Client

variable (p : Smtp.Primitives) (t : Tls) (server : Server)

def tlsConnect (serverName : Text) (authenticate : Bool) : Except Text (List Bytes) :=
  if t.isServerName serverName then
    (server.handshake serverName authenticate).mapError ("TLS handshake failed: ".toList ++ ·)
  else .error ("invalid TLS name ".toList ++ serverName)

/-- Whether the handshake verifies the certificate. -/
def authenticatePkix (requireTls : Bool) (tlsa : List TlsaRecord) (mode : OutboundTls) : Bool :=
  requireTls || (tlsa.isEmpty && mode == .strict)

/-- Go on with a connection on which the handshake was made, if the records allow it. -/
def proceed (stream : Stream) (serverName ehloHostname : Text) (tlsa : List TlsaRecord)
    (handshake : Handshake) : Session Stream := do
  let outcome := verifyChain t.toX509 tlsa handshake.chain
  Recorded.note (.verified tlsa handshake.chain outcome)
  match outcome with
  | .mismatch => Recorded.fail (.transient
      ("DANE: no TLSA record matches the certificate of ".toList ++ serverName))
  | .authenticated | .noRecords => do
    let secured : Stream := { stream with tls := some handshake }
    let _ ← command server secured (.ehlo ehloHostname) 250
    pure secured

/-- Upgrade the connection if the remote offers it. -/
def negotiateTls (stream : Stream) (serverName ehloHostname : Text) (requireTls : Bool)
    (tlsa : List TlsaRecord) (mode : OutboundTls) : Session Stream := do
  let greeting ← command server stream (.ehlo ehloHostname) 250
  let offersStarttls := contains "STARTTLS".toList greeting
  if (requireTls || !tlsa.isEmpty) && !offersStarttls then
    Recorded.fail (.transient "TLS required (MTA-STS/DANE) but remote offers no STARTTLS".toList)
  else if offersStarttls then do
    let _ ← command server stream .startTls 220
    let pkix := authenticatePkix requireTls tlsa mode
    match tlsConnect t server serverName pkix with
    | .error reason => Recorded.fail (.transient reason)
    | .ok chain => proceed t server stream serverName ehloHostname tlsa ⟨serverName, pkix, chain⟩
  else pure stream

def authenticate (auth : Option (Text × Text)) (stream : Stream) : Session Unit :=
  match auth with
  | none => pure ()
  | some (username, password) =>
    if !stream.tls.isSome then
      Recorded.fail (.permanent "relay AUTH requested but smarthost offered no STARTTLS".toList)
    else do
      let token := p.base64Encode (encodeUtf8 ('\x00' :: username ++ '\x00' :: password))
      let _ ← command server stream (.authPlain token) 235
      pure ()

def nameRecipients (stream : Stream) : List Text → Session Unit
  | [] => pure ()
  | recipient :: recipients => do
    let _ ← command server stream (.rcptTo recipient) 250
    nameRecipients stream recipients

def deliver (stream : Stream) (serverName ehloHostname reversePath : Text) (recipients : List Text)
    (data : Bytes) (requireTls : Bool) (auth : Option (Text × Text)) (tlsa : List TlsaRecord)
    (mode : OutboundTls) : Session Unit := do
  let _ ← command server stream .connect 220
  let stream ← negotiateTls t server stream serverName ehloHostname requireTls tlsa mode
  authenticate p server auth stream
  let _ ← command server stream (.mailFrom reversePath) 250
  nameRecipients server stream recipients
  let _ ← command server stream .data 354
  let _ ← command server stream (.content (wireOf data)) 250
  pure ()

end Client

/-! ## The connector -/

inductive MxAnswer
  /-- Preferences and hosts. -/
  | found (records : List (ℕ × Text))
  | noRecords
  | failed (reason : Text)

/-- What is outside, while the mail of one domain is delivered. -/
structure Network where
  /-- The search for the policy of the domain. -/
  discovery : Discovery
  mx : MxAnswer
  /-- The connection to the exchange host at a place in the list. -/
  connect : ℕ → Text → Except Text Server
  /-- The connection to the relay that takes the mail of the domain. -/
  relay : Except DeliveryError Server
  /-- TLSA records, unless the lookup fails for now. -/
  tlsa : Text → Option (List TlsaRecord)

/-- The exchange hosts of a domain, in the order of preference. -/
def exchangers (answer : MxAnswer) (domain : Text) : Except DeliveryError (List Text) :=
  match answer with
  | .found records =>
    -- the sort is stable
    let hosts := (records.insertionSort fun mx other ↦ mx.1 ≤ other.1).map fun mx ↦
      mx.2.rdropWhile (· == '.')
    .ok (if hosts.isEmpty then [domain] else hosts)
  | .noRecords => .ok [domain]
  | .failed reason => .error (.transient ("MX lookup failed: ".toList ++ reason))

def tryHosts (network : Network) : ℕ → List Text → DeliveryError → Session (Server × Text)
  | _, [], lastError => Recorded.fail lastError
  | place, host :: hosts, _ => do
    Recorded.note (.contact host)
    match network.connect place host with
    | .ok server => pure (server, host)
    | .error reason =>
      tryHosts network (place + 1) hosts
        (.transient ("connect to ".toList ++ host ++ ":25 failed: ".toList ++ reason))

/-- Reach an exchange host of a domain, one that the policy permits. -/
def connect (network : Network) (domain : Text) (policy : Option Policy) :
    Session (Server × Text) :=
  match exchangers network.mx domain with
  | .error error => Recorded.fail error
  | .ok hosts =>
    let permitted := hosts.filter fun host ↦ policy.all (·.permitsMx host)
    if policy.isSome && permitted.isEmpty then
      Recorded.fail (.transient ("no MTA-STS-permitted MX for ".toList ++ domain))
    else tryHosts network 0 permitted (.transient ("no exchangers for ".toList ++ domain))

/-! ## The worker -/

/-- A worker, and whether it looks for policies and for TLSA records. -/
structure Sender where
  worker : Worker
  mtaSts : Bool
  daneDns : Bool

/-- How a conversation is to be held, and with whom. -/
structure Link where
  server : Server
  serverName : Text
  auth : Option (Text × Text)
  tlsRequired : Bool
  dane : List TlsaRecord

structure Attempt where
  domain : Text
  recipients : List Text
  /-- The policies that are kept when the attempt begins. -/
  cache : Cache
  record : List Event
  deriving DecidableEq

def senderAccount (envelope : Envelope) : Option Text :=
  ((rsplitOnce '@' envelope.reversePath).map Prod.fst).filter (· ≠ [])

/-- What a policy means for the delivery. A policy that cannot be read is as none. -/
def enforced : Except PolicyError (Option Policy) → Except Outcome (Option Policy)
  | .ok policy => .ok (policy.filter fun policy ↦ policy.mode == .enforce)
  | .error (.temporary reason) => .error (.retry reason)
  | .error _ => .ok none

namespace Sender

variable (p : Smtp.Primitives) (t : Tls) (s : Sender) (network : Network)

def policyFor (domain : Text) (cache : Cache) : Except PolicyError (Option Policy) × Cache :=
  if s.mtaSts then policy network.discovery domain cache else (.ok none, cache)

def tlsaFor (mxHost : Text) : Option (List TlsaRecord) :=
  if s.daneDns then network.tlsa ("_25._tcp.".toList ++ mxHost) else some []

def direct (domain : Text) (policy : Option Policy) (requireTls : Bool) :
    Recorded Event Outcome Link := do
  let reached ← (connect network domain policy).mapError Outcome.ofError
  match s.tlsaFor network reached.2 with
  | none => Recorded.fail (.retry ("transient TLSA lookup failure for ".toList ++ reached.2))
  | some tlsa => pure ⟨reached.1, reached.2, none, requireTls, tlsa⟩

def route (envelope : Envelope) (domain : Text) (policy : Option Policy) :
    Recorded Event Outcome Link :=
  let requireTls := policy.isSome || envelope.requireTls
  match Transport.select s.worker.transports (senderAccount envelope) domain with
  | none => s.direct network domain policy requireTls
  | some rule =>
    match rule.kind with
    | .fail => Recorded.fail (.dropped ("transport policy rejects ".toList ++ domain))
    | .relay =>
      match network.relay with
      | .error error => Recorded.fail (.ofError error)
      | .ok server =>
        let auth := rule.username.bind fun username ↦ rule.password.map fun password ↦
          (username, password)
        pure ⟨server, rule.host.getD [], auth, rule.starttls, []⟩
    | .direct => s.direct network domain policy requireTls

def converse (entry : SpoolEntry) (recipients : List Text) (link : Link) :
    Recorded Event Outcome Unit :=
  (deliver p t link.server ⟨link.serverName, none⟩ link.serverName s.worker.ehloHostname
    entry.envelope.reversePath recipients entry.data link.tlsRequired link.auth link.dane
    s.worker.outboundTls).mapError Outcome.ofError

def deliverDomain (entry : SpoolEntry) (domain : Text) (recipients : List Text) (cache : Cache) :
    Recorded Event Outcome Unit :=
  match enforced (s.policyFor network domain cache).1 with
  | .error outcome => Recorded.fail outcome
  | .ok policy => do
    let link ← s.route network entry.envelope domain policy
    s.converse p t entry recipients link

/-- Deliver to one domain after the other, up to the first that fails. -/
def deliverGroups (networks : Text → Network) (entry : SpoolEntry) :
    List (Text × List Text) → Cache → List Attempt × Outcome × Cache
  | [], cache => ([], .delivered, cache)
  | group :: groups, cache =>
    let run := s.deliverDomain p t (networks group.1) entry group.1 group.2 cache []
    let attempt : Attempt := ⟨group.1, group.2, cache, run.1⟩
    let cache := (s.policyFor (networks group.1) group.1 cache).2
    match run.2 with
    | .error outcome => ([attempt], outcome, cache)
    | .ok () =>
      let rest := deliverGroups networks entry groups cache
      (attempt :: rest.1, rest.2)

def deliverEntry (v : Visit) (networks : Text → Network) (id : Uuid) (q : State) (cache : Cache) :
    List Attempt × Outcome × Cache :=
  match v.load .entry id q with
  | none => ([], .retry ("spool read failed: ".toList ++ v.ioReason), cache)
  | some entry =>
    let recipients := q.openRecipients p s.worker entry.envelope
    if recipients.isEmpty then ([], .suppressed, cache)
    else match groupByDomain p recipients with
      | .error recipient => ([], .dropped ("unparseable recipient ".toList ++ recipient), cache)
      | .ok groups => s.deliverGroups p t networks entry groups cache

end Sender

/-! ## Refinement -/

@[simp] theorem transcript_append (record record' : List Event) :
    transcript (record ++ record') = transcript record ++ transcript record' :=
  List.filterMap_append

/-- A session says what a talk says, and ends as it does. -/
def Follows {α β : Type} (f : α → β) (session : Session α) (talk : Talk β) : Prop :=
  ∀ record, talk (transcript record) = (transcript (session record).1, (session record).2.map f)

namespace Follows

variable {α β γ δ : Type} {f : α → β} {g : γ → δ}

theorem pure {a : α} {b : β} (h : f a = b) : Follows f (Pure.pure a) (Pure.pure b) := by
  intro record
  rw [← h]
  rfl

theorem fail {error : DeliveryError} : Follows f (Recorded.fail error) (Talk.fail error) :=
  fun _ ↦ rfl

theorem bind {session : Session α} {talk : Talk β} {next : α → Session γ} {answer : β → Talk δ}
    (h : Follows f session talk) (hnext : ∀ a, Follows g (next a) (answer (f a))) :
    Follows g (session >>= next) (talk >>= answer) := by
  intro record
  have hfirst := h record
  rcases hrun : session record with ⟨record', error | a⟩
  · rw [hrun] at hfirst
    rw [bind_of_error hrun]
    simp only [Bind.bind, hfirst]
    rfl
  · rw [hrun] at hfirst
    rw [bind_of_ok hrun, ← hnext a record']
    simp only [Bind.bind, hfirst]
    rfl

theorem note {event : Event} (hevent : event.exchanged = none) {next : Session α} {talk : Talk β}
    (h : Follows f next talk) : Follows f (Recorded.note event >>= fun _ ↦ next) talk := by
  intro record
  have hquiet : transcript (record ++ [event]) = transcript record := by
    simp [transcript, hevent]
  have hnext := h (record ++ [event])
  rw [hquiet] at hnext
  exact hnext

theorem command {server : Server} {peer : Peer} (hpeer : peer.answer = server.answer)
    {stream : Stream} {sent : Sent} {expected : ℕ} :
    Follows id (Dispatch.command server stream sent expected)
      (Queue.command peer sent expected) := by
  intro record
  unfold Queue.command Dispatch.command
  rw [hpeer, transcript_append]
  cases server.answer ((transcript record).map Prod.fst ++ [sent]) with
  | broken reason => rfl
  | reply code text =>
    by_cases hcode : code ≠ expected
    · simp only [requireCode, if_pos hcode]
      rfl
    · simp only [requireCode, if_neg hcode]
      rfl

end Follows

section Refinement

variable {p : Smtp.Primitives} {t : Tls} {server : Server}

/-- The server as the worker sees it. -/
def Server.peer (t : Tls) (server : Server) (serverName : Text) (requireTls : Bool)
    (tlsa : List TlsaRecord) (mode : OutboundTls) : Peer where
  answer := server.answer
  handshake := fun pkix ↦ (tlsConnect t server serverName pkix).map fun _ ↦ ()
  daneMatches :=
    ((tlsConnect t server serverName (authenticatePkix requireTls tlsa mode)).toOption.map
    (verifyChain t.toX509 tlsa)) == some .authenticated

theorem follows_proceed {peer : Peer} (hpeer : peer.answer = server.answer) {stream : Stream}
    {serverName ehloHostname : Text} {tlsa : List TlsaRecord} {handshake : Handshake} :
    Follows (·.tls.isSome) (proceed t server stream serverName ehloHostname tlsa handshake)
      (if (!tlsa.isEmpty && !(verifyChain t.toX509 tlsa handshake.chain == .authenticated)) =
        true then
        Talk.fail (.transient
          ("DANE: no TLSA record matches the certificate of ".toList ++ serverName))
      else do
        let _ ← Queue.command peer (.ehlo ehloHostname) 250
        pure true) := by
  have hgoOn : Follows (·.tls.isSome) (do
      let _ ← command server { stream with tls := some handshake } (.ehlo ehloHostname) 250
      pure { stream with tls := some handshake })
      (do let _ ← Queue.command peer (.ehlo ehloHostname) 250; pure true) :=
    Follows.bind (.command hpeer) fun _ ↦ .pure rfl
  refine .note rfl ?_
  cases houtcome : verifyChain t.toX509 tlsa handshake.chain with
  | authenticated =>
    rw [if_neg (by simp)]
    exact hgoOn
  | noRecords =>
    rw [if_neg (by simp [verifyChain_eq_noRecords_iff.1 houtcome])]
    exact hgoOn
  | mismatch =>
    have hsome : tlsa.isEmpty = false := by
      rw [List.isEmpty_eq_false_iff]
      intro hnil
      rw [verifyChain_eq_noRecords_iff.2 hnil] at houtcome
      cases houtcome
    rw [if_pos (by rw [hsome]; rfl)]
    exact .fail

theorem follows_negotiateTls {stream : Stream} (hstream : stream.tls = none)
    (serverName ehloHostname : Text) (requireTls : Bool) (tlsa : List TlsaRecord)
    (mode : OutboundTls) :
    Follows (·.tls.isSome)
      (negotiateTls t server stream serverName ehloHostname requireTls tlsa mode)
      (Queue.negotiateTls (server.peer t serverName requireTls tlsa mode) serverName ehloHostname
        requireTls (!tlsa.isEmpty) mode) := by
  refine .bind (.command rfl) fun greeting ↦ ?_
  dsimp only [id]
  split
  · exact .fail
  · split
    · refine .bind (.command rfl) fun _ ↦ ?_
      have hpkix : (requireTls || (!(!tlsa.isEmpty) && mode == .strict)) =
          authenticatePkix requireTls tlsa mode := by rw [Bool.not_not]; rfl
      rw [hpkix]
      cases hconnect : tlsConnect t server serverName (authenticatePkix requireTls tlsa mode) with
      | error reason =>
        simp only [Server.peer, hconnect, Except.map]
        exact .fail
      | ok chain =>
        have hmatches : (server.peer t serverName requireTls tlsa mode).daneMatches =
            (verifyChain t.toX509 tlsa chain == .authenticated) := by
          simp [Server.peer, hconnect, Except.toOption]
        simp only [Server.peer, hconnect, Except.map]
        exact follows_proceed rfl
    · exact .pure (by rw [hstream]; rfl)

theorem follows_authenticate {peer : Peer} (hpeer : peer.answer = server.answer)
    (auth : Option (Text × Text)) (stream : Stream) :
    Follows id (authenticate p server auth stream)
      (Queue.authenticate p peer auth stream.tls.isSome) := by
  unfold authenticate Queue.authenticate
  cases auth with
  | none => exact .pure rfl
  | some auth =>
    dsimp only
    split
    · exact .fail
    · exact .bind (.command hpeer) fun _ ↦ .pure rfl

theorem follows_nameRecipients {peer : Peer} (hpeer : peer.answer = server.answer) (stream : Stream)
    (recipients : List Text) :
    Follows id (nameRecipients server stream recipients)
      (Queue.nameRecipients peer recipients) := by
  induction recipients with
  | nil => exact .pure rfl
  | cons recipient recipients ih => exact .bind (.command hpeer) fun _ ↦ ih

variable (p t server) in
theorem follows_deliver (stream : Stream) (hstream : stream.tls = none)
    (serverName ehloHostname reversePath : Text) (recipients : List Text) (data : Bytes)
    (requireTls : Bool) (auth : Option (Text × Text)) (tlsa : List TlsaRecord)
    (mode : OutboundTls) :
    Follows id
      (deliver p t server stream serverName ehloHostname reversePath recipients data requireTls auth
        tlsa mode)
      (Queue.deliver p (server.peer t serverName requireTls tlsa mode) serverName ehloHostname
        reversePath recipients data requireTls auth (!tlsa.isEmpty) mode) := by
  refine .bind (.command rfl) fun _ ↦ ?_
  refine .bind (follows_negotiateTls hstream _ _ _ _ _) fun stream ↦ ?_
  refine .bind (follows_authenticate rfl _ _) fun _ ↦ ?_
  refine .bind (.command rfl) fun _ ↦ ?_
  refine .bind (follows_nameRecipients rfl _ _) fun _ ↦ ?_
  refine .bind (.command rfl) fun _ ↦ ?_
  exact .bind (.command rfl) fun _ ↦ .pure rfl

/-! Nothing is said before the server is reached. -/

variable {s : Sender} {network : Network}

/-- A program that says nothing. -/
def Quiet {ε α : Type} (program : Recorded Event ε α) : Prop :=
  ∀ record, transcript (program record).1 = transcript record

theorem Quiet.bind {ε α β : Type} {program : Recorded Event ε α} {next : α → Recorded Event ε β}
    (h : Quiet program) (hnext : ∀ a, Quiet (next a)) : Quiet (program >>= next) := by
  intro record
  have hfirst := h record
  rcases hrun : program record with ⟨record', error | a⟩
  · rw [bind_of_error hrun]
    rwa [hrun] at hfirst
  · rw [bind_of_ok hrun, hnext a record']
    rwa [hrun] at hfirst

theorem quiet_tryHosts (place : ℕ) (hosts : List Text) (lastError : DeliveryError) :
    Quiet (tryHosts network place hosts lastError) := by
  induction hosts generalizing place lastError with
  | nil => exact fun _ ↦ rfl
  | cons host hosts ih =>
    have hcontact : Quiet (Recorded.note (.contact host) : Session Unit) := by
      intro record
      exact (transcript_append record _).trans (List.append_nil _)
    refine hcontact.bind fun _ ↦ ?_
    split
    · exact fun _ ↦ rfl
    · exact ih _ _

theorem quiet_connect (domain : Text) (policy : Option Policy) :
    Quiet (connect network domain policy) := by
  unfold connect
  split
  · exact fun _ ↦ rfl
  · dsimp only
    split
    · exact fun _ ↦ rfl
    · exact quiet_tryHosts _ _ _

theorem quiet_direct (domain : Text) (policy : Option Policy) (requireTls : Bool) :
    Quiet (s.direct network domain policy requireTls) := by
  have hconnect : Quiet ((connect network domain policy).mapError Outcome.ofError) :=
    quiet_connect domain policy
  refine hconnect.bind fun reached ↦ ?_
  split <;> exact fun _ ↦ rfl

variable (s network) in
theorem quiet_route (envelope : Envelope) (domain : Text) (policy : Option Policy) :
    Quiet (s.route network envelope domain policy) := by
  unfold Sender.route
  dsimp only
  split
  · exact quiet_direct _ _ _
  · split
    · exact fun _ ↦ rfl
    · split <;> exact fun _ ↦ rfl
    · exact quiet_direct _ _ _

/-! The answers that the worker is given. -/

def Link.route (link : Link) : Route :=
  ⟨link.serverName, link.auth, link.tlsRequired, !link.dane.isEmpty⟩

def Link.peer (t : Tls) (mode : OutboundTls) (link : Link) : Peer :=
  link.server.peer t link.serverName link.tlsRequired link.dane mode

def policyAnswer : Option Policy → PolicyAnswer
  | none => .absent
  | some _ => .enforce

def noPeer : Peer := ⟨fun _ ↦ .broken [], fun _ ↦ .error [], false⟩

/-- The answers lead the worker to a link, or to a failure. -/
structure Leads (t : Tls) (mode : OutboundTls) (routed : Except Outcome Link)
    (route : Except Outcome Route) (peer : Peer) : Prop where
  route : route = routed.map Link.route
  peer : ∀ link, routed = .ok link → peer = link.peer t mode

variable (t s network) in
theorem exists_hop_direct (mode : OutboundTls) (domain : Text) (policy : Option Policy)
    (requireTls : Bool) : ∃ hop : Hop, hop.policy = policyAnswer policy ∧
      Leads t mode (s.direct network domain policy requireTls []).2
        (hop.direct requireTls) hop.peer := by
  unfold Sender.direct
  rcases hrun : connect network domain policy [] with ⟨record, error | reached⟩
  · have hmapped : (connect network domain policy).mapError Outcome.ofError [] =
        (record, .error (.ofError error)) := by rw [mapError, hrun]; rfl
    rw [bind_of_error hmapped]
    exact ⟨⟨policyAnswer policy, .error error, none, noPeer⟩, rfl, rfl, fun _ h ↦ by cases h⟩
  · have hmapped : (connect network domain policy).mapError Outcome.ofError [] =
        (record, .ok reached) := by rw [mapError, hrun]; rfl
    rw [bind_of_ok hmapped]
    cases s.tlsaFor network reached.2 with
    | none =>
      exact ⟨⟨policyAnswer policy, .ok reached.2, none, noPeer⟩, rfl, rfl, fun _ h ↦ by cases h⟩
    | some tlsa =>
      let link : Link := ⟨reached.1, reached.2, none, requireTls, tlsa⟩
      refine ⟨⟨policyAnswer policy, .ok reached.2, some (!tlsa.isEmpty), link.peer t mode⟩,
        rfl, rfl, ?_⟩
      intro link' h
      rw [← Except.ok.inj h]

/-- The choice of the worker, if it is known whether TLS is required. -/
def choose (w : Worker) (envelope : Envelope) (domain : Text) (requireTls : Bool) (hop : Hop) :
    Except Outcome Route :=
  match Transport.select w.transports (senderAccount envelope) domain with
  | none => hop.direct requireTls
  | some rule =>
    match rule.kind with
    | .fail => .error (.dropped ("transport policy rejects ".toList ++ domain))
    | .relay =>
      match hop.connect with
      | .error error => .error (.ofError error)
      | .ok _ =>
        let auth := rule.username.bind fun username ↦ rule.password.map fun password ↦
          (username, password)
        .ok ⟨rule.host.getD [], auth, rule.starttls, false⟩
    | .direct => hop.direct requireTls

theorem worker_route_eq {policy : Option Policy} {hop : Hop}
    (hpolicy : hop.policy = policyAnswer policy) (w : Worker) (envelope : Envelope)
    (domain : Text) :
    w.route envelope domain hop =
      choose w envelope domain (policy.isSome || envelope.requireTls) hop := by
  unfold Worker.route
  rw [hpolicy]
  cases policy <;> rfl

variable (t s network) in
theorem exists_hop (mode : OutboundTls) (envelope : Envelope) (domain : Text)
    (policy : Option Policy) : ∃ hop : Hop, hop.policy = policyAnswer policy ∧
      Leads t mode (s.route network envelope domain policy []).2
        (choose s.worker envelope domain (policy.isSome || envelope.requireTls) hop) hop.peer := by
  obtain ⟨hop, hpolicy, hdirect⟩ := exists_hop_direct t s network mode domain
    policy (policy.isSome || envelope.requireTls)
  unfold Sender.route choose
  dsimp only
  cases Transport.select s.worker.transports (senderAccount envelope) domain with
  | none => exact ⟨hop, hpolicy, hdirect⟩
  | some rule =>
    dsimp only
    cases rule.kind with
    | direct => exact ⟨hop, hpolicy, hdirect⟩
    | fail => exact ⟨hop, hpolicy, rfl, fun _ h ↦ by cases h⟩
    | relay =>
      dsimp only
      cases network.relay with
      | error error =>
        exact ⟨⟨policyAnswer policy, .error error, none, noPeer⟩, rfl, rfl, fun _ h ↦ by cases h⟩
      | ok server =>
        let link : Link := ⟨server, rule.host.getD [], rule.username.bind fun username ↦
          rule.password.map fun password ↦ (username, password), rule.starttls, []⟩
        refine ⟨⟨policyAnswer policy, .ok [], none, link.peer t mode⟩, rfl, rfl, ?_⟩
        intro link' h
        rw [← Except.ok.inj h]

/-- What becomes of the entry, unless the remote took the message. -/
def failure : Except Outcome Unit → Option Outcome
  | .ok () => none
  | .error outcome => some outcome

/-- The worker says what was said, and comes to the same end. -/
def Shows (attempt : Option Conversation × Option Outcome)
    (run : List Event × Except Outcome Unit) :
    Prop :=
  attempt.1.toList.flatMap (·.transcript) = transcript run.1 ∧ attempt.2 = failure run.2

theorem retry_of_enforced {answer : Except PolicyError (Option Policy)} {outcome : Outcome}
    (h : enforced answer = .error outcome) : ∃ reason, outcome = .retry reason := by
  unfold enforced at h
  split at h
  · cases h
  · exact ⟨_, (Except.error.inj h).symm⟩
  · cases h

/-- What the worker makes of a conversation. -/
def ended (entry : SpoolEntry) (recipients : List Text) (requireTls : Bool)
    (talk : Transcript × Except DeliveryError Unit) : Option Conversation × Option Outcome :=
  match talk with
  | (transcript, .ok ()) =>
    (some ⟨entry.envelope.id, recipients, requireTls, transcript, true⟩, none)
  | (transcript, .error error) =>
    (some ⟨entry.envelope.id, recipients, requireTls, transcript, false⟩, some (.ofError error))

theorem shows_converse (entry : SpoolEntry) (recipients : List Text) (link : Link)
    {record : List Event} (hrecord : transcript record = []) :
    Shows (ended entry recipients link.tlsRequired
        (s.worker.converse p entry recipients link.route (link.peer t s.worker.outboundTls)))
      (s.converse p t entry recipients link record) := by
  have hfollows := follows_deliver p t link.server
    ⟨link.serverName, none⟩ rfl link.serverName s.worker.ehloHostname
    entry.envelope.reversePath recipients entry.data link.tlsRequired link.auth link.dane
    s.worker.outboundTls record
  rw [hrecord] at hfollows
  rw [Worker.converse, Link.peer, Link.route, hfollows, Sender.converse, mapError]
  rcases (deliver p t link.server ⟨link.serverName, none⟩ link.serverName s.worker.ehloHostname
    entry.envelope.reversePath recipients entry.data link.tlsRequired link.auth link.dane
    s.worker.outboundTls record).2 with error | ⟨⟩
  · exact ⟨List.append_nil _, rfl⟩
  · exact ⟨List.append_nil _, rfl⟩

variable (p t s network) in
theorem exists_hop_shows (entry : SpoolEntry) (domain : Text) (recipients : List Text)
    (cache : Cache) : ∃ hop : Hop, ∀ v : Visit, v.hop domain = hop →
      Shows (s.worker.attemptDomain p v entry (domain, recipients))
        (s.deliverDomain p t network entry domain recipients cache []) := by
  unfold Sender.deliverDomain
  cases henforced : enforced (s.policyFor network domain cache).1 with
  | error outcome =>
    obtain ⟨reason, rfl⟩ := retry_of_enforced henforced
    refine ⟨⟨.temporary reason, .error (.transient []), none, noPeer⟩, fun v hv ↦ ?_⟩
    unfold Worker.attemptDomain
    dsimp only
    rw [hv]
    exact ⟨rfl, rfl⟩
  | ok policy =>
    obtain ⟨hop, hpolicy, hleads⟩ := exists_hop t s network
      s.worker.outboundTls entry.envelope domain policy
    refine ⟨hop, fun v hv ↦ ?_⟩
    have hquiet := quiet_route s network entry.envelope domain policy []
    unfold Worker.attemptDomain
    dsimp only
    rw [hv, worker_route_eq hpolicy, hleads.route]
    rcases hrun : s.route network entry.envelope domain policy [] with ⟨record, outcome | link⟩
    · rw [bind_of_error hrun]
      rw [hrun] at hquiet
      exact ⟨hquiet.symm, rfl⟩
    · rw [hrun] at hquiet hleads
      rw [bind_of_ok hrun, hleads.peer link rfl]
      exact shows_converse entry recipients link hquiet

/-- All that was said, and what becomes of the entry. -/
def said (run : List Attempt × Outcome × Cache) : Transcript × Outcome :=
  (run.1.flatMap fun attempt ↦ transcript attempt.record, run.2.1)

variable (p t s) in
theorem exists_hops_groups (networks : Text → Network) (entry : SpoolEntry)
    {groups : List (Text × List Text)} (hsorted : groups.Pairwise fun group other ↦
      group.1 < other.1)
    (cache : Cache) : ∃ hops : Text → Hop, ∀ v :
      Visit, (∀ group ∈ groups, v.hop group.1 = hops group.1) →
      (((s.worker.deliverGroups p v entry groups).1.flatMap (·.transcript),
        (s.worker.deliverGroups p v entry groups).2) =
          said (s.deliverGroups p t networks entry groups cache)) := by
  induction groups generalizing cache with
  | nil => exact ⟨fun _ ↦ ⟨.absent, .ok [], none, noPeer⟩, fun _ _ ↦ rfl⟩
  | cons group groups ih =>
    obtain ⟨hlt, hsorted⟩ := List.pairwise_cons.1 hsorted
    obtain ⟨hop, hshows⟩ := exists_hop_shows p t s (networks group.1)
      entry group.1 group.2 cache
    obtain ⟨hops, hrest⟩ := ih hsorted (s.policyFor (networks group.1) group.1 cache).2
    refine ⟨Function.update hops group.1 hop, fun v hv ↦ ?_⟩
    -- the other domains are not the one of this group
    have hgroups : ∀ other ∈ groups, v.hop other.1 = hops other.1 := by
      intro other hother
      rw [hv other (List.mem_cons_of_mem _ hother),
        Function.update_of_ne (ne_of_gt (hlt other hother))]
    obtain ⟨htalk, hend⟩ := hshows v (by rw [hv group List.mem_cons_self, Function.update_self])
    specialize hrest v hgroups
    unfold Worker.deliverGroups Sender.deliverGroups
    dsimp only
    rcases hattempt : s.worker.attemptDomain p v entry group with ⟨conversation, outcome⟩
    rcases hrun : s.deliverDomain p t (networks group.1) entry group.1 group.2 cache [] with
      ⟨record, outcome' | ⟨⟩⟩
    · rw [hattempt, hrun] at htalk hend
      obtain rfl : outcome = some outcome' := hend
      dsimp only [said] at htalk ⊢
      rw [htalk, List.flatMap_cons, List.flatMap_nil, List.append_nil]
    · rw [hattempt, hrun] at htalk hend
      obtain rfl : outcome = none := hend
      have hspoken := congrArg Prod.fst hrest
      have hended := congrArg Prod.snd hrest
      dsimp only [said] at htalk hspoken hended ⊢
      rw [List.flatMap_append, htalk, hspoken, hended, List.flatMap_cons]

/-- **Refinement**: an attempt says what the worker says, and comes to the same end, if the worker
is given the answers that the lookups lead to. -/
theorem deliverEntry_refines (v : Visit) (networks : Text → Network) (id : Uuid) (q : State)
    (cache : Cache) : ∃ hops : Text → Hop,
      ((Queue.deliverEntry p s.worker { v with hop := hops } id q).1.flatMap (·.transcript),
        (Queue.deliverEntry p s.worker { v with hop := hops } id q).2) =
          said (s.deliverEntry p t v networks id q cache) := by
  have hload (hops : Text → Hop) : ({ v with hop := hops } : Visit).load .entry id q =
    v.load .entry id q := rfl
  unfold Queue.deliverEntry Sender.deliverEntry
  simp only [hload]
  cases v.load .entry id q with
  | none => exact ⟨v.hop, rfl⟩
  | some entry =>
    dsimp only
    split
    · exact ⟨v.hop, rfl⟩
    · cases hgroups : groupByDomain p (q.openRecipients p s.worker entry.envelope) with
      | error recipient => exact ⟨v.hop, rfl⟩
      | ok groups =>
        obtain ⟨hops, hsaid⟩ := exists_hops_groups p t s networks entry
          (groupByDomain_spec hgroups).1.sorted cache
        exact ⟨hops, hsaid _ fun _ _ ↦ rfl⟩

end Refinement

end Epistle.Dispatch
