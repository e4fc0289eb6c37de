import Epistle.Auth.SmtpSteps

/-!
# What the session accepts

The connection feeds the session what it has read, and what it reads next depends on the session's
last action: commands, data lines, a chunk, a response to a challenge. Beside the session a `Log` is
kept of what the client has said since its last accepted `MAIL`. Whatever the client does, a message
that the session delivers is the one of the log: its recipients, its data, and a sender that the
authenticated user may use (`delivered_sound`).

The invariant says of each state of the session what the log then looks like. An open transaction
has the identity that the session had when the transaction was opened, because a client
authenticates outside transactions only.
-/

namespace Epistle.Smtp

open TextFormat Interleaving

namespace Acceptance

/-! ## The dialogue -/

/-- What the connection reads next. -/
inductive Mode
  | commands
  | data
  | auth
  | chunk (size : ℕ) (last : Bool)
  | handshake
  | closed
  deriving DecidableEq

def modeAfter : Action → Mode
  | .reply _ => .commands
  | .collectData _ => .data
  | .collectChunk size last => .chunk size last
  | .deliver _ _ => .commands
  | .upgradeTls _ => .handshake
  | .collectAuthResponse _ => .auth
  | .close _ => .closed

inductive Input
  | command (env : Env) (line : Text)
  | auth (env : Env) (line : Text)
  | data (line : Bytes)
  | chunk (bytes : Bytes)
  /-- The handshake is complete, with a client certificate for the identity if there is one. -/
  | tlsStarted (identity : Option Text)

/-- What the client has said since its last accepted `MAIL`. -/
structure Log where
  /-- The session's user when the `MAIL` was accepted. -/
  authenticated : Option Text
  /-- TLS was active when the `MAIL` was accepted. -/
  tlsActive : Bool
  /-- The addresses of the accepted `RCPT`s. -/
  recipients : List Address
  lines : List Bytes
  chunks : List Bytes

def Log.empty : Log := ⟨none, false, [], [], []⟩

/-- The log of a transaction that has just been opened. -/
def openedLog (s : Session) : Log := ⟨s.authenticated, s.tlsActive, [], [], []⟩

structure World where
  session : Session
  mode : Mode
  log : Log

def accepted : Action → Bool
  | .reply reply => reply.code == 250
  | _ => false

theorem accepted_ok : accepted (.reply .ok) = true := rfl

def logCommand (p : Primitives) (s : Session) (line : Text) (action : Action) (log : Log) : Log :=
  match Command.parse line with
  | .ok (.mailFrom ..) =>
    if accepted action then openedLog s else log
  | .ok (.rcptTo forwardPath _ _) =>
    if accepted action then
      { log with
        recipients := log.recipients ++ (Address.parse p.unicode forwardPath).toOption.toList }
    else log
  | _ => log

/-- What the session makes of an input, and the log after it. A chunk and a line that is not the
final dot are recorded whatever becomes of them. -/
def respond (p : Primitives) (w : World) : Input → Option Action × Session × Log
  | .command env line =>
    let r := w.session.commandLine p env line
    (some r.1, r.2, logCommand p w.session line r.1 w.log)
  | .auth env line =>
    let r := w.session.authLine p env line
    (some r.1, r.2, w.log)
  | .data line =>
    let r := w.session.dataLine line
    (r.1, r.2, if line = [0x2e] then w.log else { w.log with lines := w.log.lines ++ [line] })
  | .chunk bytes =>
    let last := match w.mode with
      | .chunk _ last => last
      | _ => false
    let r := w.session.bdatChunk bytes last
    (some r.1, r.2, { w.log with chunks := w.log.chunks ++ [bytes] })
  | .tlsStarted identity => (none, w.session.tlsStarted identity, w.log)

def nextMode (mode : Mode) (input : Input) : Option Action → Mode
  | some action => modeAfter action
  | none => match input with
    | .tlsStarted _ => .commands
    | _ => mode

/-- The input is what the connection reads in this mode. -/
def Fits : Mode → Input → Prop
  | .commands, .command _ _ => True
  | .auth, .auth _ _ => True
  | .data, .data _ => True
  | .chunk size _, .chunk bytes => bytes.length = size
  | .handshake, .tlsStarted _ => True
  | _, _ => False

instance (mode : Mode) (input : Input) : Decidable (Fits mode input) := by
  cases mode <;> cases input <;> dsimp only [Fits] <;> infer_instance

section Fits

variable {mode : Mode} {env : Env} {line : Text} {bytes : Bytes}

theorem fits_command : Fits mode (.command env line) ↔ mode = .commands := by
  cases mode <;> simp [Fits]

theorem fits_auth : Fits mode (.auth env line) ↔ mode = .auth := by
  cases mode <;> simp [Fits]

theorem fits_data : Fits mode (.data bytes) ↔ mode = .data := by
  cases mode <;> simp [Fits]

theorem fits_chunk : Fits mode (.chunk bytes) ↔ ∃ last, mode = .chunk bytes.length last := by
  cases mode <;> simp [Fits, eq_comm]

end Fits

def machine (p : Primitives) : Machine World Input where
  enabled := fun w input ↦ Fits w.mode input
  step := fun w input ↦
    ⟨(respond p w input).2.1, nextMode w.mode input (respond p w input).1, (respond p w input).2.2⟩

instance (p : Primitives) (w : World) (input : Input) : Decidable ((machine p).enabled w input) :=
  inferInstanceAs (Decidable (Fits w.mode input))

/-! ## What is to hold -/

/-- Lines of data, without the dots that protect them. -/
def joinLines (lines : List Bytes) : Bytes :=
  lines.flatMap fun line ↦ Session.unstuff line ++ [0x0d, 0x0a]

/-- The address belongs to somebody here. -/
def isLocal : Resolution → Bool
  | .account _ => true
  | .alias _ => true
  | _ => false

/-- The user may send as the address. -/
def Owned (p : Primitives) (directory : Directory) (authenticated : Option Text)
    (reversePath : Text) :
    Prop :=
  ∀ account, authenticated = some account → ∃ address,
    Address.parse p.unicode reversePath = .ok address ∧ directory.ownsAddress account address = true

/-- The message is the one that the client has described. -/
structure Sound (p : Primitives) (directory : Directory) (s : Session) (log : Log)
    (message : AcceptedMessage) : Prop where
  nonempty : message.recipients ≠ []
  atMost : message.recipients.length ≤ maxRecipients
  recipients : message.recipients = log.recipients.map Address.toText
  resolved : ∀ address ∈ log.recipients,
    isLocal (directory.resolve address) = true ∨ log.authenticated.isSome = true
  owned : Owned p directory s.authenticated message.reversePath
  requireTls : message.requireTls = true → log.tlsActive = true
  noDsn : message.noDsn.Sublist message.recipients
  data : message.data = joinLines log.lines ∧ log.chunks = [] ∨
    message.data = log.chunks.flatten ∧ log.lines = []
  size : message.data.length ≤ maxMessageSize

/-! ## The invariant -/

/-- A transaction has the identity that the session had when it was opened. -/
structure Opened (p : Primitives) (directory : Directory) (s : Session) (log : Log)
    (reversePath : Text) (requireTls : Bool) : Prop where
  authenticated : log.authenticated = s.authenticated
  owned : Owned p directory s.authenticated reversePath
  requireTls : requireTls = true → log.tlsActive = true

structure Envelope (directory : Directory) (log : Log) (t : Transaction) : Prop where
  nonempty : t.recipients ≠ []
  atMost : t.recipients.length ≤ maxRecipients
  recipients : t.recipients = log.recipients.map Address.toText
  resolved : ∀ address ∈ log.recipients,
    isLocal (directory.resolve address) = true ∨ log.authenticated.isSome = true
  noDsn : t.noDsn.Sublist t.recipients

/-- The data of a transaction are those of the log: chunks, once there is one, and else the lines
read so far, of which there are none unless data lines are being read. Lines are counted even when
there are too many to keep. -/
structure Body (log : Log) (t : Transaction) (mode : Mode) : Prop where
  chunks : t.chunking = true → log.lines = [] ∧ t.body = log.chunks.flatten ∧
    t.body.length = t.size ∧ mode ≠ .data
  lines : t.chunking = false → log.chunks = [] ∧ t.size = (joinLines log.lines).length ∧
    (t.size ≤ maxMessageSize → t.body = joinLines log.lines) ∧ (mode ≠ .data → log.lines = [])

def StateOk (p : Primitives) (directory : Directory) (s : Session) (log : Log)
    (mode : Mode) : Prop :=
  match s.state with
  | .connected => True
  | .greeted => True
  | .receivingRecipients reversePath requireTls =>
    Opened p directory s log reversePath requireTls ∧ log.recipients = [] ∧ log.lines = [] ∧
      log.chunks = []
  | .receivingData t =>
    Opened p directory s log t.reversePath t.requireTls ∧ Envelope directory log t ∧ Body log t mode

/-- The invariant. A response to a challenge is read only outside transactions and inside TLS. -/
structure Holds (p : Primitives) (directory : Directory) (s : Session) (log : Log) (mode : Mode) :
    Prop where
  sameDirectory : s.directory = directory
  tls : s.authenticated.isSome = true → s.tlsActive = true
  auth : mode = .auth → s.state = .greeted ∧ s.tlsActive = true
  state : StateOk p directory s log mode

section Steps

variable {p : Primitives} {directory : Directory} {s : Session} {log : Log}

/-- The step keeps the invariant, and what it delivers is sound. -/
def Next (p : Primitives) (directory : Directory) (log : Log) (r : Session.Step) : Prop :=
  Holds p directory r.2 log (modeAfter r.1) ∧
    ∀ reply message, r.1 = .deliver reply message → Sound p directory r.2 log message

/-- What holds while commands are read holds while other things are read, if these are not lines of
data or a response. -/
theorem Holds.of_commands (h : Holds p directory s log .commands) {mode : Mode}
    (hdata : mode ≠ .data) (hauth : mode ≠ .auth) : Holds p directory s log mode := by
  refine ⟨h.sameDirectory, h.tls, fun heq ↦ absurd heq hauth, ?_⟩
  have hstate := h.state
  unfold StateOk at hstate ⊢
  split
  · trivial
  · trivial
  · rename_i heq
    rwa [heq] at hstate
  · rename_i t heq
    rw [heq] at hstate
    obtain ⟨hopened, henvelope, hbody⟩ := hstate
    refine ⟨hopened, henvelope, ⟨fun hchunking ↦ ?_, fun hchunking ↦ ?_⟩⟩
    · obtain ⟨hlines, hflatten, hsize, -⟩ := hbody.chunks hchunking
      exact ⟨hlines, hflatten, hsize, hdata⟩
    · obtain ⟨hchunks, hsize, hjoin, hlines⟩ := hbody.lines hchunking
      exact ⟨hchunks, hsize, hjoin, fun _ ↦ hlines nofun⟩

variable {s' : Session} {r : Session.Step} {reversePath : Text} {reply : Reply} {address : Address}
  {t : Transaction}

theorem holds_outside {mode : Mode} (hdirectory : s'.directory = directory)
    (htls : s'.authenticated.isSome = true → s'.tlsActive = true)
    (hauth : mode = .auth → s'.state = .greeted ∧ s'.tlsActive = true)
    (hstate : s'.state = .greeted ∨ s'.state = .connected) : Holds p directory s' log mode := by
  refine ⟨hdirectory, htls, hauth, ?_⟩
  unfold StateOk
  rcases hstate with heq | heq <;>
  · rw [heq]
    trivial

theorem Holds.next_reply (h : Holds p directory s log .commands) (reply : Reply) :
    Next p directory log (.reply reply, s) := ⟨h, nofun⟩

theorem reset_state (s : Session) : s.reset.state = .greeted ∨ s.reset.state = .connected := by
  unfold Session.reset
  split
  · rename_i heq
    exact .inr heq
  · exact .inl rfl

theorem reset_frame (s : Session) : s.reset.directory = s.directory ∧
    s.reset.authenticated = s.authenticated ∧ s.reset.tlsActive = s.tlsActive := by
  unfold Session.reset
  split <;> exact ⟨rfl, rfl, rfl⟩

theorem Holds.reset {mode mode' : Mode} {log' : Log} (h : Holds p directory s log mode)
    (hauth : mode' ≠ .auth) : Holds p directory s.reset log' mode' := by
  obtain ⟨hdirectory, hauthenticated, htls⟩ := reset_frame s
  refine holds_outside (hdirectory.trans h.sameDirectory) ?_ (fun heq ↦ absurd heq hauth)
    (reset_state s)
  rw [hauthenticated, htls]
  exact h.tls

/-! ### Authentication -/

/-- A user who signs in outside transactions and inside TLS breaks nothing. -/
theorem Holds.next_authStep {mode : Mode} (h : Holds p directory s log mode)
    (hstate : s.state = .greeted) (htls : s.tlsActive = true)
    (hr : AuthStep s r) : Next p directory log r := by
  have hquiet := ne_deliver_of_isQuiet hr.isQuiet
  obtain ⟨hrstate, hrdirectory, hrtls, -⟩ := hr
  have hgreeted : r.2.state = .greeted := hrstate.trans hstate
  have hactive : r.2.tlsActive = true := hrtls.trans htls
  refine ⟨holds_outside (hrdirectory.trans h.sameDirectory) (fun _ ↦ hactive)
    (fun _ ↦ ⟨hgreeted, hactive⟩) (.inl hgreeted), fun reply message hdeliver ↦
      absurd hdeliver (hquiet reply message)⟩

theorem Holds.next_auth (h : Holds p directory s log .commands) (env : Env) (mechanism : Text)
    (initial : Option Text) : Next p directory log (s.auth p env mechanism initial) := by
  rcases Auth.SmtpDesk.auth_cases p env mechanism initial s with ⟨reply, heq⟩ | ⟨hstate,
    htls, hstep⟩
  · rw [heq]
    exact h.next_reply reply
  · exact h.next_authStep hstate htls hstep.1

/-! ### Opening a transaction -/

theorem owned_of_refuseSender (h : s.refuseSender p reversePath = none) :
    Owned p s.directory s.authenticated reversePath := by
  intro account haccount
  unfold Session.refuseSender at h
  rw [haccount] at h
  cases hparse : Address.parse p.unicode reversePath with
  | error error =>
    rw [hparse] at h
    exact absurd h nofun
  | ok address =>
    rw [hparse] at h
    refine ⟨address, rfl, ?_⟩
    by_contra hnot
    exact absurd h (by simp [hnot])

theorem refuseSender_code (h : s.refuseSender p reversePath = some reply) : reply.code = 553 := by
  unfold Session.refuseSender at h
  split at h
  · split at h
    · exact absurd h nofun
    · exact congrArg Reply.code (Option.some.inj h).symm
  · exact congrArg Reply.code (Option.some.inj h).symm
  · split at h
    · exact absurd h nofun
    · exact congrArg Reply.code (Option.some.inj h).symm
  · exact absurd h nofun

/-- `MAIL` is refused with the session as it was, or it opens a transaction outside one, for a
sender that the user may use. -/
theorem mailFrom_cases (p : Primitives) (env : Env) (reversePath : Text) (size : Option ℕ)
    (requireTls : Bool) (s : Session) :
    (∃ reply, reply.code ≠ 250 ∧
      s.mailFrom p env reversePath size requireTls = (.reply reply, s)) ∨
    (requireTls = true → s.tlsActive = true) ∧ s.refuseSender p reversePath = none ∧
      s.mailFrom p env reversePath size requireTls =
        (.reply .ok, { s with state := .receivingRecipients reversePath requireTls }) := by
  unfold Session.mailFrom
  split
  · split
    · exact .inl ⟨_, by decide, rfl⟩
    · rename_i hrequire
      split
      · rename_i reply hrefuse
        exact .inl ⟨reply, by rw [refuseSender_code hrefuse]; decide, rfl⟩
      · rename_i hrefuse
        split
        · exact .inl ⟨_, by decide, rfl⟩
        · split
          · exact .inl ⟨_, by decide, rfl⟩
          · split
            · exact .inl ⟨_, by decide, rfl⟩
            · exact .inr ⟨by simpa using hrequire, hrefuse, rfl⟩
  · exact .inl ⟨_, by decide, rfl⟩

theorem Holds.next_mailFrom (h : Holds p directory s log .commands) (env : Env) (reversePath : Text)
    (size : Option ℕ) (requireTls : Bool) :
    Next p directory
      (if accepted (s.mailFrom p env reversePath size requireTls).1 then openedLog s else log)
      (s.mailFrom p env reversePath size requireTls) := by
  rcases mailFrom_cases p env reversePath size requireTls s with
    ⟨reply, hcode, heq⟩ | ⟨htls, hrefuse, heq⟩
  · rw [heq, if_neg (by simpa [accepted] using hcode)]
    exact h.next_reply reply
  · rw [heq, if_pos accepted_ok]
    have howned := owned_of_refuseSender hrefuse
    rw [h.sameDirectory] at howned
    exact ⟨⟨h.sameDirectory, h.tls, nofun, ⟨rfl, howned, htls⟩, rfl, rfl, rfl⟩, nofun⟩

/-! ### Recipients -/

theorem refuseRecipient_code (h : s.refuseRecipient address = some reply) : reply.code = 550 := by
  unfold Session.refuseRecipient at h
  split at h
  · split at h
    · exact congrArg Reply.code (Option.some.inj h).symm
    · exact absurd h nofun
  · exact congrArg Reply.code (Option.some.inj h).symm
  · exact absurd h nofun
  · exact absurd h nofun

theorem isLocal_of_refuseRecipient (h : s.refuseRecipient address = none) :
    isLocal (s.directory.resolve address) = true ∨ s.authenticated.isSome = true := by
  unfold Session.refuseRecipient at h
  split at h
  · split at h
    · exact absurd h nofun
    · rename_i hsome
      exact .inr (by simpa [Option.isSome_iff_ne_none] using hsome)
  · exact absurd h nofun
  · rename_i heq
    rw [heq]
    exact .inl rfl
  · rename_i heq
    rw [heq]
    exact .inl rfl

def addRecipient (recipient : Text) (notify : Option Notify) (t : Transaction) : Transaction :=
  { t with
    recipients := t.recipients ++ [recipient]
    noDsn := t.noDsn ++ if Session.suppressesDsn notify then [recipient] else [] }

/-- `RCPT` is refused with the session as it was, or it adds a recipient that is not refused, to a
transaction without data. -/
theorem rcptTo_cases (p : Primitives) (forwardPath : Text) (notify : Option Notify) (s : Session) :
    (∃ reply, reply.code ≠ 250 ∧ s.rcptTo p forwardPath notify = (.reply reply, s)) ∨
    ∃ address, Address.parse p.unicode forwardPath = .ok address ∧
      s.refuseRecipient address = none ∧ ∃ t : Transaction,
        (s.state = .receivingRecipients t.reversePath t.requireTls ∧
            t = ⟨t.reversePath, [], [], 0, [], t.requireTls, false⟩ ∨
          s.state = .receivingData t ∧ t.chunking = false ∧ t.recipients.length < maxRecipients) ∧
        s.rcptTo p forwardPath notify =
          (.reply .ok,
            { s with state := .receivingData (addRecipient address.toText notify t) }) := by
  unfold Session.rcptTo
  split
  · exact .inl ⟨_, by decide, rfl⟩
  · rename_i address hparse
    split
    · rename_i reply hrefuse
      exact .inl ⟨reply, by rw [refuseRecipient_code hrefuse]; decide, rfl⟩
    · rename_i hrefuse
      extract_lets recipient noDsn
      split
      · rename_i reversePath requireTls hstate
        exact .inr ⟨address, hparse, hrefuse, ⟨reversePath, [], [], 0, [], requireTls, false⟩,
          Or.inl ⟨hstate, rfl⟩, rfl⟩
      · rename_i t hstate
        split
        · rename_i hempty
          split
          · exact .inl ⟨_, by decide, rfl⟩
          · rename_i hlength
            have hchunking : t.chunking = false := by
              rw [Bool.and_eq_true] at hempty
              simpa using hempty.2
            exact .inr ⟨address, hparse, hrefuse, t,
              Or.inr ⟨hstate, hchunking, Nat.lt_of_not_le hlength⟩, rfl⟩
        · exact .inl ⟨_, by decide, rfl⟩
      · exact .inl ⟨_, by decide, rfl⟩

def addAddress (address : Address) (log : Log) : Log :=
  { log with recipients := log.recipients ++ [address] }

theorem Envelope.addRecipient {notify : Option Notify}
    (hatMost : t.recipients.length < maxRecipients)
    (hrecipients : t.recipients = log.recipients.map Address.toText)
    (hresolved : ∀ other ∈ (addAddress address log).recipients,
      isLocal (directory.resolve other) = true ∨ log.authenticated.isSome = true)
    (hnoDsn : t.noDsn.Sublist t.recipients) :
    Envelope directory (addAddress address log) (addRecipient address.toText notify t) where
  nonempty := by simp [Acceptance.addRecipient]
  atMost := by
    rw [Acceptance.addRecipient, List.length_append, List.length_singleton]
    exact hatMost
  recipients := by simp [Acceptance.addRecipient, addAddress, hrecipients]
  resolved := hresolved
  noDsn := by
    refine List.Sublist.append hnoDsn ?_
    split
    · exact .refl _
    · exact List.nil_sublist _

theorem Holds.next_rcptTo (h : Holds p directory s log .commands) (forwardPath : Text)
    (notify : Option Notify) :
    Next p directory
      (if accepted (s.rcptTo p forwardPath notify).1 then
        { log with recipients := log.recipients ++
          (Address.parse p.unicode forwardPath).toOption.toList } else log)
      (s.rcptTo p forwardPath notify) := by
  rcases rcptTo_cases p forwardPath notify s with
    ⟨reply, hcode, heq⟩ | ⟨address, hparse, hrefuse, t, hstate, heq⟩
  · rw [heq, if_neg (by simpa [accepted] using hcode)]
    exact h.next_reply reply
  · rw [heq, if_pos accepted_ok, hparse]
    have hnew := isLocal_of_refuseRecipient hrefuse
    rw [h.sameDirectory] at hnew
    have hok := h.state
    refine ⟨⟨h.sameDirectory, h.tls, nofun, ?_⟩, nofun⟩
    rcases hstate with ⟨hfirst, hfresh⟩ | ⟨hmore, hchunking, hlength⟩
    · -- the first recipient
      rw [StateOk, hfirst] at hok
      obtain ⟨hopened, hrecipients, hlines, hchunks⟩ := hok
      refine ⟨⟨hopened.authenticated, hopened.owned, hopened.requireTls⟩, ?_, ?_⟩
      · rw [← hopened.authenticated] at hnew
        rw [hfresh]
        exact Envelope.addRecipient (Nat.zero_lt_succ 99) (by rw [hrecipients]; rfl)
          (by simpa [addAddress, hrecipients] using hnew) (.refl _)
      · rw [hfresh]
        exact ⟨nofun, fun _ ↦ ⟨hchunks, by simp [addRecipient, joinLines, hlines],
          fun _ ↦ by simp [addRecipient, joinLines, hlines], fun _ ↦ hlines⟩⟩
    · rw [StateOk, hmore] at hok
      obtain ⟨hopened, henvelope, hbody⟩ := hok
      refine ⟨⟨hopened.authenticated, hopened.owned, hopened.requireTls⟩, ?_, ?_⟩
      · rw [← hopened.authenticated] at hnew
        refine Envelope.addRecipient hlength henvelope.recipients ?_ henvelope.noDsn
        intro other hother
        rcases List.mem_append.mp hother with hmem | hmem
        · exact henvelope.resolved other hmem
        · rw [List.mem_singleton.mp hmem]
          exact hnew
      · exact ⟨fun htrue ↦ absurd (htrue.symm.trans hchunking) nofun,
          fun _ ↦ hbody.lines hchunking⟩

/-! ### Message data -/

theorem Holds.next_data (h : Holds p directory s log .commands) : Next p directory log s.data := by
  unfold Session.data
  split
  · rename_i t hstate
    split
    · rename_i hempty
      have hchunking : t.chunking = false := by
        rw [Bool.and_eq_true] at hempty
        simpa using hempty.2
      have hok := h.state
      rw [StateOk, hstate] at hok
      obtain ⟨hopened, henvelope, hbody⟩ := hok
      obtain ⟨hchunks, hsize, hjoin, -⟩ := hbody.lines hchunking
      refine ⟨⟨h.sameDirectory, h.tls, nofun, ?_⟩, nofun⟩
      rw [StateOk, hstate]
      exact ⟨hopened, henvelope, ⟨fun htrue ↦ absurd (htrue.symm.trans hchunking) nofun,
        fun _ ↦ ⟨hchunks, hsize, hjoin, fun hmode ↦ absurd rfl hmode⟩⟩⟩
    · exact h.next_reply _
  · exact h.next_reply _

/-- The message of a transaction, once its data are known to be those of the log. -/
theorem Sound.of_transaction (hopened : Opened p directory s' log t.reversePath t.requireTls)
    (henvelope : Envelope directory log t)
    (hdata : t.body = joinLines log.lines ∧ log.chunks = [] ∨
      t.body = log.chunks.flatten ∧ log.lines = [])
    (hsize : t.body.length ≤ maxMessageSize) : Sound p directory s' log t.message where
  nonempty := henvelope.nonempty
  atMost := henvelope.atMost
  recipients := henvelope.recipients
  resolved := henvelope.resolved
  owned := hopened.owned
  requireTls := hopened.requireTls
  noDsn := henvelope.noDsn
  data := hdata
  size := hsize

theorem joinLines_append (lines : List Bytes) (line : Bytes) :
    joinLines (lines ++ [line]) = joinLines lines ++ Session.unstuff line ++ [0x0d, 0x0a] := by
  rw [joinLines, List.flatMap_append, List.flatMap_singleton, ← List.append_assoc, ← joinLines]

/-- A line of data is recorded; the final dot delivers the lines, if they are not too many. -/
theorem Holds.next_dataLine (h : Holds p directory s log .data) (line : Bytes) :
    let log' := if line = [0x2e] then log else { log with lines := log.lines ++ [line] }
    Holds p directory (s.dataLine line).2 log' ((s.dataLine line).1.elim .data modeAfter) ∧
      ∀ reply message, (s.dataLine line).1 = some (.deliver reply message) →
        Sound p directory (s.dataLine line).2 log' message ∧
          message.data = joinLines log.lines := by
  intro log'
  unfold Session.dataLine
  split
  · rename_i t hstate
    have hok := h.state
    rw [StateOk, hstate] at hok
    obtain ⟨hopened, henvelope, hbody⟩ := hok
    -- chunks are never read as lines
    have hchunking : t.chunking = false := by
      by_contra htrue
      exact (hbody.chunks (by simpa using htrue)).2.2.2 rfl
    obtain ⟨hchunks, hsize, hjoin, -⟩ := hbody.lines hchunking
    split
    · rename_i hdot
      have hlog : log' = log := if_pos hdot
      rw [hlog]
      refine ⟨holds_outside h.sameDirectory h.tls ?_ (.inl rfl), ?_⟩
      · intro hmode
        split at hmode <;> exact absurd hmode nofun
      · intro reply message hdeliver
        split at hdeliver
        · exact absurd hdeliver nofun
        · rename_i hfits
          have hfits : t.size ≤ maxMessageSize := Nat.le_of_not_lt hfits
          obtain ⟨-, rfl⟩ := Action.deliver.inj (Option.some.inj hdeliver)
          refine ⟨Sound.of_transaction ⟨hopened.authenticated, hopened.owned, hopened.requireTls⟩
            henvelope (.inl ⟨hjoin hfits, hchunks⟩) ?_, hjoin hfits⟩
          rw [hjoin hfits, ← hsize]
          exact hfits
    · rename_i hdot
      have hlog : log' = { log with lines := log.lines ++ [line] } := if_neg hdot
      rw [hlog]
      refine ⟨⟨h.sameDirectory, h.tls, nofun,
        ⟨hopened.authenticated, hopened.owned, hopened.requireTls⟩,
        ⟨henvelope.nonempty, henvelope.atMost, henvelope.recipients, henvelope.resolved,
          henvelope.noDsn⟩,
        ⟨fun htrue ↦ absurd (htrue.symm.trans hchunking) nofun, fun _ ↦
          ⟨hchunks, ?_, fun hfits ↦ ?_, fun hmode ↦ absurd rfl hmode⟩⟩⟩, nofun⟩
      · rw [joinLines_append, List.length_append, List.length_append, ← hsize]
        rfl
      · -- the lines before were kept too, for the size only grows
        have hbefore : t.size ≤ maxMessageSize := by
          have hgrow : t.size + (Session.unstuff line).length + 2 ≤ maxMessageSize := hfits
          omega
        rw [joinLines_append, ← hjoin hbefore]
        exact if_pos hfits
  · refine ⟨h.reset nofun, nofun⟩

/-- Before a chunk there are no lines, and the body is made of the chunks so far. -/
theorem Body.before_chunk {mode : Mode} (h : Body log t mode) (hmode : mode ≠ .data)
    (hsize : t.size ≤ maxMessageSize) :
    log.lines = [] ∧ t.body = log.chunks.flatten ∧ t.body.length = t.size := by
  cases hchunking : t.chunking with
  | true =>
    obtain ⟨hlines, hbody, hlength, -⟩ := h.chunks hchunking
    exact ⟨hlines, hbody, hlength⟩
  | false =>
    obtain ⟨hchunks, hlength, hjoin, hlines⟩ := h.lines hchunking
    have hbody : t.body = [] := by rw [hjoin hsize, hlines hmode]; rfl
    refine ⟨hlines hmode, ?_, ?_⟩
    · rw [hbody, hchunks]
      rfl
    · rw [hbody, hlength, hlines hmode]
      rfl

/-- A chunk is recorded, and the last one delivers the chunks, if they are not too many. -/
theorem Holds.next_bdatChunk {mode : Mode} (h : Holds p directory s log mode) (hmode : mode ≠ .data)
    (chunk : Bytes) (last : Bool) :
    Next p directory { log with chunks := log.chunks ++ [chunk] } (s.bdatChunk chunk last) := by
  unfold Session.bdatChunk
  split
  · rename_i t hstate
    extract_lets size t'
    have hok := h.state
    rw [StateOk, hstate] at hok
    obtain ⟨hopened, henvelope, hbody⟩ := hok
    have hopened' : Opened p directory { s with state := .greeted }
        { log with chunks := log.chunks ++ [chunk] } t'.reversePath t'.requireTls :=
      ⟨hopened.authenticated, hopened.owned, hopened.requireTls⟩
    have henvelope' : Envelope directory { log with chunks := log.chunks ++ [chunk] } t' :=
      ⟨henvelope.nonempty, henvelope.atMost, henvelope.recipients, henvelope.resolved,
        henvelope.noDsn⟩
    split
    · exact ⟨holds_outside h.sameDirectory h.tls nofun (.inl rfl), nofun⟩
    · rename_i hfits
      have hfits : size ≤ maxMessageSize := Nat.le_of_not_lt hfits
      obtain ⟨hlines, hbefore, hlength⟩ :=
        hbody.before_chunk hmode (Nat.le_trans (Nat.le_add_right _ _) hfits)
      have hbody' : t'.body = (log.chunks ++ [chunk]).flatten := by
        rw [List.flatten_append, List.flatten_singleton, ← hbefore]
      have hsize' : t'.body.length = size := by
        rw [show t'.body = t.body ++ chunk from rfl, List.length_append, hlength]
      split
      · refine ⟨holds_outside h.sameDirectory h.tls nofun (.inl rfl), ?_⟩
        intro reply message hdeliver
        obtain ⟨-, rfl⟩ := Action.deliver.inj hdeliver
        exact Sound.of_transaction hopened' henvelope' (.inr ⟨hbody', hlines⟩)
          (hsize' ▸ hfits)
      · exact ⟨⟨h.sameDirectory, h.tls, nofun,
          ⟨hopened.authenticated, hopened.owned, hopened.requireTls⟩, henvelope',
          ⟨fun _ ↦ ⟨hlines, hbody', hsize', nofun⟩, nofun⟩⟩, nofun⟩
  · exact ⟨h.reset nofun, nofun⟩

/-! ### Command lines -/

section

variable (h : Holds p directory s log .commands)
include h

theorem Holds.next_greet (domain : Text) (esmtp : Bool) :
    Next p directory log (s.greet domain esmtp) := by
  unfold Session.greet
  extract_lets s'
  have hs' : Holds p directory s' log .commands :=
    holds_outside h.sameDirectory h.tls nofun (.inl rfl)
  split <;> exact hs'.next_reply _

theorem Holds.next_startTls : Next p directory log s.startTls := by
  unfold Session.startTls
  split
  · exact h.next_reply _
  · split
    · exact ⟨h.of_commands nofun nofun, nofun⟩
    · exact h.next_reply _

theorem Holds.next_bdat (size : ℕ) (last : Bool) : Next p directory log (s.bdat size last) := by
  unfold Session.bdat
  split
  · exact ⟨h.reset nofun, nofun⟩
  · exact ⟨h.of_commands nofun nofun, nofun⟩

/-- A command line keeps the invariant, with the log that records it, and delivers nothing
unsound. -/
theorem Holds.next_commandLine (env : Env) (line : Text) :
    Next p directory (logCommand p s line (s.commandLine p env line).1 log)
      (s.commandLine p env line) := by
  unfold logCommand Session.commandLine
  cases Command.parse line with
  | error error => exact h.next_reply _
  | ok command =>
    cases command with
    | helo domain => exact h.next_greet domain false
    | ehlo domain => exact h.next_greet domain true
    | mailFrom reversePath size body requireTls ret envid =>
      exact h.next_mailFrom env reversePath size requireTls
    | rcptTo forwardPath notify orcpt => exact h.next_rcptTo forwardPath notify
    | data => exact h.next_data
    | bdat size last => exact h.next_bdat size last
    | rset => exact ⟨h.reset nofun, nofun⟩
    | noop => exact h.next_reply _
    | quit => exact ⟨h.of_commands nofun nofun, nofun⟩
    | vrfy => exact h.next_reply _
    | startTls => exact h.next_startTls
    | auth mechanism initial => exact h.next_auth env mechanism initial

end

end Steps

/-! ## Whole runs -/

section Runs

variable {p : Primitives} {directory : Directory} {w : World}

/-- Every input that the connection reads keeps the invariant, and what it delivers is sound. -/
theorem next_respond (h : Holds p directory w.session w.log w.mode) {input : Input}
    (hfits : Fits w.mode input) :
    Holds p directory (respond p w input).2.1 (respond p w input).2.2
        (nextMode w.mode input (respond p w input).1) ∧
      ∀ reply message, (respond p w input).1 = some (.deliver reply message) →
        Sound p directory (respond p w input).2.1 (respond p w input).2.2 message := by
  have hsome : ∀ {log : Log} {r : Session.Step}, Next p directory log r →
      Holds p directory r.2 log (nextMode w.mode input (some r.1)) ∧
        ∀ reply message, some r.1 = some (.deliver reply message) →
          Sound p directory r.2 log message :=
    fun hnext ↦ ⟨hnext.1, fun reply message heq ↦ hnext.2 reply message (Option.some.inj heq)⟩
  cases input with
  | command env line =>
    rw [fits_command.mp hfits] at h
    exact hsome (h.next_commandLine env line)
  | auth env line =>
    obtain ⟨hstate, htls⟩ := h.auth (fits_auth.mp hfits)
    exact hsome (h.next_authStep hstate htls (Auth.SmtpDesk.signs_authLine line w.session).1)
  | data line =>
    have hmode := fits_data.mp hfits
    rw [hmode] at h
    obtain ⟨hholds, hsound⟩ := h.next_dataLine line
    refine ⟨?_, fun reply message hdeliver ↦ (hsound reply message hdeliver).1⟩
    simp only [respond]
    cases haction : (w.session.dataLine line).1 with
    | none =>
      rw [haction] at hholds
      rwa [show nextMode w.mode (.data line) none = .data from hmode]
    | some action => rwa [haction] at hholds
  | chunk bytes =>
    obtain ⟨last, hmode⟩ := fits_chunk.mp hfits
    exact hsome (h.next_bdatChunk (by rw [hmode]; nofun) bytes _)
  | tlsStarted identity =>
    exact ⟨holds_outside h.sameDirectory (fun _ ↦ rfl) nofun (.inr rfl), nofun⟩

def initial (s : Session) : World := ⟨s, .commands, .empty⟩

theorem holds_of_reach {guard : World → Input → Prop} {s₀ : Session}
    (hstate : s₀.state = .connected) (hauthenticated : s₀.authenticated = none)
    (h : (machine p).Reach guard (initial s₀) w) :
    Holds p s₀.directory w.session w.log w.mode := by
  refine Machine.Reach.invariant (I := fun w ↦ Holds p s₀.directory w.session w.log w.mode) ?_ ?_ h
  · exact holds_outside rfl (by rw [initial, hauthenticated]; nofun) nofun (.inr hstate)
  · intro w input hw hfits _
    exact (next_respond hw hfits).1

def SameUser (s s' : Session) : Prop :=
  s'.directory = s.directory ∧ s'.authenticated = s.authenticated

theorem sameUser_reset (s : Session) : SameUser s s.reset :=
  ⟨(reset_frame s).1, (reset_frame s).2.1⟩

/-- The step leaves the user alone, and neither delivers nor asks for a chunk. -/
def Plain (s : Session) (r : Session.Step) : Prop := SameUser s r.2 ∧ isQuiet r.1 = true

theorem plain_greet (domain : Text) (esmtp : Bool) (s : Session) :
    Plain s (s.greet domain esmtp) := by
  unfold Session.greet
  extract_lets s'
  split <;> exact ⟨⟨rfl, rfl⟩, rfl⟩

theorem plain_data (s : Session) : Plain s s.data := by
  unfold Session.data
  split
  · split <;> exact ⟨⟨rfl, rfl⟩, rfl⟩
  · exact ⟨⟨rfl, rfl⟩, rfl⟩

theorem plain_startTls (s : Session) : Plain s s.startTls := by
  unfold Session.startTls
  split
  · exact ⟨⟨rfl, rfl⟩, rfl⟩
  · split <;> exact ⟨⟨rfl, rfl⟩, rfl⟩

theorem plain_mailFrom (env : Env) (reversePath : Text) (size : Option ℕ) (requireTls : Bool)
    (s : Session) : Plain s (s.mailFrom p env reversePath size requireTls) := by
  rcases mailFrom_cases p env reversePath size requireTls s with ⟨reply, -, heq⟩ | ⟨-, -, heq⟩ <;>
  · rw [heq]
    exact ⟨⟨rfl, rfl⟩, rfl⟩

theorem plain_rcptTo (forwardPath : Text) (notify : Option Notify) (s : Session) :
    Plain s (s.rcptTo p forwardPath notify) := by
  rcases rcptTo_cases p forwardPath notify s with ⟨reply, -, heq⟩ | ⟨address, -, -, t, -, heq⟩ <;>
  · rw [heq]
    exact ⟨⟨rfl, rfl⟩, rfl⟩

theorem dataLine_spec (line : Bytes) (s : Session) : SameUser s (s.dataLine line).2 ∧
    ∀ size last, (s.dataLine line).1 ≠ some (.collectChunk size last) := by
  unfold Session.dataLine
  split
  · split
    · refine ⟨⟨rfl, rfl⟩, ?_⟩
      split <;> exact nofun
    · exact ⟨⟨rfl, rfl⟩, nofun⟩
  · exact ⟨sameUser_reset s, nofun⟩

theorem bdatChunk_spec (chunk : Bytes) (last : Bool) (s : Session) :
    SameUser s (s.bdatChunk chunk last).2 ∧
      ((∃ reply, (s.bdatChunk chunk last).1 = .reply reply) ∨
        last = true ∧ ∃ t, s.state = .receivingData t ∧
          (s.bdatChunk chunk last).1 =
            .deliver .ok { t.message with data := t.body ++ chunk }) := by
  unfold Session.bdatChunk
  split
  · rename_i t hstate
    dsimp only
    split
    · exact ⟨⟨rfl, rfl⟩, .inl ⟨_, rfl⟩⟩
    · split
      · rename_i hlast
        exact ⟨⟨rfl, rfl⟩, .inr ⟨hlast, t, hstate, rfl⟩⟩
      · exact ⟨⟨rfl, rfl⟩, .inl ⟨_, rfl⟩⟩
  · exact ⟨sameUser_reset s, .inl ⟨_, rfl⟩⟩

/-- A command leaves the user alone and is quiet, unless it is `AUTH` or asks for a chunk. -/
theorem commandLine_cases (p : Primitives) (env : Env) (line : Text) (s : Session) :
    Plain s (s.commandLine p env line) ∨
      (∃ size last, Command.parse line = .ok (.bdat size last) ∧
        s.commandLine p env line = (.collectChunk size last, s)) ∨
      ∃ mechanism initial, Command.parse line = .ok (.auth mechanism initial) ∧
        s.commandLine p env line = s.auth p env mechanism initial := by
  unfold Session.commandLine
  cases Command.parse line with
  | error error => exact .inl ⟨⟨rfl, rfl⟩, rfl⟩
  | ok command =>
    dsimp only
    cases command with
    | auth mechanism initial => exact .inr (.inr ⟨mechanism, initial, rfl, rfl⟩)
    | helo domain => exact .inl (plain_greet domain false s)
    | ehlo domain => exact .inl (plain_greet domain true s)
    | mailFrom reversePath size body requireTls ret envid =>
      exact .inl (plain_mailFrom env reversePath size requireTls s)
    | rcptTo forwardPath notify orcpt => exact .inl (plain_rcptTo forwardPath notify s)
    | data => exact .inl (plain_data s)
    | bdat size last =>
      rw [Session.apply, Session.bdat]
      split
      · exact .inl ⟨sameUser_reset s, rfl⟩
      · exact .inr (.inl ⟨size, last, rfl, rfl⟩)
    | rset => exact .inl ⟨sameUser_reset s, rfl⟩
    | noop | quit | vrfy => exact .inl ⟨⟨rfl, rfl⟩, rfl⟩
    | startTls => exact .inl (plain_startTls s)

/-- A command sets the user only inside TLS. -/
theorem tlsActive_of_commandLine {s : Session} {env : Env} {line : Text}
    (h : (s.commandLine p env line).2.authenticated ≠ s.authenticated) : s.tlsActive = true := by
  rcases commandLine_cases p env line s with
    ⟨hsame, -⟩ | ⟨size, last, -, heq⟩ | ⟨mechanism, initial, -, heq⟩
  · exact absurd hsame.2 h
  · rw [heq] at h
    exact absurd rfl h
  · rw [heq] at h
    rcases Auth.SmtpDesk.auth_cases p env mechanism initial s with ⟨reply, hreply⟩ | ⟨-, htls, -⟩
    · rw [hreply] at h
      exact absurd rfl h
    · exact htls

/-- **What the session accepts is what the client has described.** Whatever the directory, whatever
the session begins with and whatever is fed to it: a delivered message is sound, and the user is set
only inside TLS. -/
theorem delivered_sound (p : Primitives) {s₀ : Session} (hstate : s₀.state = .connected)
    (hauthenticated : s₀.authenticated = none) {w : World}
    (hreach : (machine p).Reach (fun _ _ ↦ True) (initial s₀) w) (input : Input)
    (henabled : (machine p).enabled w input) :
    (∀ reply message, (respond p w input).1 = some (.deliver reply message) →
      Sound p s₀.directory ((machine p).step w input).session ((machine p).step w input).log
        message) ∧
    (((machine p).step w input).session.authenticated ≠ w.session.authenticated →
      w.session.tlsActive = true) := by
  have hholds := holds_of_reach hstate hauthenticated hreach
  refine ⟨(next_respond hholds henabled).2, fun hset ↦ ?_⟩
  cases input with
  | command env line => exact tlsActive_of_commandLine hset
  | auth env line => exact (hholds.auth (fits_auth.mp henabled)).2
  | data line => exact absurd (dataLine_spec line w.session).1.2 hset
  | chunk bytes => exact absurd (bdatChunk_spec bytes _ w.session).1.2 hset
  | tlsStarted identity => exact absurd rfl hset

def oneAccount : Session :=
  { Session.new "mx.b".toList with
    directory := { Directory.empty with
      domains := ["b.net".toList]
      accountsByAddress := AList.insert "u@b.net".toList "u".toList ∅ } }

/-- A client sends a message of one line, and is about to end it. -/
def messageRun : List Input :=
  [.command .plain "EHLO c.org".toList, .command .plain "MAIL FROM:<v@c.org>".toList,
    .command .plain "RCPT TO:<U@b.net>".toList, .command .plain "DATA".toList,
    .data (encodeUtf8 "..hi".toList)]

theorem delivered_sound_messageRun :
    let w := messageRun.foldl (machine .plain).step (initial oneAccount)
    (∀ reply message, (respond .plain w (.data [0x2e])).1 = some (.deliver reply message) →
      Sound .plain oneAccount.directory ((machine .plain).step w (.data [0x2e])).session
        ((machine .plain).step w (.data [0x2e])).log message) ∧
    (respond .plain w (.data [0x2e])).1 = some (.deliver .ok
      ⟨"v@c.org".toList, ["U@b.net".toList], encodeUtf8 ".hi\r\n".toList, false, none, []⟩) :=
  ⟨(delivered_sound .plain rfl rfl (.of_passes (by decide)) (.data [0x2e])
    (by decide)).1, by decide⟩

end Runs

end Acceptance

end Epistle.Smtp
