import Epistle.Smtp.Scram

/-!
# The SMTP client

One conversation hands a message to a remote server: the greeting, `EHLO`, `STARTTLS` if the remote
offers it, `AUTH` for a relay, `MAIL`, one `RCPT` for each recipient, `DATA` and the content. The
first reply that is not the expected one ends the attempt. What the remote answers is a function of
what it has been sent; the transcript of a conversation pairs each command with its answer.
-/

namespace Epistle.Queue

open TextFormat

inductive DeliveryError
  | transient (reason : Text)
  | permanent (reason : Text)
  deriving DecidableEq, Repr

/-- How certificates are checked when nothing mandates TLS. -/
inductive OutboundTls
  | strict
  | opportunistic
  deriving DecidableEq, Repr

/-- What the client sends, and waits for an answer. -/
inductive Sent
  /-- Nothing: the greeting is awaited. -/
  | connect
  | ehlo (hostname : Text)
  | startTls
  | authPlain (token : Text)
  | mailFrom (reversePath : Text)
  | rcptTo (recipient : Text)
  | data
  | content (wire : Bytes)
  deriving DecidableEq, Repr

inductive Answer
  | reply (code : ℕ) (text : Text)
  /-- The connection failed, or the reply cannot be read. -/
  | broken (reason : Text)
  deriving DecidableEq, Repr

structure Peer where
  /-- The answer to the last of the commands. -/
  answer : List Sent → Answer
  /-- The TLS handshake, with the certificate authenticated or not. -/
  handshake : Bool → Except Text Unit
  /-- The certificate matches a TLSA record. -/
  daneMatches : Bool

abbrev Transcript : Type := List (Sent × Answer)

/-- A part of a conversation. -/
def Talk (α : Type) : Type := Transcript → Transcript × Except DeliveryError α

namespace Talk

variable {α β : Type}

instance : Monad Talk where
  pure a := fun transcript ↦ (transcript, .ok a)
  bind talk next := fun transcript ↦
    match talk transcript with
    | (transcript, .ok a) => next a transcript
    | (transcript, .error error) => (transcript, .error error)

def fail (error : DeliveryError) : Talk α := fun transcript ↦ (transcript, .error error)

end Talk

/-- An answer that is not the expected one. -/
def DeliveryError.fromReply (code : ℕ) (line : Text) : DeliveryError :=
  if code ≥ 500 then .permanent (decimal code ++ ' ' :: line)
  else .transient (decimal code ++ ' ' :: line)

/-- Send a command and require a code in the answer. -/
def command (peer : Peer) (sent : Sent) (expected : ℕ) : Talk Text := fun transcript ↦
  let answer := peer.answer (transcript.map Prod.fst ++ [sent])
  (transcript ++ [(sent, answer)],
    match answer with
    | .broken reason => .error (.transient reason)
    | .reply code text =>
      if code ≠ expected then .error (.fromReply code text) else .ok text)

/-- Protect the lines that begin with a dot. -/
def stuff (atStart : Bool) : Bytes → Bytes
  | [] => []
  | b :: rest =>
    if atStart && b == 0x2e then 0x2e :: b :: stuff false rest else b :: stuff (b == 0x0a) rest

/-- The message on the wire, with its end. -/
def wireOf (data : Bytes) : Bytes :=
  let wire := stuff true data
  (if [0x0a, 0x0d].isPrefixOf wire.reverse then wire else wire ++ [0x0d, 0x0a]) ++
    [0x2e, 0x0d, 0x0a]

/-- A text stands in another. -/
def contains (needle : Text) (t : Text) : Bool := t.tails.any needle.isPrefixOf

/-- Upgrade the connection if the remote offers it. The answer says whether TLS is active. -/
def negotiateTls (peer : Peer) (serverName ehloHostname : Text) (requireTls tlsa : Bool)
    (mode : OutboundTls) : Talk Bool := do
  let greeting ← command peer (.ehlo ehloHostname) 250
  let offersStarttls := contains "STARTTLS".toList greeting
  if (requireTls || tlsa) && !offersStarttls then
    Talk.fail (.transient "TLS required (MTA-STS/DANE) but remote offers no STARTTLS".toList)
  else if offersStarttls then do
    let _ ← command peer .startTls 220
    let authenticatePkix := requireTls || (!tlsa && mode == .strict)
    match peer.handshake authenticatePkix with
    | .error reason => Talk.fail (.transient reason)
    | .ok () =>
      if tlsa && !peer.daneMatches then
        Talk.fail (.transient
          ("DANE: no TLSA record matches the certificate of ".toList ++ serverName))
      else do
        let _ ← command peer (.ehlo ehloHostname) 250
        pure true
  else pure false

def authenticate (p : Smtp.Primitives) (peer : Peer) (auth : Option (Text × Text))
    (tlsActive : Bool) :
    Talk Unit :=
  match auth with
  | none => pure ()
  | some (username, password) =>
    if !tlsActive then
      Talk.fail (.permanent "relay AUTH requested but smarthost offered no STARTTLS".toList)
    else do
      let token := p.base64Encode (encodeUtf8 ('\x00' :: username ++ '\x00' :: password))
      let _ ← command peer (.authPlain token) 235
      pure ()

def nameRecipients (peer : Peer) : List Text → Talk Unit
  | [] => pure ()
  | recipient :: recipients => do
    let _ ← command peer (.rcptTo recipient) 250
    nameRecipients peer recipients

def deliver (p : Smtp.Primitives) (peer : Peer) (serverName ehloHostname reversePath : Text)
    (recipients : List Text) (data : Bytes) (requireTls : Bool) (auth : Option (Text × Text))
    (tlsa : Bool) (mode : OutboundTls) : Talk Unit := do
  let _ ← command peer .connect 220
  let tlsActive ← negotiateTls peer serverName ehloHostname requireTls tlsa mode
  authenticate p peer auth tlsActive
  let _ ← command peer (.mailFrom reversePath) 250
  nameRecipients peer recipients
  let _ ← command peer .data 354
  let _ ← command peer (.content (wireOf data)) 250
  pure ()

/-! ## Conversations that succeed -/

section

variable {α β : Type} {peer : Peer} {transcript after : Transcript}

theorem Talk.bind_ok {talk : Talk α} {next : α → Talk β} {b : β}
    (h : (talk >>= next) transcript = (after, .ok b)) :
    ∃ mid a, talk transcript = (mid, .ok a) ∧ next a mid = (after, .ok b) := by
  change (match talk transcript with
    | (transcript, .ok a) => next a transcript
    | (transcript, .error error) => (transcript, .error error)) = (after, .ok b) at h
  split at h
  next mid a heq => exact ⟨mid, a, heq, h⟩
  next => cases h

/-- The answer to a command that succeeds has the code. -/
theorem command_ok {sent : Sent} {expected : ℕ} {text : Text}
    (h : command peer sent expected transcript = (after, .ok text)) :
    after = transcript ++ [(sent, .reply expected text)] := by
  rw [command] at h
  cases hanswer : peer.answer (transcript.map Prod.fst ++ [sent]) with
  | broken reason =>
    rw [hanswer] at h
    cases h
  | reply code line =>
    rw [hanswer] at h
    dsimp only at h
    split at h
    · cases h
    · next hcode =>
      cases h
      rw [not_not.mp hcode]

theorem nameRecipients_ok {recipients : List Text} :
    ∀ {transcript : Transcript}, nameRecipients peer recipients transcript = (after, .ok ()) →
      transcript <+: after ∧ ∀ recipient ∈ recipients, ∃ text,
        (.rcptTo recipient, .reply 250 text) ∈ after := by
  induction recipients with
  | nil =>
    intro transcript h
    obtain rfl := (Prod.mk.inj h).1
    exact ⟨List.prefix_rfl, nofun⟩
  | cons first recipients ih =>
    intro transcript h
    obtain ⟨mid, text, hfirst, hrest⟩ := Talk.bind_ok h
    obtain rfl := command_ok hfirst
    obtain ⟨hstart, hall⟩ := ih hrest
    refine ⟨(List.prefix_append _ _).trans hstart, fun recipient hmem ↦ ?_⟩
    rcases List.mem_cons.mp hmem with rfl | hmem
    · exact ⟨text, hstart.subset (List.mem_append_right _ List.mem_cons_self)⟩
    · exact hall recipient hmem

/-- **A delivery that succeeds** has every recipient taken, and ends with the final 250. -/
theorem deliver_ok {p : Smtp.Primitives} {serverName ehloHostname reversePath : Text}
    {recipients : List Text} {data : Bytes} {requireTls tlsa : Bool} {auth : Option (Text × Text)}
    {mode : OutboundTls} (h : deliver p peer serverName ehloHostname reversePath recipients data
      requireTls auth tlsa mode transcript = (after, .ok ())) :
    (∀ recipient ∈ recipients, ∃ text, (.rcptTo recipient, .reply 250 text) ∈ after) ∧
      ∃ text, after.getLast? = some (.content (wireOf data), .reply 250 text) := by
  obtain ⟨_, _, -, h⟩ := Talk.bind_ok h
  obtain ⟨_, _, -, h⟩ := Talk.bind_ok h
  obtain ⟨_, _, -, h⟩ := Talk.bind_ok h
  obtain ⟨_, _, -, h⟩ := Talk.bind_ok h
  obtain ⟨named, _, hnamed, h⟩ := Talk.bind_ok h
  obtain ⟨begun, start, hdata, h⟩ := Talk.bind_ok h
  obtain ⟨done, text, hcontent, h⟩ := Talk.bind_ok h
  obtain rfl := (Prod.mk.inj h).1
  rw [command_ok hcontent, command_ok hdata]
  refine ⟨fun recipient hmem ↦ ?_, text, List.getLast?_concat⟩
  obtain ⟨line, hline⟩ := (nameRecipients_ok hnamed).2 recipient hmem
  exact ⟨line, List.mem_append_left _ (List.mem_append_left _ hline)⟩

end

end Epistle.Queue
