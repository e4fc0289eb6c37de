import Epistle.Smtp.Acceptance
import Epistle.Smtp.Line
import Epistle.Message.Header

/-!
# The connection

The loop of a connection cuts what it reads into lines, feeds them to the session and does what the
session says. The bytes of a `BDAT` chunk do not pass the line decoder: they are counted off. What
the client's stream is cut into by the network is no part of the protocol, so a read is an event of
its own, and so is each turn of the loop that takes a line.

Screening by blocklists, SPF, DKIM, DMARC, reputation and scanners, the trace headers, the sink and
the handshake are answers of the surroundings.
-/

namespace Epistle.Smtp

open TextFormat Interleaving
open Acceptance (fits_auth fits_data initial modeAfter nextMode respond)

/-! ## Received headers -/

def receivedHopLimit : ℕ := 100

def splitInclusive (sep : Char) : Text → List Text
  | [] => []
  | c :: t =>
    if c = sep then [c] :: splitInclusive sep t
    else match splitInclusive sep t with
      | [] => [[c]]
      | piece :: pieces => (c :: piece) :: pieces

/-- The first `n` bytes of a text. There are none such when a character stands across the cut, and
the program then panics. -/
def sliceTo : ℕ → Text → Option Text
  | 0, _ => some []
  | _ + 1, [] => none
  | n + 1, c :: t =>
    if c.utf8Size ≤ n + 1 then (sliceTo (n + 1 - c.utf8Size) t).map (c :: ·) else none

/-- Whether a line begins a `Received` header. -/
def isReceivedLine (line : Text) : Option Bool :=
  if line.head? = some ' ' ∨ line.head? = some '\t' ∨ utf8Len line < 9 then some false
  else (sliceTo 9 line).map fun start ↦ eqIgnoreAsciiCase start "received:".toList

/-- The number of `Received` headers, unless the program panics. -/
def receivedHopCount (p : Primitives) (data : Bytes) : Option ℕ :=
  ((splitInclusive '\n' (p.fromUtf8Lossy (headerBlock data))).mapM isReceivedLine).map
    (List.count true)

/-! ## The loop -/

def readBuffer : ℕ := 4096

/-- The number of error replies in a row that ends the connection. -/
def maxErrorStreak : ℕ := 20

/-- The reply to bytes that are no lines. -/
def lineErrorReply : LineError → Reply
  | .bareControlCharacter => .single 554 "5.5.2 bare CR or LF is not allowed, closing connection"
  | .tooLong => .single 500 "5.5.2 line too long, closing connection"
  | .nulByte => .single 554 "5.5.2 NUL byte received, closing connection"

namespace Connection

/-- What lines are taken for. -/
inductive Mode
  | commands
  | data
  | auth
  deriving DecidableEq

/-- What the loop is doing. -/
inductive Phase
  | lines
  /-- Reading the bytes of a chunk, of which some are there. -/
  | chunk (size : ℕ) (last : Bool) (collected : Bytes)
  | closed

/-- A message that went to the sink, as the client sent it, with the headers put before it. -/
structure Handed where
  headers : Bytes
  message : AcceptedMessage

/-- What the surroundings answer during a turn. -/
structure Answers where
  session : Env
  /-- Refuse a message, or let it pass with headers and the mailbox it is filed to. -/
  screen : AcceptedMessage → Except Reply (Bytes × Option Text)
  /-- The sink stores a message. -/
  stores : Bool
  /-- The handshake, which may fail, and the identity in the client's certificate. -/
  handshake : Option (Option Text)

structure Conn where
  session : Session
  mode : Mode
  /-- The bytes received and not yet taken. -/
  decoder : Bytes
  errorStreak : ℕ
  phase : Phase
  sent : List Reply
  /-- The messages given to the sink so far. -/
  handed : List Handed

/-- A connection that has just been opened and greeted. -/
def Conn.opened (s : Session) : Conn := ⟨s, .commands, [], 0, .lines, [s.greeting], []⟩

section Loop

variable (p : Primitives) (tls : Bool) (env : Answers)

namespace Conn

def send (reply : Reply) (c : Conn) : Conn := { c with sent := c.sent ++ [reply] }

def close (c : Conn) : Conn := { c with phase := .closed }

/-- A reply to a command. Too many errors in a row end the connection. -/
def reply (reply : Reply) (c : Conn) : Conn :=
  if reply.code ≥ 400 then
    if c.errorStreak + 1 ≥ maxErrorStreak then
      (c.send (.single 421 "4.7.0 too many errors, closing connection")).close
    else { c with errorStreak := c.errorStreak + 1 }.send reply
  else { c with errorStreak := 0 }.send reply

def deliver (reply : Reply) (message : AcceptedMessage) (c : Conn) : Conn :=
  match receivedHopCount p message.data with
  | none => c.close
  | some hops =>
    if hops ≥ receivedHopLimit then
      c.send (.single 554 "5.4.6 too many hops, this message is looping")
    else match env.screen message with
      | .error refusal => c.send refusal
      | .ok (headers, mailbox) =>
        { c with handed := c.handed ++ [(⟨headers, { message with mailbox }⟩ : Handed)] }.send
          (if env.stores then reply
            else .single 451 "4.3.0 temporary storage failure, try again")

/-- Start TLS. Bytes that came before the handshake are dropped. -/
def upgrade (reply : Reply) (c : Conn) : Conn :=
  if !tls then (c.send (.single 454 "4.7.0 TLS not available")).close
  else match env.handshake with
    | none => (c.send reply).close
    | some identity =>
      let session := c.session.tlsStarted identity
      { c.send reply with session, decoder := [] }.send session.greeting

/-- Do what the session says, once it does not ask for a chunk. -/
def settle (action : Action) (c : Conn) : Conn :=
  match action with
  | .reply reply => c.reply reply
  | .collectData reply => { c with mode := .data }.send reply
  | .collectAuthResponse reply => { c with mode := .auth }.send reply
  | .deliver reply message => c.deliver p env reply message
  | .upgradeTls reply => c.upgrade tls env reply
  | .close reply => (c.send reply).close
  -- never after a chunk
  | .collectChunk _ _ => c

/-- Go on with a chunk of which `collected` is there. -/
def collect (size : ℕ) (last : Bool) (collected : Bytes) (c : Conn) : Conn :=
  if collected.length < size then { c with phase := .chunk size last collected }
  else
    let r := c.session.bdatChunk collected last
    { c with session := r.2, phase := .lines }.settle p tls env r.1

/-- Do what the session says. A chunk begins with what is already there. -/
def dispatch (r : Session.Step) (c : Conn) : Conn :=
  let c := { c with session := r.2, mode := .commands }
  match r.1 with
  | .collectChunk size last =>
    { c with decoder := c.decoder.drop size }.collect p tls env size last (c.decoder.take size)
  | action => c.settle p tls env action

def takeLine (line : Bytes) (c : Conn) : Conn :=
  match c.mode with
  | .data =>
    match c.session.dataLine line with
    | (none, s) => { c with session := s }
    | (some action, s) => c.dispatch p tls env (action, s)
  | .commands =>
    match decodeUtf8 line with
    | none => c.send .syntaxError
    | some text => c.dispatch p tls env (c.session.commandLine p env.session text)
  | .auth =>
    match decodeUtf8 line with
    | none => (c.send (.single 501 "5.5.2 non-ASCII in AUTH response")).close
    | some text => c.dispatch p tls env (c.session.authLine p env.session text)

def turn (c : Conn) : Conn :=
  match nextLine c.decoder with
  | .error error => (c.send (lineErrorReply error)).close
  | .ok none => c
  | .ok (some (line, rest)) => { c with decoder := rest }.takeLine p tls env line

/-- The bytes of a read. What is too much for a chunk goes to the decoder. -/
def read (bytes : Bytes) (c : Conn) : Conn :=
  match c.phase with
  | .lines => { c with decoder := c.decoder ++ bytes }
  | .chunk size last collected =>
    let need := size - collected.length
    { c with decoder := c.decoder ++ bytes.drop need }.collect p tls env size last
      (collected ++ bytes.take need)
  | .closed => c

end Conn

end Loop

/-! ## Runs -/

/-- What can happen to a connection. -/
inductive Event
  | turn (env : Answers)
  | read (env : Answers) (bytes : Bytes)
  /-- The client is gone, or a read has failed or timed out. -/
  | stop

/-- The decoder has neither a line nor an error. -/
def Conn.waits (c : Conn) : Bool :=
  match nextLine c.decoder with
  | .ok none => true
  | _ => false

def Conn.allows (c : Conn) : Event → Bool
  | .turn _ =>
    match c.phase with
    | .lines => !c.waits
    | _ => false
  | .read _ bytes => !bytes.isEmpty && bytes.length ≤ readBuffer &&
    match c.phase with
    | .lines => c.waits
    | .chunk _ _ _ => true
    | .closed => false
  | .stop => true

theorem phase_of_allows_turn {c : Conn} {env : Answers} (h : c.allows (.turn env) = true) :
    c.phase = .lines := by
  rw [Conn.allows] at h
  split at h
  · assumption
  · exact absurd h nofun

def machine (p : Primitives) (tls : Bool) : Machine Conn Event where
  enabled := fun c event ↦ c.allows event = true
  step := fun c event ↦
    match event with
    | .turn env => c.turn p tls env
    | .read env bytes => c.read p tls env bytes
    | .stop => c.close

instance (p : Primitives) (tls : Bool) (c : Conn) (event : Event) :
    Decidable ((machine p tls).enabled c event) :=
  inferInstanceAs (Decidable (c.allows event = true))

/-! ## The connection follows the dialogue

Every turn and every read is nothing to the session, or one input of the dialogue, or two: a chunk
may be complete with its command, and a handshake follows the command that asks for it. The lines of
data that the dialogue is then fed are clean, because they come from the decoder. -/

section Dialogue

variable {p : Primitives} {tls : Bool} {env : Answers} {w₀ w : Acceptance.World} {c : Conn}

def FromDecoder (_ : Acceptance.World) : Acceptance.Input → Prop
  | .data line => CleanLine line
  | _ => True

/-- The dialogue's mode for a connection that is open. -/
def Conn.dialogueMode (c : Conn) : Acceptance.Mode :=
  match c.phase with
  | .chunk size last _ => .chunk size last
  | .closed => .closed
  | .lines =>
    match c.mode with
    | .commands => .commands
    | .data => .data
    | .auth => .auth

/-- A chunk that is being read is not complete. -/
def Conn.chunkOk (c : Conn) : Prop :=
  match c.phase with
  | .chunk size _ collected => collected.length < size ∧ c.mode = .commands
  | _ => True

/-- The dialogue is where the connection is. -/
structure Follows (w : Acceptance.World) (c : Conn) : Prop where
  session : w.session = c.session
  mode : w.mode = c.dialogueMode
  chunk : c.chunkOk

/-- The dialogue can be where the connection is, if this is open. -/
def Tracked (p : Primitives) (w₀ : Acceptance.World) (c : Conn) : Prop :=
  c.phase = .closed ∨ ∃ w, (Acceptance.machine p).Reach FromDecoder w₀ w ∧ Follows w c

/-- The surroundings let the message pass to the sink. -/
def Answers.admits (p : Primitives) (env : Answers) (message : AcceptedMessage) : Bool :=
  (receivedHopCount p message.data).any (· < receivedHopLimit) &&
    match env.screen message with
    | .ok _ => true
    | .error _ => false

theorem tracked_closed (h : c.phase = .closed) : Tracked p w₀ c := Or.inl h

section

variable (hreach : (Acceptance.machine p).Reach FromDecoder w₀ w) (hfollows : Follows w c)
  (reply : Reply)
include hreach hfollows

theorem tracked_reply : Tracked p w₀ (c.reply reply) := by
  unfold Conn.reply
  split
  · split
    · exact tracked_closed rfl
    · exact .inr ⟨w, hreach, hfollows.session, hfollows.mode, hfollows.chunk⟩
  · exact .inr ⟨w, hreach, hfollows.session, hfollows.mode, hfollows.chunk⟩

theorem tracked_deliver (message : AcceptedMessage) :
    Tracked p w₀ (c.deliver p env reply message) := by
  unfold Conn.deliver
  split
  · exact tracked_closed rfl
  · split
    · exact .inr ⟨w, hreach, hfollows.session, hfollows.mode, hfollows.chunk⟩
    · split <;> exact .inr ⟨w, hreach, hfollows.session, hfollows.mode, hfollows.chunk⟩

end

/-- What reading commands in phase `lines` looks like. -/
def Conn.idle (c : Conn) : Prop := c.phase = .lines ∧ c.mode = .commands

theorem Conn.idle.follows (h : c.idle) (hsession : w.session = c.session)
    (hmode : w.mode = .commands) : Follows w c := by
  refine ⟨hsession, ?_, ?_⟩
  · rw [hmode, Conn.dialogueMode, h.1]
    simp only [h.2]
  · rw [Conn.chunkOk, h.1]
    trivial

theorem tracked_settle (hreach : (Acceptance.machine p).Reach FromDecoder w₀ w) (hidle : c.idle)
    (hsession : w.session = c.session) {action : Action}
    (hmode : w.mode = Acceptance.modeAfter action)
    (hchunk : ∀ size last, action ≠ .collectChunk size last) :
    Tracked p w₀ (c.settle p tls env action) := by
  cases action with
  | reply reply => exact tracked_reply hreach (hidle.follows hsession hmode) reply
  | collectData reply =>
    refine .inr ⟨w, hreach, hsession, ?_, ?_⟩
    · rw [hmode, Conn.dialogueMode]
      simp only [Conn.settle, Conn.send, hidle.1]
      rfl
    · simp only [Conn.chunkOk, Conn.settle, Conn.send, hidle.1]
  | collectChunk size last => exact absurd rfl (hchunk size last)
  | deliver reply message =>
    exact tracked_deliver hreach (hidle.follows hsession hmode) reply message
  | upgradeTls reply =>
    simp only [Conn.settle, Conn.upgrade]
    split
    · exact tracked_closed rfl
    · split
      · exact tracked_closed rfl
      · rename_i identity _
        have henabled : (Acceptance.machine p).enabled w (.tlsStarted identity) := by
          change Acceptance.Fits w.mode _
          rw [hmode]
          trivial
        refine .inr ⟨_, hreach.step henabled trivial, ?_, ?_, ?_⟩
        · exact congrArg (Session.tlsStarted identity) hsession
        · simp only [Conn.dialogueMode, Conn.send, hidle.1, hidle.2]
          rfl
        · simp only [Conn.chunkOk, Conn.send, hidle.1]
  | collectAuthResponse reply =>
    refine .inr ⟨w, hreach, hsession, ?_, ?_⟩
    · rw [hmode, Conn.dialogueMode]
      simp only [Conn.settle, Conn.send, hidle.1]
      rfl
    · simp only [Conn.chunkOk, Conn.settle, Conn.send, hidle.1]
  | close reply => exact tracked_closed rfl

theorem bdatChunk_ne_collectChunk (s : Session) (chunk : Bytes) (last : Bool) (size : ℕ)
    (again : Bool) : (s.bdatChunk chunk last).1 ≠ .collectChunk size again := by
  rcases (Acceptance.bdatChunk_spec chunk last s).2 with ⟨reply, heq⟩ | ⟨-, t, -, heq⟩ <;>
  · rw [heq]
    nofun

section

variable (hreach : (Acceptance.machine p).Reach FromDecoder w₀ w)
include hreach

theorem tracked_collect (hsession : w.session = c.session) {size : ℕ} {last : Bool}
    {collected : Bytes} (hmode : w.mode = .chunk size last) (hcommands : c.mode = .commands)
    (hlength : collected.length ≤ size) :
    Tracked p w₀ (c.collect p tls env size last collected) := by
  unfold Conn.collect
  split
  · rename_i hless
    exact .inr ⟨w, hreach, hsession, hmode, hless, hcommands⟩
  · rename_i hless
    have henabled : (Acceptance.machine p).enabled w (.chunk collected) := by
      change Acceptance.Fits w.mode _
      rw [hmode]
      exact Nat.le_antisymm hlength (Nat.le_of_not_lt hless)
    have hrespond : (Acceptance.machine p).step w (.chunk collected) =
        ⟨(c.session.bdatChunk collected last).2,
          modeAfter (c.session.bdatChunk collected last).1,
          { w.log with chunks := w.log.chunks ++ [collected] }⟩ := by
      simp only [Acceptance.machine, respond, hmode, hsession]
      rfl
    let c' : Conn := { c with session := (c.session.bdatChunk collected last).2, phase := .lines }
    refine tracked_settle (c := c') (hreach.step henabled trivial) ⟨rfl, hcommands⟩ ?_ ?_
      (bdatChunk_ne_collectChunk _ _ _)
    · rw [hrespond]
    · rw [hrespond]

/-- Whatever the session says, the dialogue goes along. -/
theorem tracked_dispatch (hphase : c.phase = .lines) {r : Session.Step} (hsession : w.session = r.2)
    (hmode : w.mode = Acceptance.modeAfter r.1) : Tracked p w₀ (c.dispatch p tls env r) := by
  obtain ⟨action, s⟩ := r
  have hsettle : (∀ size last, action ≠ .collectChunk size last) →
      Tracked p w₀ ({ c with session := s, mode := .commands }.settle p tls env action) :=
    fun hchunk ↦ tracked_settle (c := { c with session := s, mode := .commands }) hreach
      ⟨hphase, rfl⟩ hsession hmode hchunk
  cases action with
  | collectChunk size last =>
    let c' : Conn := { c with session := s, mode := .commands, decoder := c.decoder.drop size }
    exact tracked_collect (c := c') hreach hsession hmode rfl (List.length_take_le _ _)
  | reply reply | collectData reply | deliver reply message | upgradeTls reply
  | collectAuthResponse reply | close reply => exact hsettle nofun

theorem tracked_takeLine (hfollows : Follows w c) (hphase : c.phase = .lines) {line : Bytes}
    (hclean : CleanLine line) : Tracked p w₀ (c.takeLine p tls env line) := by
  have hmode := hfollows.mode
  rw [Conn.dialogueMode, hphase] at hmode
  unfold Conn.takeLine
  split
  · -- a line of data
    rename_i hdata
    rw [hdata] at hmode
    have henabled : (Acceptance.machine p).enabled w (.data line) := fits_data.mpr hmode
    have hnext := hreach.step henabled hclean
    split
    · rename_i s heq
      refine .inr ⟨_, hnext, ?_, ?_, ?_⟩
      · simp only [Acceptance.machine, respond, hfollows.session, heq]
      · simp only [Acceptance.machine, respond, hfollows.session, heq, nextMode,
          hmode, Conn.dialogueMode, hphase, hdata]
      · simp only [Conn.chunkOk, hphase]
    · rename_i action s heq
      refine tracked_dispatch hnext hphase ?_ ?_
      · simp only [Acceptance.machine, respond, hfollows.session, heq]
      · simp only [Acceptance.machine, respond, hfollows.session, heq, nextMode]
  · rename_i hcommands
    rw [hcommands] at hmode
    split
    · exact .inr ⟨w, hreach, hfollows.session, hfollows.mode, hfollows.chunk⟩
    · rename_i text _
      have henabled : (Acceptance.machine p).enabled w (.command env.session text) :=
        Acceptance.fits_command.mpr hmode
      refine tracked_dispatch (hreach.step henabled trivial) hphase ?_ ?_
      · simp only [Acceptance.machine, respond, hfollows.session]
      · simp only [Acceptance.machine, respond, hfollows.session, nextMode]
  · rename_i hauth
    rw [hauth] at hmode
    split
    · exact tracked_closed rfl
    · rename_i text _
      have henabled : (Acceptance.machine p).enabled w (.auth env.session text) :=
        fits_auth.mpr hmode
      refine tracked_dispatch (hreach.step henabled trivial) hphase ?_ ?_
      · simp only [Acceptance.machine, respond, hfollows.session]
      · simp only [Acceptance.machine, respond, hfollows.session, nextMode]

end

theorem Tracked.step (h : Tracked p w₀ c) {event : Event} (henabled : c.allows event = true) :
    Tracked p w₀ ((machine p tls).step c event) := by
  rcases h with hclosed | ⟨w, hreach, hfollows⟩
  · cases event with
    | turn env | read env bytes => simp [Conn.allows, hclosed] at henabled
    | stop => exact tracked_closed rfl
  cases event with
  | turn env =>
    have hphase := phase_of_allows_turn henabled
    simp only [machine, Conn.turn]
    split
    · exact tracked_closed rfl
    · exact .inr ⟨w, hreach, hfollows⟩
    · rename_i line rest hnext
      exact tracked_takeLine (c := { c with decoder := rest }) hreach
        ⟨hfollows.session, hfollows.mode, hfollows.chunk⟩ hphase (nextLine_spec hnext).2.1
  | read env bytes =>
    simp only [machine, Conn.read]
    split
    · exact .inr ⟨w, hreach, hfollows.session, hfollows.mode, hfollows.chunk⟩
    · rename_i size last collected hphase
      have hmode := hfollows.mode
      rw [Conn.dialogueMode, hphase] at hmode
      have hchunk := hfollows.chunk
      rw [Conn.chunkOk, hphase] at hchunk
      refine tracked_collect
        (c := { c with decoder := c.decoder ++ bytes.drop (size - collected.length) })
        hreach hfollows.session hmode hchunk.2 ?_
      have hneed : (bytes.take (size - collected.length)).length ≤ size - collected.length :=
        List.length_take_le _ _
      rw [List.length_append]
      omega
    · exact .inr ⟨w, hreach, hfollows⟩
  | stop => exact tracked_closed rfl

/-- **The connection follows the dialogue**: however the client's bytes are cut into reads, the
session of an open connection is one that the dialogue reaches by clean lines. -/
theorem tracked_of_reach {guard : Conn → Event → Prop} {s₀ : Session}
    (h : (machine p tls).Reach guard (.opened s₀) c) : Tracked p (Acceptance.initial s₀) c := by
  refine Machine.Reach.invariant (I := Tracked p (initial s₀)) ?_ ?_ h
  · exact .inr ⟨_, .refl, rfl, rfl, trivial⟩
  · intro c event hc henabled _
    exact hc.step henabled

end Dialogue

end Connection

end Epistle.Smtp
