import Epistle.Smtp.Connection

/-!
# Smuggling

A message that reaches the sink through `DATA` is made of clean lines: the decoder rejects
everything else, and taking away a dot keeps a line clean. The bytes of `BDAT` chunks do not pass
the decoder, and nothing looks at them. So a message is made of clean lines in every run in which
the chunks of each message, joined, are (`handed_crlfLines`), and a client can smuggle a bare LF
with a single chunk (`bareLineFeed_handed`).
-/

namespace Epistle.Smtp

open TextFormat Interleaving
open Acceptance (isQuiet)

/-! ## Lines of data -/

namespace Acceptance

variable {p : Primitives} {directory : Directory} {s : Session} {log : Log} {w : World}

variable {line : Bytes}

theorem clean_unstuff (h : CleanLine line) : CleanLine (Session.unstuff line) := by
  unfold Session.unstuff
  split
  · exact fun b hb ↦ h b (List.mem_cons_of_mem _ hb)
  · exact h

theorem crlfLines_joinLines {lines : List Bytes} (h : ∀ line ∈ lines, CleanLine line) :
    CrlfLines (joinLines lines) := by
  refine ⟨lines.map Session.unstuff, ?_, ?_⟩
  · intro content hcontent
    obtain ⟨line, hline, rfl⟩ := List.mem_map.mp hcontent
    exact clean_unstuff (h line hline)
  · rw [List.flatMap_map]
    rfl

theorem logCommand_lines (p : Primitives) (s : Session) (line : Text) (action : Action)
    (log : Log) :
    (logCommand p s line action log).lines = log.lines ∨
      (logCommand p s line action log).lines = [] := by
  unfold logCommand
  split
  · split
    · exact .inr rfl
    · exact .inl rfl
  · split <;> exact .inl rfl
  · exact .inl rfl

theorem clean_of_reach {w₀ : World} (hw₀ : w₀.log.lines = [])
    (h : (machine p).Reach Connection.FromDecoder w₀ w) : ∀ line ∈ w.log.lines, CleanLine line := by
  refine Machine.Reach.invariant (I := fun w ↦ ∀ line ∈ w.log.lines, CleanLine line) ?_ ?_ h
  · rw [hw₀]
    exact nofun
  · intro w input hw _ hguard
    cases input with
    | command env line =>
      change ∀ other ∈ (logCommand p w.session line _ w.log).lines, CleanLine other
      rcases logCommand_lines p w.session line _ w.log with heq | heq
      · rwa [heq]
      · rw [heq]
        exact nofun
    | auth env line => exact hw
    | data line =>
      change ∀ other ∈ Log.lines (if line = [0x2e] then w.log else _), CleanLine other
      split
      · exact hw
      · intro other hother
        rcases List.mem_append.mp hother with hother | hother
        · exact hw other hother
        · rw [List.mem_singleton.mp hother]
          exact hguard
    | chunk bytes | tlsStarted identity => exact hw

end Acceptance

/-! ## What reaches the sink -/

namespace Connection

variable {p : Primitives} {tls : Bool} {env : Answers} {c : Conn}

/-- The connection has given the sink nothing new, or the message, which the surroundings let
pass. -/
def Hands (p : Primitives) (env : Answers) (c c' : Conn)
    (message : AcceptedMessage → Prop) : Prop :=
  c'.handed = c.handed ∨ ∃ m handed, message m ∧ env.admits p m = true ∧
    handed.message.data = m.data ∧ c'.handed = c.handed ++ [handed]

variable {c' : Conn} {chunk : Bytes} {message : AcceptedMessage}

theorem Hands.mono {P Q : AcceptedMessage → Prop} (h : Hands p env c c' P)
    (hPQ : ∀ m, env.admits p m = true → P m → Q m) : Hands p env c c' Q := by
  rcases h with hsame | ⟨m, handed, hm, hadmits, hrest⟩
  · exact .inl hsame
  · exact .inr ⟨m, handed, hPQ m hadmits hm, hadmits, hrest⟩

theorem hands_reply (reply : Reply) (P : AcceptedMessage → Prop) :
    Hands p env c (c.reply reply) P := by
  unfold Conn.reply
  split
  · split <;> exact .inl rfl
  · exact .inl rfl

theorem hands_deliver (reply : Reply) (message : AcceptedMessage) :
    Hands p env c (c.deliver p env reply message) (· = message) := by
  unfold Conn.deliver
  split
  · exact .inl rfl
  · rename_i hops hcount
    split
    · exact .inl rfl
    · rename_i hlimit
      split
      · exact .inl rfl
      · rename_i headers mailbox hscreen
        refine .inr ⟨message, ⟨headers, { message with mailbox }⟩, rfl, ?_, rfl, rfl⟩
        simp [Answers.admits, hcount, hscreen, Nat.lt_of_not_le hlimit]

theorem hands_settle (p : Primitives) (tls : Bool) (env : Answers) (c : Conn) (action : Action) :
    Hands p env c (c.settle p tls env action) fun m ↦ ∃ reply, action = .deliver reply m := by
  cases action with
  | reply reply => exact hands_reply reply _
  | deliver reply message =>
    exact (hands_deliver reply message).mono fun m _ hm ↦ ⟨reply, by rw [hm]⟩
  | upgradeTls reply =>
    simp only [Conn.settle, Conn.upgrade]
    split
    · exact .inl rfl
    · split <;> exact .inl rfl
  | collectData reply | collectChunk size last | collectAuthResponse reply | close reply =>
    exact .inl rfl

theorem bdatChunk_deliver {s : Session} {last : Bool} {reply : Reply}
    (h : (s.bdatChunk chunk last).1 = .deliver reply message) :
    last = true ∧ ∃ t, s.state = .receivingData t ∧
      message = { t.message with data := t.body ++ chunk } := by
  rcases (Acceptance.bdatChunk_spec chunk last s).2 with ⟨answer, heq⟩ | ⟨hlast, t, hstate, heq⟩
  · exact absurd (heq.symm.trans h) nofun
  · exact ⟨hlast, t, hstate, (Action.deliver.inj (heq.symm.trans h)).2.symm⟩

def Completes (s : Session) (chunk : Bytes) (message : AcceptedMessage) : Prop :=
  ∃ t, s.state = .receivingData t ∧ message = { t.message with data := t.body ++ chunk }

theorem hands_collect (p : Primitives) (tls : Bool) (env : Answers) (c : Conn) (size : ℕ)
    (last : Bool) (collected : Bytes) :
      Hands p env c (c.collect p tls env size last collected) fun m ↦
      last = true ∧ size ≤ collected.length ∧ Completes c.session collected m := by
  unfold Conn.collect
  split
  · exact .inl rfl
  · rename_i hless
    let c' : Conn := { c with session := (c.session.bdatChunk collected last).2, phase := .lines }
    refine .mono (c := c) (hands_settle p tls env c' _) ?_
    rintro m - ⟨reply, hdeliver⟩
    obtain ⟨hlast, hcompletes⟩ := bdatChunk_deliver hdeliver
    exact ⟨hlast, Nat.le_of_not_lt hless, hcompletes⟩

/-! ### What commands ask for -/

/-- A command delivers nothing, and only `BDAT` asks for a chunk. -/
theorem commandLine_action (s : Session) (e : Env) (line : Text) :
    isQuiet (s.commandLine p e line).1 = true ∨
      ∃ size last, Command.parse line = .ok (.bdat size last) ∧
        s.commandLine p e line = (.collectChunk size last, s) := by
  rcases Acceptance.commandLine_cases p e line s with
    ⟨-, hquiet⟩ | hchunk | ⟨mechanism, initial, -, heq⟩
  · exact .inl hquiet
  · exact .inr hchunk
  · rw [heq]
    rcases Auth.SmtpDesk.auth_cases p e mechanism initial s with ⟨reply, heq⟩ | ⟨-, -, hsigns⟩
    · rw [heq]
      exact .inl rfl
    · exact .inl hsigns.1.isQuiet

/-- What an action leads to: a delivery, or the message of a last chunk that is already there. -/
def Leads (c : Conn) (r : Session.Step) (message : AcceptedMessage) : Prop :=
  (∃ reply, r.1 = .deliver reply message) ∨ ∃ size, r.1 = .collectChunk size true ∧
    size ≤ c.decoder.length ∧ Completes r.2 (c.decoder.take size) message

theorem hands_dispatch (p : Primitives) (tls : Bool) (env : Answers) (c : Conn) (r : Session.Step) :
    Hands p env c (c.dispatch p tls env r) (Leads c r) := by
  obtain ⟨action, s⟩ := r
  have hsettle : Hands p env c ({ c with session := s, mode := .commands }.settle p tls env action)
      (Leads c (action, s)) := by
    refine .mono (c := c)
      (hands_settle p tls env { c with session := s, mode := .commands } action) ?_
    exact fun m _ hdeliver ↦ .inl hdeliver
  cases action with
  | collectChunk size last =>
    let c' : Conn := { c with session := s, mode := .commands, decoder := c.decoder.drop size }
    refine .mono (c := c) (hands_collect p tls env c' size last (c.decoder.take size)) ?_
    rintro m - ⟨rfl, hsize, hcompletes⟩
    rw [List.length_take] at hsize
    exact .inr ⟨size, rfl, by omega, hcompletes⟩
  | reply reply | collectData reply | deliver reply message | upgradeTls reply
  | collectAuthResponse reply | close reply => exact hsettle

theorem not_leads_of_isQuiet {r : Session.Step} (h : isQuiet r.1 = true)
    (message : AcceptedMessage) : ¬Leads c r message := by
  rintro (⟨reply, heq⟩ | ⟨size, heq, -⟩) <;>
  · rw [heq] at h
    exact absurd h nofun

/-! ### Runs with clean chunks -/

def Conn.lastChunk (c : Conn) : Event → Option (Answers × Bytes)
  | .turn env =>
    match c.mode, nextLine c.decoder with
    | .commands, .ok (some (line, rest)) =>
      match (decodeUtf8 line).map Command.parse with
      | some (.ok (.bdat size true)) =>
        if size ≤ rest.length then some (env, rest.take size) else none
      | _ => none
    | _, _ => none
  | .read env bytes =>
    match c.phase with
    | .chunk size true collected =>
      if size ≤ collected.length + bytes.length then
        some (env, collected ++ bytes.take (size - collected.length))
      else none
    | _ => none
  | .stop => none

/-- If the event completes the last chunk of a message that the surroundings let pass, then the
chunks of the message, joined, are clean lines. -/
def ChunksClean (p : Primitives) (c : Conn) (event : Event) : Prop :=
  match c.lastChunk event, c.session.state with
  | some (env, chunk), .receivingData t =>
    env.admits p { t.message with data := t.body ++ chunk } = true → CrlfLines (t.body ++ chunk)
  | _, _ => True

instance (p : Primitives) (c : Conn) (event : Event) : Decidable (ChunksClean p c event) := by
  unfold ChunksClean
  split
  · infer_instance
  · infer_instance

theorem ChunksClean.crlfLines {event : Event} (h : ChunksClean p c event)
    (hlast : c.lastChunk event = some (env, chunk))
    (hmessage : Completes c.session chunk message) (hadmits : env.admits p message = true) :
    CrlfLines message.data := by
  obtain ⟨t, hstate, rfl⟩ := hmessage
  rw [ChunksClean, hlast, hstate] at h
  exact h hadmits

section

variable {s₀ : Session} {w : Acceptance.World} (hstate : s₀.state = .connected)
  (hauthenticated : s₀.authenticated = none)
  (hreach : (Acceptance.machine p).Reach FromDecoder (Acceptance.initial s₀) w)
  (hfollows : Follows w c) (hphase : c.phase = .lines)
include hstate hauthenticated hreach hfollows hphase

theorem crlfLines_of_dataLine (hmode : c.mode = .data) {line : Bytes} {reply : Reply}
    {message : AcceptedMessage}
    (hdeliver : (c.session.dataLine line).1 = some (.deliver reply message)) :
    CrlfLines message.data := by
  have hholds := Acceptance.holds_of_reach hstate hauthenticated hreach
  have hdata := hfollows.mode
  rw [Conn.dialogueMode, hphase] at hdata
  simp only [hmode] at hdata
  rw [hfollows.session, hdata] at hholds
  rw [((hholds.next_dataLine line).2 reply message hdeliver).2]
  exact Acceptance.crlfLines_joinLines (Acceptance.clean_of_reach rfl hreach)

theorem hands_turn (hclean : ChunksClean p c (.turn env)) :
    Hands p env c (c.turn p tls env) fun m ↦ CrlfLines m.data := by
  unfold Conn.turn
  split
  · exact .inl rfl
  · exact .inl rfl
  · rename_i line rest hnext
    unfold Conn.takeLine
    let c' : Conn := { c with decoder := rest }
    split
    · -- a line of data
      rename_i hmode
      split
      · exact .inl rfl
      · rename_i action s heq
        have haction : (c.session.dataLine line).1 = some action := congrArg Prod.fst heq
        refine .mono (c := c) (hands_dispatch p tls env c' (action, s)) ?_
        rintro m - (⟨reply, rfl⟩ | ⟨size, rfl, -⟩)
        · exact crlfLines_of_dataLine hstate hauthenticated hreach hfollows hphase hmode haction
        · exact absurd haction ((Acceptance.dataLine_spec line c.session).2 _ _)
    · -- a command
      rename_i hmode
      split
      · exact .inl rfl
      · rename_i text hutf8
        have hdispatch := hands_dispatch p tls env c' (c.session.commandLine p env.session text)
        rcases commandLine_action (p := p) c.session env.session text with
          hquiet | ⟨size, last, hparse, heq⟩
        · exact .mono (c := c) hdispatch fun m _ hm ↦
            absurd hm (not_leads_of_isQuiet hquiet m)
        · refine .mono (c := c) hdispatch fun m hadmits hm ↦ ?_
          rw [heq] at hm
          obtain ⟨reply, hdeliver⟩ | ⟨size', hsame, hthere, hcompletes⟩ := hm
          · exact absurd hdeliver nofun
          · obtain ⟨rfl, rfl⟩ := Action.collectChunk.inj hsame
            refine hclean.crlfLines ?_ hcompletes hadmits
            rw [Conn.lastChunk, show c.mode = .commands from hmode, hnext]
            simp only [hutf8, Option.map_some, hparse]
            exact if_pos hthere
    · split
      · exact .inl rfl
      · rename_i text _
        refine .mono (c := c)
          (hands_dispatch p tls env c' (c.session.authLine p env.session text)) ?_
        exact fun m _ hm ↦ absurd hm (not_leads_of_isQuiet
          (Auth.SmtpDesk.signs_authLine text c.session).1.isQuiet m)

end

theorem hands_read {bytes : Bytes} (hclean : ChunksClean p c (.read env bytes)) :
    Hands p env c (c.read p tls env bytes) fun m ↦ CrlfLines m.data := by
  unfold Conn.read
  split
  · exact .inl rfl
  · rename_i size last collected hphase
    let c' : Conn := { c with decoder := c.decoder ++ bytes.drop (size - collected.length) }
    refine .mono (c := c) (hands_collect p tls env c' size last _) ?_
    rintro m hadmits ⟨rfl, hsize, hcompletes⟩
    refine hclean.crlfLines ?_ hcompletes hadmits
    rw [List.length_append, List.length_take] at hsize
    rw [Conn.lastChunk, hphase]
    exact if_pos (by omega)
  · exact .inl rfl

theorem Hands.crlfLines (h : Hands p env c c' fun m ↦ CrlfLines m.data)
    (hc : ∀ handed ∈ c.handed, CrlfLines handed.message.data) :
    ∀ handed ∈ c'.handed, CrlfLines handed.message.data := by
  rcases h with hsame | ⟨m, new, hm, -, hdata, happend⟩
  · rwa [hsame]
  · rw [happend]
    intro handed hmem
    rcases List.mem_append.mp hmem with hmem | hmem
    · exact hc handed hmem
    · rw [List.mem_singleton.mp hmem, hdata]
      exact hm

/-- **Clean lines reach the sink.** In every run of a connection in which the chunks of each
message, joined, are clean lines, the data of every message given to the sink are clean lines,
however the client's bytes are cut into reads. -/
theorem handed_crlfLines (p : Primitives) (tls : Bool) {s₀ : Session}
    (hstate : s₀.state = .connected) (hauthenticated : s₀.authenticated = none) {c : Conn}
    (hreach : (machine p tls).Reach (ChunksClean p) (.opened s₀) c) :
    ∀ handed ∈ c.handed, CrlfLines handed.message.data := by
  -- the data lines need the dialogue, so the run itself is part of the invariant
  induction hreach with
  | refl => exact nofun
  | @step c event hreach henabled hclean ih =>
    cases event with
    | turn env =>
      have hphase : c.phase = .lines := phase_of_allows_turn henabled
      rcases tracked_of_reach hreach with hclosed | ⟨w, hw, hfollows⟩
      · exact absurd (hphase.symm.trans hclosed) nofun
      · exact (hands_turn hstate hauthenticated hw hfollows hphase hclean).crlfLines ih
    | read env bytes => exact (hands_read hclean).crlfLines ih
    | stop => exact ih

/-- Surroundings that let everything pass. -/
def Answers.plain : Answers := ⟨.plain, fun _ ↦ .ok ([], none), true, some none⟩

/-- What a client sends before the data of a message. -/
def envelope : Text := "EHLO c.org\r\nMAIL FROM:<v@c.org>\r\nRCPT TO:<u@b.net>\r\n".toList

def chunkRun (data : String) : List Event :=
  .read .plain (encodeUtf8 (envelope ++ "BDAT ".toList ++ decimal data.length ++
      " LAST\r\n".toList ++ data.toList)) ::
    List.replicate 4 (Event.turn .plain)

def cleanRun : List Event :=
  ([.read .plain (encodeUtf8 (envelope ++ "DATA\r\n..hi\r".toList))] : List Event) ++
    List.replicate 4 (Event.turn .plain) ++ [.read .plain (encodeUtf8 "\n.\r\n".toList)] ++
    List.replicate 2 (Event.turn .plain) ++ chunkRun "ho\r\n"

theorem handed_crlfLines_cleanRun :
    let c := cleanRun.foldl (machine .plain false).step (.opened Acceptance.oneAccount)
    (∀ handed ∈ c.handed, CrlfLines handed.message.data) ∧
      c.handed.map (·.message.data) =
        [encodeUtf8 ".hi\r\n".toList, encodeUtf8 "ho\r\n".toList] :=
  ⟨handed_crlfLines .plain false rfl rfl (.of_passes (by decide +kernel)),
    by decide +kernel⟩

/-- A client gets a bare LF past the server. -/
theorem bareLineFeed_handed :
    ∃ c, (machine .plain false).Reach (fun _ _ ↦ True) (.opened Acceptance.oneAccount) c ∧
      ∃ handed ∈ c.handed, ¬CrlfLines handed.message.data :=
  ⟨(chunkRun "\n").foldl (machine .plain false).step (.opened Acceptance.oneAccount),
    .of_passes (by decide +kernel), by decide +kernel⟩

end Connection

end Epistle.Smtp
