import Epistle.Effects.Reader
import Epistle.Smtp.Connection

/-!
# Framing does not depend on chunking

The bytes of a client come in reads of any length. Lines and the bytes of chunks are taken from one
buffer, and what a read brings too much for a chunk goes back to the buffer. The session is
nevertheless fed the same lines and chunks, however the bytes are cut (`fed_same`). Only a CR at the
very end makes a difference: the decoder waits for the byte after it, and does not notice that the
line is too long.

That is so up to a handshake. With TLS another stream begins, of which the same is true
(`run_beforeTls`); but the bytes that came before the handshake are dropped, so that a client cannot
smuggle commands into the session with TLS, and there it matters how much was read with STARTTLS
(`hastily_dropped`).
-/

namespace Epistle.Smtp

open TextFormat Effects

/-! ## Lines -/

def NoFinalCr (bytes : Bytes) : Prop := bytes.getLast? ≠ some 0x0d

variable {rest : Bytes}

theorem NoFinalCr.of_append {bytes : Bytes} (h : NoFinalCr (bytes ++ rest)) : NoFinalCr rest := by
  intro hlast
  have hne : rest ≠ [] := by
    rintro rfl
    cases hlast
  exact h (by rw [List.getLast?_append_of_ne_nil _ hne, hlast])

/-- A line that is too long stays so, unless a CR is the last that is there. -/
theorem exists_error_of_taken (hrest : NoFinalCr rest) : ∀ {taken : ℕ},
    maxLineLength + 1 < taken → ∃ error, scanLine taken rest = .error error := by
  induction rest with
  | nil => exact fun htaken ↦ ⟨_, by rw [scanLine, if_pos htaken]⟩
  | cons b rest ih =>
    intro taken htaken
    by_cases hcontrol : b = 0 ∨ b = 0x0a
    · rcases hcontrol with rfl | rfl <;> simp [scanLine]
    rw [not_or] at hcontrol
    by_cases hcr : b = 0x0d
    · cases rest with
      | nil => exact absurd (by rw [hcr]; rfl) hrest
      | cons next rest =>
        have hlong : maxLineLength < taken := by omega
        by_cases hnext : next = 0x0a <;> simp [scanLine, hcr, hnext, hlong]
    · have hrest : NoFinalCr rest := NoFinalCr.of_append (show NoFinalCr ([b] ++ rest) from hrest)
      obtain ⟨error, herror⟩ := ih hrest (Nat.lt_succ_of_lt htaken)
      exact ⟨error, by simp [scanLine, hcontrol, hcr, herror, Except.map]⟩

/-- More bytes change nothing about a line that is complete, nor about an error, unless they end
with a CR. -/
theorem scanLine_append (bytes rest : Bytes) : ∀ taken : ℕ,
    (∀ line left, scanLine taken bytes = .ok (some (line, left)) →
      scanLine taken (bytes ++ rest) = .ok (some (line, left ++ rest))) ∧
    ∀ error, scanLine taken bytes = .error error → NoFinalCr rest →
      ∃ error', scanLine taken (bytes ++ rest) = .error error' := by
  induction bytes with
  | nil =>
    intro taken
    rw [scanLine]
    split
    · rename_i htaken
      exact ⟨fun _ _ h ↦ (by cases h), fun _ _ hrest ↦ exists_error_of_taken hrest htaken⟩
    · exact ⟨fun _ _ h ↦ (by cases h), fun _ h ↦ (by cases h)⟩
  | cons b bytes ih =>
    intro taken
    by_cases hcontrol : b = 0 ∨ b = 0x0a
    · rcases hcontrol with rfl | rfl <;> simp [scanLine]
    rw [not_or] at hcontrol
    by_cases hcr : b = 0x0d
    · cases bytes with
      | nil => simp [scanLine, hcr]
      | cons next bytes =>
        by_cases hnext : next = 0x0a
        · by_cases hlong : maxLineLength < taken <;> simp [scanLine, hcr, hnext, hlong]
        · simp [scanLine, hcr, hnext]
    · obtain ⟨hline, herror⟩ := ih (taken + 1)
      simp only [scanLine, List.cons_append, if_neg hcontrol.1, if_neg hcontrol.2, if_neg hcr]
      cases hscan : scanLine (taken + 1) bytes with
      | error error =>
        refine ⟨fun _ _ h ↦ (by cases h), fun _ _ hrest ↦ ?_⟩
        obtain ⟨error', herror'⟩ := herror error hscan hrest
        rw [herror']
        exact ⟨error', rfl⟩
      | ok found =>
        cases found with
        | none => exact ⟨fun _ _ h ↦ (by cases h), fun _ h ↦ (by cases h)⟩
        | some cut =>
          refine ⟨fun line left h ↦ ?_, fun _ h ↦ (by cases h)⟩
          obtain ⟨rfl, rfl⟩ := Prod.mk.inj (Option.some.inj (Except.ok.inj h))
          rw [hline cut.1 cut.2 hscan]
          rfl

namespace Connection

/-! ## The loop with a record of what it feeds -/

/-- What the loop feeds its session, or the error that ends it. -/
inductive Fed
  | command (line : Bytes)
  | data (line : Bytes)
  | auth (line : Bytes)
  | chunk (bytes : Bytes)
  | lineError
  deriving DecidableEq

/-- A connection, with what the session was fed. -/
structure Traced where
  conn : Conn
  fed : List Fed

section Loop

variable (p : Primitives) (tls : Bool) (answers : List Fed → Answers)

def chunkFed (action : Action) (buffer : Bytes) : List Fed :=
  match action with
  | .collectChunk size _ => if size ≤ buffer.length then [.chunk (buffer.take size)] else []
  | _ => []

def fedByTurn (env : Answers) (c : Conn) : List Fed :=
  match nextLine c.decoder with
  | .error _ => [.lineError]
  | .ok none => []
  | .ok (some (line, rest)) =>
    match c.mode with
    | .data =>
      .data line :: (c.session.dataLine line).1.toList.flatMap fun action ↦ chunkFed action rest
    | .commands =>
      match decodeUtf8 line with
      | none => []
      | some text => .command line :: chunkFed (c.session.commandLine p env.session text).1 rest
    | .auth =>
      match decodeUtf8 line with
      | none => []
      | some text => .auth line :: chunkFed (c.session.authLine p env.session text).1 rest

def fedByRead (bytes : Bytes) (c : Conn) : List Fed :=
  match c.phase with
  | .chunk size _ collected =>
    if size ≤ collected.length + bytes.length then
      [.chunk (collected ++ bytes.take (size - collected.length))]
    else []
  | _ => []

namespace Traced

/-- What the surroundings answer, by what was fed before. A chunk has the answers of its command. -/
def env (t : Traced) : Answers :=
  match t.conn.phase with
  | .chunk _ _ _ => answers t.fed.dropLast
  | _ => answers t.fed

def turn (t : Traced) : Option Traced :=
  match t.conn.phase with
  | .lines =>
    if t.conn.waits then none
    else some ⟨t.conn.turn p tls (t.env answers), t.fed ++ fedByTurn p (t.env answers) t.conn⟩
  | _ => none

def read (bytes : Bytes) (t : Traced) : Traced :=
  ⟨t.conn.read p tls (t.env answers) bytes, t.fed ++ fedByRead bytes t.conn⟩

end Traced

end Loop

/-! ## The buffer is not looked at -/

/-- The connection with another buffer. -/
def Conn.put (buffer : Bytes) (c : Conn) : Conn := { c with decoder := buffer }

section Buffer

variable (p : Primitives) (tls : Bool) {env : Answers} (henv : env.handshake = none)
include henv

/-- The session's word does not depend on what is in the buffer, and leaves the phase or closes. -/
theorem settle_spec (action : Action) (c : Conn) :
    ((c.settle p tls env action).phase = c.phase ∨ (c.settle p tls env action).phase = .closed) ∧
      ∀ buffer, (c.put buffer).settle p tls env action =
        (c.settle p tls env action).put buffer := by
  cases action with
  | reply reply =>
    by_cases hcode : reply.code ≥ 400
    · by_cases hstreak : c.errorStreak + 1 ≥ maxErrorStreak
      · simp [Conn.settle, Conn.reply, Conn.put, Conn.send, Conn.close, hcode, hstreak]
      · simp [Conn.settle, Conn.reply, Conn.put, Conn.send, hcode, hstreak]
    · simp [Conn.settle, Conn.reply, Conn.put, Conn.send, hcode]
  | collectData reply | collectChunk size last | collectAuthResponse reply =>
    exact ⟨.inl rfl, fun _ ↦ rfl⟩
  | deliver reply message =>
    simp only [Conn.settle, Conn.deliver]
    split
    · exact ⟨.inr rfl, fun _ ↦ rfl⟩
    · split
      · exact ⟨.inl rfl, fun _ ↦ rfl⟩
      · split <;> exact ⟨.inl rfl, fun _ ↦ rfl⟩
  | upgradeTls reply =>
    simp only [Conn.settle, Conn.upgrade, henv]
    split <;> exact ⟨.inr rfl, fun _ ↦ rfl⟩
  | close reply => exact ⟨.inr rfl, fun _ ↦ rfl⟩

theorem decoder_settle (action : Action) (c : Conn) :
    (c.settle p tls env action).decoder = c.decoder := by
  have hput := congrArg Conn.decoder ((settle_spec p tls henv action c).2 c.decoder)
  exact hput

omit henv in
theorem length_settle_le (action : Action) (c : Conn) :
    (c.settle p tls env action).decoder.length ≤ c.decoder.length := by
  have hnone : ({ env with handshake := none } : Answers).handshake = none := rfl
  have hother := congrArg List.length (decoder_settle p tls hnone action c)
  cases action with
  | upgradeTls reply =>
    simp only [Conn.settle, Conn.upgrade]
    split
    · exact le_rfl
    · split
      · exact le_rfl
      · exact Nat.zero_le _
  | _ => exact hother.le

omit henv in
theorem length_dispatch_le (r : Session.Step) (c : Conn) :
    (c.dispatch p tls env r).decoder.length ≤ c.decoder.length := by
  obtain ⟨action, s⟩ := r
  cases action with
  | collectChunk size last =>
    have hdrop : (c.decoder.drop size).length ≤ c.decoder.length := by
      rw [List.length_drop]
      omega
    refine le_trans ?_ hdrop
    simp only [Conn.dispatch, Conn.collect]
    split
    · exact le_rfl
    · exact length_settle_le p tls _ _
  | _ => exact length_settle_le p tls _ _

omit henv in
theorem length_takeLine_le (line : Bytes) (c : Conn) :
    (c.takeLine p tls env line).decoder.length ≤ c.decoder.length := by
  unfold Conn.takeLine
  split <;>
  · split
    · exact le_rfl
    · exact length_dispatch_le p tls _ _

end Buffer

/-! ## Pieces of the stream -/

def Same (t u : Traced) : Prop :=
  t = u ∨ t.fed = u.fed ∧ t.conn.phase = .closed ∧ u.conn.phase = .closed

theorem equivalence_same : Equivalence Same where
  refl t := .inl rfl
  symm := by
    rintro t u (rfl | ⟨hfed, ht, hu⟩)
    · exact .inl rfl
    · exact .inr ⟨hfed.symm, hu, ht⟩
  trans := by
    rintro t u v (rfl | ⟨hfed, ht, hu⟩) h
    · exact h
    · rcases h with rfl | ⟨hfed', -, hv⟩
      · exact .inr ⟨hfed, ht, hu⟩
      · exact .inr ⟨hfed.trans hfed', ht, hv⟩

section Pieces

variable {p : Primitives} {tls : Bool} {answers : List Fed → Answers}

variable {t : Traced} {c : Conn} {fed : List Fed} {rest : Bytes}

theorem read_closed (h : t.conn.phase = .closed) (bytes : Bytes) :
    t.read p tls answers bytes = t := by
  simp [Traced.read, Conn.read, fedByRead, h]

theorem turn_eq_none (h : t.conn.phase = .closed) : t.turn p tls answers = none := by
  rw [Traced.turn, h]

theorem same_settle {env : Answers} (henv : env.handshake = none) (hphase : c.phase = .lines)
    (action : Action) (bytes : Bytes) (fed : List Fed) :
    Same (Traced.read p tls answers bytes ⟨c.settle p tls env action, fed⟩)
      ⟨(c.put (c.decoder ++ bytes)).settle p tls env action, fed⟩ := by
  obtain ⟨hsame | hclosed, hput⟩ := settle_spec p tls henv action c
  · rw [hphase] at hsame
    refine .inl ?_
    rw [hput]
    simp only [Traced.read, Conn.read, fedByRead, hsame, List.append_nil,
      decoder_settle p tls henv, Conn.put]
  · rw [read_closed hclosed, hput]
    exact .inr ⟨rfl, hclosed, hclosed⟩

theorem same_collect {env : Answers} (henv : env.handshake = none) {size : ℕ} {last : Bool}
    {collected : Bytes} (hsize : size ≤ collected.length) (bytes : Bytes) (fed : List Fed) :
    Same (Traced.read p tls answers bytes ⟨c.collect p tls env size last collected, fed⟩)
      ⟨(c.put (c.decoder ++ bytes)).collect p tls env size last collected, fed⟩ := by
  unfold Conn.collect
  rw [if_neg (Nat.not_lt_of_le hsize), if_neg (Nat.not_lt_of_le hsize)]
  exact same_settle henv rfl _ bytes fed

variable (hanswers : ∀ fed, (answers fed).handshake = none)
include hanswers

theorem handshake_env (t : Traced) : (t.env answers).handshake = none := by
  unfold Traced.env
  split <;> exact hanswers _

theorem same_read_append (bytes rest : Bytes) (t : Traced) :
    Same ((t.read p tls answers bytes).read p tls answers rest)
      (t.read p tls answers (bytes ++ rest)) := by
  obtain ⟨c, fed⟩ := t
  cases hphase : c.phase with
  | lines => exact .inl (by simp [Traced.read, Conn.read, fedByRead, hphase])
  | closed =>
    rw [read_closed (t := ⟨c, fed⟩) hphase bytes, read_closed (t := ⟨c, fed⟩) hphase rest,
      read_closed (t := ⟨c, fed⟩) hphase (bytes ++ rest)]
    exact .inl rfl
  | chunk size last collected =>
    by_cases hdone : size ≤ collected.length + bytes.length
    · -- the first read completes the chunk
      have hneed : size - collected.length ≤ bytes.length := by omega
      have hboth : Traced.read p tls answers (bytes ++ rest) ⟨c, fed⟩ =
          ⟨((c.put (c.decoder ++ bytes.drop (size - collected.length))).put
              (c.decoder ++ bytes.drop (size - collected.length) ++ rest)).collect p tls
                (Traced.env answers ⟨c, fed⟩) size last
                (collected ++ bytes.take (size - collected.length)),
            fed ++ [.chunk (collected ++ bytes.take (size - collected.length))]⟩ := by
        simp only [Traced.read, Conn.read, fedByRead, hphase, List.take_append_of_le_length hneed,
          List.drop_append_of_le_length hneed, List.length_append, ← List.append_assoc]
        rw [if_pos (by omega)]
        rfl
      have hfirst : Traced.read p tls answers bytes ⟨c, fed⟩ =
          ⟨(c.put (c.decoder ++ bytes.drop (size - collected.length))).collect p tls
              (Traced.env answers ⟨c, fed⟩) size last
              (collected ++ bytes.take (size - collected.length)),
            fed ++ [.chunk (collected ++ bytes.take (size - collected.length))]⟩ := by
        simp only [Traced.read, Conn.read, fedByRead, hphase, if_pos hdone]
        rfl
      rw [hboth, hfirst]
      refine same_collect (handshake_env hanswers _) ?_ rest _
      rw [List.length_append, List.length_take]
      omega
    · have hneed : bytes.length < size - collected.length := by omega
      have hfirst : Traced.read p tls answers bytes ⟨c, fed⟩ =
          ⟨{ c with phase := .chunk size last (collected ++ bytes) }, fed⟩ := by
        simp only [Traced.read, Conn.read, fedByRead, hphase, if_neg hdone, List.append_nil,
          List.take_of_length_le (Nat.le_of_lt hneed), List.drop_of_length_le (Nat.le_of_lt hneed),
          Conn.collect, List.length_append]
        rw [if_pos (by omega)]
      rw [hfirst]
      refine .inl ?_
      have henv : Traced.env answers
          ⟨{ c with phase := .chunk size last (collected ++ bytes) }, fed⟩ =
            Traced.env answers ⟨c, fed⟩ := by
        simp [Traced.env, hphase]
      simp only [Traced.read, Conn.read, fedByRead, hphase, henv, List.length_append,
        List.take_append, List.drop_append, List.take_of_length_le (Nat.le_of_lt hneed),
        List.drop_of_length_le (Nat.le_of_lt hneed), List.nil_append, List.append_assoc,
        Nat.sub_add_eq, Nat.add_assoc]
      rfl

/-- What the session says after a line does not depend on what comes later. -/
theorem same_dispatch (hphase : c.phase = .lines) (r : Session.Step) (input : Fed) (rest : Bytes) :
    Same (Traced.read p tls answers rest
        ⟨c.dispatch p tls (answers fed) r,
          fed ++ input :: chunkFed r.1 c.decoder⟩)
      ⟨(c.put (c.decoder ++ rest)).dispatch p tls (answers fed) r,
        fed ++ input :: chunkFed r.1 (c.decoder ++ rest)⟩ := by
  obtain ⟨action, s⟩ := r
  cases action with
  | collectChunk size last =>
    let c' : Conn := { c with session := s, mode := .commands }
    by_cases hsize : size ≤ c.decoder.length
    · have hsame :
        Same (Traced.read p tls answers rest ⟨(c'.put (c.decoder.drop size)).collect p tls
            (answers fed) size last (c.decoder.take size),
              fed ++ [input, .chunk (c.decoder.take size)]⟩)
          ⟨(c'.put (c.decoder.drop size ++ rest)).collect p tls
            (answers fed) size last (c.decoder.take size),
              fed ++ [input, .chunk (c.decoder.take size)]⟩ :=
        same_collect (hanswers fed) (by rw [List.length_take]; omega) rest _
      simp only [Conn.dispatch, chunkFed, hsize, if_true, List.length_append,
        if_pos (Nat.le_add_right_of_le hsize), Conn.put, List.take_append_of_le_length hsize,
        List.drop_append_of_le_length hsize]
      exact hsame
    · have hshort : c.decoder.length < size := Nat.lt_of_not_le hsize
      refine .inl ?_
      have hlast : (fed ++ [input]).dropLast = fed := List.dropLast_concat
      simp only [Conn.dispatch, chunkFed, hsize, if_false, Traced.read, Conn.collect, Traced.env,
        List.length_take, hshort, if_true, Conn.read, fedByRead,
        List.take_of_length_le (Nat.le_of_lt hshort), List.drop_of_length_le (Nat.le_of_lt hshort),
        Conn.put, List.take_append, List.drop_append, List.length_append, List.nil_append, hlast]
      simp
  | close reply =>
    exact same_settle (c := { c with session := s, mode := .commands })
      (hanswers fed) hphase (.close reply) rest _
  | _ =>
    exact same_settle (c := { c with session := s, mode := .commands })
      (hanswers fed) hphase _ rest _

omit hanswers in
theorem read_lines (hphase : c.phase = .lines) (rest : Bytes) (fed : List Fed) :
    Traced.read p tls answers rest ⟨c, fed⟩ = ⟨c.put (c.decoder ++ rest), fed⟩ := by
  simp [Traced.read, Conn.read, fedByRead, hphase, Conn.put]

theorem same_takeLine {line left : Bytes} (hphase : c.phase = .lines)
    (hnext : nextLine c.decoder = .ok (some (line, left)))
    (hnext' : nextLine (c.put (c.decoder ++ rest)).decoder = .ok (some (line, left ++ rest))) :
    Same (Traced.read p tls answers rest ⟨(c.put left).takeLine p tls (answers fed) line,
        fed ++ fedByTurn p (answers fed) c⟩)
      ⟨(c.put (left ++ rest)).takeLine p tls (answers fed) line,
        fed ++ fedByTurn p (answers fed) (c.put (c.decoder ++ rest))⟩ := by
  obtain ⟨s, mode, decoder, streak, phase, sent, handed⟩ := c
  let c : Conn := ⟨s, mode, decoder, streak, phase, sent, handed⟩
  have hdispatch : ∀ r input, Same (Traced.read p tls answers rest
      ⟨(c.put left).dispatch p tls (answers fed) r, fed ++ input :: chunkFed r.1 left⟩)
      ⟨(c.put (left ++ rest)).dispatch p tls (answers fed) r,
        fed ++ input :: chunkFed r.1 (left ++ rest)⟩ :=
    fun r input ↦ same_dispatch hanswers (c := c.put left) hphase r input rest
  unfold fedByTurn
  rw [hnext, hnext']
  cases mode with
  | data =>
    simp only [Conn.takeLine, Conn.put]
    cases hline : s.dataLine line with
    | mk action s' =>
      cases action with
      | none =>
        exact .inl (read_lines (c := { c with session := s', decoder := left }) hphase rest _)
      | some action =>
        simp only [Option.toList_some, List.flatMap_cons, List.flatMap_nil, List.append_nil]
        exact hdispatch (action, s') (.data line)
  | commands =>
    simp only [Conn.takeLine, Conn.put]
    cases decodeUtf8 line with
    | none => exact .inl (read_lines (c := (c.put left).send .syntaxError) hphase rest _)
    | some text => exact hdispatch (s.commandLine p (answers fed).session text) (.command line)
  | auth =>
    simp only [Conn.takeLine, Conn.put]
    cases decodeUtf8 line with
    | none =>
      rw [read_closed rfl]
      exact .inr ⟨rfl, rfl, rfl⟩
    | some text => exact hdispatch (s.authLine p (answers fed).session text) (.auth line)

/-- A turn that is possible does not depend on what comes later. -/
theorem same_turn {t' : Traced} (hrest : NoFinalCr rest) (h : t.turn p tls answers = some t') :
    ∃ t'', (t.read p tls answers rest).turn p tls answers = some t'' ∧
      Same (t'.read p tls answers rest) t'' := by
  obtain ⟨c, fed⟩ := t
  unfold Traced.turn at h
  split at h
  · rename_i hphase
    split at h
    · cases h
    · rename_i hwaits
      obtain rfl := Option.some.inj h
      have henv : ∀ c' : Conn, c'.phase = .lines →
          Traced.env answers ⟨c', fed⟩ = answers fed := by
        intro c' hc'
        simp only [Traced.env, hc']
      rw [read_lines hphase, Traced.turn,
        show (c.put (c.decoder ++ rest)).phase = .lines from hphase, henv c hphase,
        henv _ (show (c.put (c.decoder ++ rest)).phase = .lines from hphase)]
      unfold Conn.waits at hwaits
      cases hnext : nextLine c.decoder with
      | error error =>
        obtain ⟨error', hnext'⟩ := (scanLine_append c.decoder rest 0).2 error hnext hrest
        have hnext' : nextLine (c.put (c.decoder ++ rest)).decoder = .error error' := hnext'
        have hwaits' : (c.put (c.decoder ++ rest)).waits = false := by rw [Conn.waits, hnext']
        rw [hwaits']
        refine ⟨_, rfl, ?_⟩
        have hclosed : (c.turn p tls (answers fed)).phase = .closed := by
          rw [Conn.turn, hnext]
          rfl
        have hclosed' : ((c.put (c.decoder ++ rest)).turn p tls (answers fed)).phase =
            .closed := by
          rw [Conn.turn, hnext']
          rfl
        rw [read_closed hclosed]
        exact .inr ⟨by simp only [fedByTurn, hnext, hnext'], hclosed, hclosed'⟩
      | ok found =>
        cases found with
        | none =>
          rw [hnext] at hwaits
          exact absurd rfl hwaits
        | some cut =>
          obtain ⟨line, left⟩ := cut
          have hnext' : nextLine (c.put (c.decoder ++ rest)).decoder =
            .ok (some (line, left ++ rest)) :=
            (scanLine_append c.decoder rest 0).1 line left hnext
          have hwaits' : (c.put (c.decoder ++ rest)).waits = false := by rw [Conn.waits, hnext']
          rw [hwaits']
          refine ⟨_, rfl, ?_⟩
          rw [Conn.turn, hnext, Conn.turn, hnext']
          exact same_takeLine hanswers hphase hnext hnext'
  · cases h

end Pieces

/-! ## The loop -/

/-- A bound on the turns that are left: there is one at most for each byte, and one for an error. -/
def Traced.size (t : Traced) : ℕ :=
  match t.conn.phase with
  | .lines => t.conn.decoder.length + 1
  | _ => 0

theorem Traced.size_le (t : Traced) : t.size ≤ t.conn.decoder.length + 1 := by
  unfold Traced.size
  split
  · exact le_rfl
  · exact Nat.zero_le _

variable {t t' : Traced}

/-- What a turn does: it ends the connection for an error, or takes a line. -/
theorem turn_cases {p : Primitives} {tls : Bool} {answers : List Fed → Answers}
    (h : t.turn p tls answers = some t') :
    t.conn.phase = .lines ∧ t'.fed = t.fed ++ fedByTurn p (t.env answers) t.conn ∧
      ((∃ error, nextLine t.conn.decoder = .error error) ∧ t'.conn.phase = .closed ∨
        ∃ line left, nextLine t.conn.decoder = .ok (some (line, left)) ∧
          t'.conn = (t.conn.put left).takeLine p tls (t.env answers) line) := by
  unfold Traced.turn at h
  split at h
  · rename_i hphase
    split at h
    · cases h
    · rename_i hwaits
      obtain rfl := Option.some.inj h
      refine ⟨hphase, rfl, ?_⟩
      unfold Conn.turn
      cases hnext : nextLine t.conn.decoder with
      | error error => exact .inl ⟨⟨error, rfl⟩, rfl⟩
      | ok found =>
        cases found with
        | none => exact absurd (by rw [Conn.waits, hnext]) hwaits
        | some cut => exact .inr ⟨cut.1, cut.2, rfl, rfl⟩
  · cases h

theorem size_turn {p : Primitives} {tls : Bool} {answers : List Fed → Answers}
    (h : t.turn p tls answers = some t') : t'.size < t.size := by
  obtain ⟨hphase, -, hturn⟩ := turn_cases h
  have hsize : t.size = t.conn.decoder.length + 1 := by rw [Traced.size, hphase]
  rw [hsize]
  rcases hturn with ⟨-, hclosed⟩ | ⟨line, left, hnext, hconn⟩
  · rw [Traced.size, hclosed]
    exact Nat.succ_pos _
  · have hleft : left.length < t.conn.decoder.length := by
      rw [(nextLine_spec hnext).1]
      simp [crlf]
      omega
    have hle : t'.conn.decoder.length ≤ left.length := by
      rw [hconn]
      exact length_takeLine_le p tls line (t.conn.put left)
    have hbound := t'.size_le
    omega

/-- The loop of a connection, as a reader of the client's bytes. -/
def loop (p : Primitives) (tls : Bool) (answers : List Fed → Answers) : Reader Traced UInt8 where
  feed := Traced.read p tls answers
  turn := Traced.turn p tls answers
  size := Traced.size
  size_turn := size_turn

section Steady

variable {p : Primitives} {tls : Bool} {answers : List Fed → Answers}

variable {t u : Traced}

theorem drain_closed (h : t.conn.phase = .closed) : (loop p tls answers).drain t = t :=
  Reader.drain_of_none (turn_eq_none h)

theorem drain_same (h : Same t u) :
    Same ((loop p tls answers).drain t) ((loop p tls answers).drain u) := by
  rcases h with rfl | ⟨hfed, ht, hu⟩
  · exact .inl rfl
  · rw [drain_closed ht, drain_closed hu]
    exact .inr ⟨hfed, ht, hu⟩

theorem read_same (bytes : Bytes) (h : Same t u) :
    Same (t.read p tls answers bytes) (u.read p tls answers bytes) := by
  rcases h with rfl | ⟨hfed, ht, hu⟩
  · exact .inl rfl
  · rw [read_closed ht, read_closed hu]
    exact .inr ⟨hfed, ht, hu⟩

theorem steady (hanswers : ∀ fed, (answers fed).handshake = none) :
    (loop p tls answers).Steady Same NoFinalCr where
  equivalence := equivalence_same
  feed_congr := read_same
  drain_congr := drain_same
  fine_append := NoFinalCr.of_append
  feed_append piece rest t := same_read_append hanswers piece rest t
  turn_feed := by
    intro t t' rest hrest hturn
    obtain ⟨t'', hturn'', hsame⟩ := same_turn hanswers hrest hturn
    have hdrain : (loop p tls answers).drain ((loop p tls answers).feed rest t) =
        (loop p tls answers).drain t'' := Reader.drain_of_some hturn''
    rw [hdrain]
    exact drain_same hsame

/-- However a stream is cut, it is read like all at once. -/
theorem run_same (hanswers : ∀ fed, (answers fed).handshake = none) {c : Conn}
    (hphase : c.phase = .lines) (fed : List Fed) {cut : List Bytes}
    (hfine : NoFinalCr cut.flatten) :
    Same ((loop p tls answers).run ⟨c, fed⟩ cut)
      ((loop p tls answers).drain ⟨c.put (c.decoder ++ cut.flatten), fed⟩) := by
  cases cut with
  | nil =>
    rw [List.flatten_nil, List.append_nil]
    exact .inl rfl
  | cons piece cut =>
    rw [← read_lines hphase (cut.cons piece).flatten fed]
    exact (steady hanswers).run_same hfine ⟨c, fed⟩

end Steady

/-! ## The lines -/

/-- What is fed is a line as it should be: not too long, and without CR, LF and NUL. -/
def Fed.Fine : Fed → Prop
  | .command line | .data line | .auth line =>
    line.length ≤ 998 ∧ ∀ b ∈ line, b ≠ 0x0d ∧ b ≠ 0x0a ∧ b ≠ 0
  | .chunk _ | .lineError => True

section Lines

variable {p : Primitives} {tls : Bool} {answers : List Fed → Answers}

variable {input : Fed} {c : Conn}

theorem fine_chunkFed {action : Action} {buffer : Bytes}
    (h : input ∈ chunkFed action buffer) : input.Fine := by
  unfold chunkFed at h
  split at h
  · split at h
    · rw [List.mem_singleton.mp h]
      trivial
    · cases h
  · cases h

theorem fine_fedByTurn {env : Answers} (h : input ∈ fedByTurn p env c) :
    input.Fine := by
  unfold fedByTurn at h
  cases hnext : nextLine c.decoder with
  | error error =>
    rw [hnext] at h
    rw [List.mem_singleton.mp h]
    trivial
  | ok found =>
    rw [hnext] at h
    cases found with
    | none => cases h
    | some cut =>
      obtain ⟨-, hclean, hlength⟩ := nextLine_spec hnext
      have hfine : cut.1.length ≤ 998 ∧ ∀ b ∈ cut.1, b ≠ 0x0d ∧ b ≠ 0x0a ∧ b ≠ 0 :=
        ⟨hlength, fun b hb ↦ ⟨(hclean b hb).2.1, (hclean b hb).2.2, (hclean b hb).1⟩⟩
      cases hmode : c.mode with
      | data =>
        rw [hmode] at h
        rcases List.mem_cons.mp h with rfl | h
        · exact hfine
        · obtain ⟨action, -, h⟩ := List.mem_flatMap.mp h
          exact fine_chunkFed h
      | commands | auth =>
        rw [hmode] at h
        dsimp only at h
        split at h
        · cases h
        · rcases List.mem_cons.mp h with rfl | h
          · exact hfine
          · exact fine_chunkFed h

theorem fine_fedByRead {bytes : Bytes} (h : input ∈ fedByRead bytes c) :
    input.Fine := by
  unfold fedByRead at h
  split at h
  · split at h
    · rw [List.mem_singleton.mp h]
      trivial
    · cases h
  · cases h

/-- Every line that a session is fed is as it should be. -/
theorem fine_run (c : Conn) (cut : List Bytes) :
    ∀ input ∈ ((loop p tls answers).run ⟨c, []⟩ cut).fed, input.Fine := by
  refine Reader.run_induction (P := fun t : Traced ↦ ∀ input ∈ t.fed, input.Fine) ?_ ?_
    fun input h ↦ (by cases h)
  · intro t t' ht hturn input hinput
    rw [(turn_cases hturn).2.1] at hinput
    rcases List.mem_append.mp hinput with hinput | hinput
    · exact ht input hinput
    · exact fine_fedByTurn hinput
  · intro t bytes ht input hinput
    rcases List.mem_append.mp hinput with hinput | hinput
    · exact ht input hinput
    · exact fine_fedByRead hinput

end Lines

/-- What the surroundings answer as long as there is no handshake: with one, the stream ends. -/
def beforeTls (answers : List Fed → Answers) (fed : List Fed) : Answers :=
  { answers fed with handshake := none }

section Handshake

/-- The connections are the same, or the first one has ended where the second has begun TLS and has
nothing left in its buffer. -/
def UpToTls (c c' : Conn) : Prop := c = c' ∨ c.phase = .closed ∧ c'.decoder = []

section

variable {p : Primitives} {tls : Bool} (env : Answers)

theorem upToTls_settle (action : Action) (c : Conn) :
    UpToTls (c.settle p tls { env with handshake := none } action) (c.settle p tls env action) := by
  cases action with
  | upgradeTls reply =>
    simp only [Conn.settle, Conn.upgrade]
    split
    · exact .inl rfl
    · cases env.handshake with
      | none => exact .inl rfl
      | some identity => exact .inr ⟨rfl, rfl⟩
  | _ => exact .inl rfl

theorem upToTls_collect (size : ℕ) (last : Bool) (collected : Bytes) (c : Conn) :
    UpToTls (c.collect p tls { env with handshake := none } size last collected)
      (c.collect p tls env size last collected) := by
  unfold Conn.collect
  split
  · exact .inl rfl
  · exact upToTls_settle env _ _

theorem upToTls_dispatch (r : Session.Step) (c : Conn) :
    UpToTls (c.dispatch p tls { env with handshake := none } r) (c.dispatch p tls env r) := by
  unfold Conn.dispatch
  dsimp only
  split
  · exact upToTls_collect env _ _ _ _
  · exact upToTls_settle env _ _

theorem upToTls_turn (c : Conn) :
    UpToTls (c.turn p tls { env with handshake := none }) (c.turn p tls env) := by
  unfold Conn.turn
  split
  · exact .inl rfl
  · exact .inl rfl
  · unfold Conn.takeLine
    split <;>
    · split
      · exact .inl rfl
      · exact upToTls_dispatch env _ _

theorem upToTls_read (bytes : Bytes) (c : Conn) :
    UpToTls (c.read p tls { env with handshake := none } bytes) (c.read p tls env bytes) := by
  unfold Conn.read
  split
  · exact .inl rfl
  · exact upToTls_collect env _ _ _ _
  · exact .inl rfl

end

variable {p : Primitives} {tls : Bool} {answers : List Fed → Answers} {t : Traced}

theorem env_beforeTls (t : Traced) :
    t.env (beforeTls answers) = { t.env answers with handshake := none } := by
  unfold Traced.env
  split <;> rfl

theorem read_beforeTls (bytes : Bytes) (t : Traced) :
    t.read p tls (beforeTls answers) bytes = t.read p tls answers bytes ∨
      (t.read p tls (beforeTls answers) bytes).fed = (t.read p tls answers bytes).fed ∧
        (t.read p tls (beforeTls answers) bytes).conn.phase = .closed ∧
        (t.read p tls answers bytes).conn.decoder = [] := by
  rw [Traced.read, env_beforeTls]
  exact (upToTls_read _ bytes t.conn).imp (congrArg (Traced.mk · _)) fun h ↦ ⟨rfl, h⟩

theorem turn_beforeTls {t' : Traced} (h : t.turn p tls answers = some t') :
    ∃ s, t.turn p tls (beforeTls answers) = some s ∧ s.fed = t'.fed ∧ UpToTls s.conn t'.conn := by
  unfold Traced.turn at h ⊢
  rw [env_beforeTls]
  split at h
  · split at h
    · cases h
    · rename_i hwaits
      obtain rfl := Option.some.inj h
      exact ⟨_, if_neg hwaits, rfl, upToTls_turn _ _⟩
  · cases h

theorem turn_beforeTls_none (h : t.turn p tls answers = none) :
    t.turn p tls (beforeTls answers) = none := by
  unfold Traced.turn at h ⊢
  split at h
  · split at h
    · rename_i hwaits
      exact if_pos hwaits
    · cases h
  · rfl

/-- The turns are the same up to a handshake, and then begin again with an empty buffer. -/
theorem drain_beforeTls (p : Primitives) (tls : Bool) (answers : List Fed → Answers) (t : Traced) :
    (loop p tls (beforeTls answers)).drain t = (loop p tls answers).drain t ∨
      ∃ s, s.fed = ((loop p tls (beforeTls answers)).drain t).fed ∧ s.conn.decoder = [] ∧
        ((loop p tls (beforeTls answers)).drain t).conn.phase = .closed ∧
        (loop p tls answers).drain t = (loop p tls answers).drain s := by
  induction t using Reader.drain.induct (loop p tls answers) with
  | case1 t hnone =>
    rw [Reader.drain_of_none hnone]
    exact .inl (Reader.drain_of_none (turn_beforeTls_none hnone))
  | case2 t t' hturn ih =>
    obtain ⟨s, hturn', hfed, hconn⟩ := turn_beforeTls hturn
    rw [Reader.drain_of_some hturn, Reader.drain_of_some hturn']
    rcases hconn with hconn | ⟨hclosed, hempty⟩
    · have hsame : s = t' := congrArg₂ Traced.mk hconn hfed
      rw [hsame]
      exact ih
    · rw [drain_closed hclosed]
      exact .inr ⟨t', hfed.symm, hempty, hclosed, rfl⟩

theorem run_closed (h : t.conn.phase = .closed) (cut : List Bytes) :
    (loop p tls answers).run t cut = t := by
  induction cut with
  | nil => exact drain_closed h
  | cons piece cut ih =>
    rw [Reader.run, drain_closed h]
    exact (congrArg ((loop p tls answers).run · cut) (read_closed h piece)).trans ih

/-- **The run with TLS begins like the one that ends with a handshake.** Then it goes on with an
empty buffer, over the reads that are left. -/
theorem run_beforeTls (cut : List Bytes) (t : Traced) :
    (loop p tls (beforeTls answers)).run t cut = (loop p tls answers).run t cut ∨
      ∃ s rest, s.fed = ((loop p tls (beforeTls answers)).run t cut).fed ∧
        s.conn.decoder = [] ∧ rest <:+ cut ∧
        (loop p tls answers).run t cut = (loop p tls answers).run s rest := by
  induction cut generalizing t with
  | nil =>
    refine (drain_beforeTls p tls answers t).imp_right ?_
    rintro ⟨s, hfed, hempty, -, hdrain⟩
    exact ⟨s, [], hfed, hempty, List.suffix_rfl, hdrain⟩
  | cons piece cut ih =>
    rw [Reader.run, Reader.run]
    rcases drain_beforeTls p tls answers t with hsame | ⟨s, hfed, hempty, hclosed, hdrain⟩
    · rw [hsame]
      set u := (loop p tls answers).drain t
      rcases read_beforeTls piece u with hread | ⟨hfed, hclosed, hempty⟩
      · have hfeed : (loop p tls (beforeTls answers)).feed piece u =
          (loop p tls answers).feed piece u := hread
        rw [hfeed]
        refine (ih _).imp_right ?_
        rintro ⟨s, rest, hfed, hempty, hrest, hsame⟩
        exact ⟨s, rest, hfed, hempty, hrest.trans (List.suffix_cons _ _), hsame⟩
      · refine .inr ⟨_, cut, ?_, hempty, List.suffix_cons _ _, rfl⟩
        exact hfed.symm.trans (congrArg Traced.fed (run_closed hclosed cut)).symm
    · refine .inr ⟨s, piece :: cut, ?_, hempty, List.suffix_rfl, ?_⟩
      · have hread : (loop p tls (beforeTls answers)).feed piece _ = _ := read_closed hclosed piece
        rw [hread, run_closed hclosed]
        exact hfed
      · rw [Reader.run, hdrain]

end Handshake

/-- **Framing does not depend on chunking, up to a handshake.** However the client's bytes are cut
into reads, if they do not end with a CR, the session of a connection is fed the same commands, data
lines, responses and chunks until TLS begins, with the same place for the first error. With TLS or
not, every line it is fed has at most 998 bytes and no CR, LF or NUL. -/
theorem fed_same (p : Primitives) (tls : Bool) (answers : List Fed → Answers) {c : Conn}
    (hphase : c.phase = .lines) {cut cut' : List Bytes} (hcut : cut.flatten = cut'.flatten)
    (hfine : NoFinalCr cut.flatten) :
    ((loop p tls (beforeTls answers)).run ⟨c, []⟩ cut).fed =
        ((loop p tls (beforeTls answers)).run ⟨c, []⟩ cut').fed ∧
      ∀ input ∈ ((loop p tls answers).run ⟨c, []⟩ cut).fed, input.Fine := by
  have hnone : ∀ fed, (beforeTls answers fed).handshake = none := fun _ ↦ rfl
  have hsame : Same ((loop p tls (beforeTls answers)).run ⟨c, []⟩ cut)
      ((loop p tls (beforeTls answers)).run ⟨c, []⟩ cut') := by
    refine equivalence_same.trans (run_same hnone hphase [] hfine) (equivalence_same.symm ?_)
    rw [hcut]
    exact run_same hnone hphase [] (hcut ▸ hfine)
  refine ⟨?_, fine_run c cut⟩
  rcases hsame with hsame | ⟨hfed, -, -⟩
  · rw [hsame]
  · exact hfed

/-- A server that offers STARTTLS. -/
def offering : Conn := .opened { Session.new "mx.b".toList with tlsAvailable := true }

/-- The surroundings let every handshake succeed. -/
def agreeable (_ : List Fed) : Answers := ⟨.plain, fun _ ↦ .ok ([], none), true, some none⟩

/-- The commands of a client that sends a last one without waiting for the handshake. -/
def hastily : List Bytes :=
  ["EHLO a\r\n", "STARTTLS\r\n", "NOOP\r\n"].map fun line ↦ encodeUtf8 line.toList

theorem fed_same_hastily : NoFinalCr hastily.flatten ∧
    ((loop .plain true (beforeTls agreeable)).run ⟨offering, []⟩ hastily).fed =
      ((loop .plain true (beforeTls agreeable)).run ⟨offering, []⟩ [hastily.flatten]).fed :=
  ⟨by unfold NoFinalCr; decide,
    (fed_same .plain true agreeable rfl (by simp) (by unfold NoFinalCr; decide)).1⟩

/-- What is there before the handshake is dropped: read with STARTTLS, the last command is not
fed. -/
theorem hastily_dropped : hastily.flatten = [hastily.flatten].flatten ∧ NoFinalCr hastily.flatten ∧
    ((loop .plain true agreeable).run ⟨offering, []⟩ [hastily.flatten]).fed =
      (hastily.take 2).map (fun line ↦ Fed.command (line.take (line.length - 2))) ∧
    ((loop .plain true agreeable).run ⟨offering, []⟩ hastily).fed =
      hastily.map (fun line ↦ Fed.command (line.take (line.length - 2))) :=
  ⟨by simp, by unfold NoFinalCr; decide +kernel, by decide +kernel, by decide +kernel⟩

end Connection

end Epistle.Smtp
