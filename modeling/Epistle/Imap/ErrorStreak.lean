import Epistle.Imap.Literals
import Epistle.Interleaving.Machine

/-!
# Clients that are cut off

The connection loop counts the BAD responses that follow one another and drops a client after twenty
of them. It takes a response for BAD if ` BAD ` stands anywhere in the first output to a command
line: in the status line, but just as well in a mailbox name, a header or the text of a message
before it. And it does not look at what is written later, after a literal, a SASL response or an
IDLE.

What the session writes is arbitrary here, up to the status line that each answer of
`Session.apply` ends with. As long as ` BAD ` stands in the first output of those commands, and only
those, that are answered with BAD, a client is cut off when it should be (`cut_iff_of_recognized`).
-/

namespace Epistle.Imap.ErrorStreak

open TextFormat Interleaving

def badWord : Bytes := encodeUtf8 " BAD ".toList

/-- Whether a response is taken for a protocol error. -/
def isBadResponse (bytes : Bytes) : Bool := bytes.tails.any badWord.isPrefixOf

theorem isBadResponse_iff {bytes : Bytes} : isBadResponse bytes = true ↔ badWord <:+: bytes := by
  rw [isBadResponse, List.any_eq_true, List.infix_iff_prefix_suffix]
  refine exists_congr fun t ↦ ?_
  rw [List.mem_tails, List.isPrefixOf_iff_prefix, and_comm]

/-- The answer to a command: data as they were asked for, and the status line. -/
structure Answer where
  data : Bytes
  /-- The tag of the command, or `*`. -/
  tag : Bytes
  status : Status
  text : Bytes
  deriving DecidableEq

def Answer.word (answer : Answer) : Bytes :=
  match answer.status with
  | .ok => encodeUtf8 " OK ".toList
  | .no => encodeUtf8 " NO ".toList
  | .bad => badWord

def Answer.bytes (answer : Answer) : Bytes :=
  answer.data ++ answer.tag ++ answer.word ++ (answer.text ++ encodeUtf8 "\r\n".toList)

/-- A round of the loop: the client sends a command line, and the session answers. -/
inductive Round
  /-- The line is not UTF-8. -/
  | undecoded
  | answered (answer : Answer)
  /-- The session first asks for a literal, a SASL response or the end of an IDLE. -/
  | continued (request : Bytes) (answer : Answer)

namespace Round

/-- What is written first. -/
def output : Round → Bytes
  | undecoded => encodeUtf8 "* BAD non-ASCII command\r\n".toList
  | answered answer => answer.bytes
  | continued request _ => request

def status : Round → Status
  | undecoded => .bad
  | answered answer => answer.status
  | continued _ answer => answer.status

/-- The condition: ` BAD ` is not in the output to a command that is answered otherwise; and where
the answer comes later, it is in the first output if and only if the answer is BAD. -/
def Recognized : Round → Prop
  | undecoded => True
  | answered answer => answer.status ≠ .bad → ¬ badWord <:+: answer.bytes
  | continued request answer => answer.status = .bad ↔ badWord <:+: request

instance : DecidablePred Recognized
  | undecoded | answered _ | continued _ _ => by dsimp only [Recognized]; infer_instance

/-- A BAD answer is always taken for one if it is what is written first. -/
theorem recognized_iff {r : Round} :
    r.Recognized ↔ (isBadResponse r.output = true ↔ r.status = .bad) := by
  cases r with
  | undecoded => exact iff_of_true trivial (by decide)
  | continued request answer => rw [isBadResponse_iff]; exact Iff.comm
  | answered answer =>
    rw [isBadResponse_iff]
    change (answer.status ≠ .bad → ¬ badWord <:+: answer.bytes) ↔
      (badWord <:+: answer.bytes ↔ answer.status = .bad)
    have hword : answer.status = .bad → badWord <:+: answer.bytes := by
      intro hbad
      have hbytes : answer.word = badWord := by rw [Answer.word, hbad]
      rw [Answer.bytes, hbytes]
      exact List.infix_append _ _ _
    tauto

end Round

/-! ## The outputs of a session -/

section

variable (part : FetchData → Bytes)

/-- A response as it is written, given the data items of a FETCH. -/
def written : Response → Bytes
  | .existing count => encodeUtf8 ("* ".toList ++ decimal count ++ " EXISTS\r\n".toList)
  | .expunge sequence => encodeUtf8 ("* ".toList ++ decimal sequence ++ " EXPUNGE\r\n".toList)
  | .vanished earlier uids => encodeUtf8 ("* VANISHED ".toList ++
      (if earlier then "(EARLIER) ".toList else []) ++ uidSet uids ++ "\r\n".toList)
  | .fetch sequence data => encodeUtf8 ("* ".toList ++ decimal sequence ++ " FETCH (".toList) ++
      (encodeUtf8 [' ']).intercalate (data.map part) ++ encodeUtf8 ")\r\n".toList
  | .uidFetch uid data => encodeUtf8 ("* UIDFETCH ".toList ++ decimal uid.toNat ++ " (".toList) ++
      (encodeUtf8 [' ']).intercalate (data.map part) ++ encodeUtf8 ")\r\n".toList
  | .untagged text => encodeUtf8 ("* ".toList ++ text ++ "\r\n".toList)
  | .continuation text => encodeUtf8 ("+ ".toList ++ text ++ "\r\n".toList)
  | .tagged tag status text => Answer.bytes ⟨[], encodeUtf8 tag, status, encodeUtf8 text⟩

/-- The answer that responses are, if they end with a status line. -/
def answerOf (responses : List Response) : Option Answer :=
  match responses.getLast? with
  | some (.tagged tag status text) =>
    some ⟨responses.dropLast.flatMap (written part), encodeUtf8 tag, status, encodeUtf8 text⟩
  | _ => none

theorem bytes_answerOf {responses : List Response} {answer : Answer}
    (h : answerOf part responses = some answer) :
    answer.bytes = responses.flatMap (written part) := by
  unfold answerOf at h
  split at h
  · rename_i tag status text hlast
    obtain rfl := Option.some.inj h
    conv_rhs => rw [← List.dropLast_append_getLast? _ hlast]
    rw [List.flatMap_append, List.flatMap_singleton]
    simp only [written, Answer.bytes, Answer.word, List.append_assoc, List.nil_append]
  · cases h

/-- The session answers a command with its tag, unless it asks for a literal or for the end of an
IDLE. -/
theorem answers_apply (env : Env) (tag : Text) (command : Session.Command) (s : Session) :
    (s.apply env tag command).Returns fun r ↦ r.1.collectLiteral.isSome ∨ r.1.idle = true ∨
      ∃ answer, answerOf part r.1.responses = some answer ∧ answer.tag = encodeUtf8 tag := by
  have hended : ∀ (responses : List Response) (status : Status) (text : Text), ∃ answer,
      answerOf part (responses ++ [.tagged tag status text]) = some answer ∧
        answer.tag = encodeUtf8 tag := by
    intro responses status text
    rw [answerOf, List.getLast?_concat]
    exact ⟨_, rfl, rfl⟩
  rw [Session.apply]
  split
  · exact .inr (.inr (hended [] _ _))
  · cases command <;>
      simp only [Session.handle, Session.select, Session.close, Session.unselect, Session.leave,
        Session.mailboxOp, Session.expunge, Session.uidExpunge, Session.expungeWith, Session.idle,
        Session.appendBegin, Session.replaceBegin, Session.beginLiteral, Session.fetch,
        Session.store, Session.copy] <;>
      repeat' first
        | exact .inr (.inr (hended [] _ _))
        | exact .inr (.inr (hended _ _ _))
        | exact .inl rfl
        | exact .inr (.inl rfl)
        | refine .bind (.trivial _) fun _ _ ↦ ?_
        | split

end

/-! ## The connection -/

structure World where
  errorStreak : ℕ
  /-- The connection was closed with `too many errors`. -/
  cut : Bool
  /-- The number of commands, up to the last, that were all answered with BAD. -/
  bads : ℕ

def World.start : World := ⟨0, false, 0⟩

def World.round (w : World) (r : Round) : World :=
  let errorStreak := if isBadResponse r.output then w.errorStreak + 1 else 0
  ⟨errorStreak, Literal.maxErrorStreak ≤ errorStreak, if r.status = .bad then w.bads + 1 else 0⟩

def machine : Machine World Round := ⟨fun w _ ↦ w.cut = false, World.round⟩

instance (w : World) (r : Round) : Decidable (machine.enabled w r) :=
  inferInstanceAs (Decidable (w.cut = false))

/-- What the loop maintains while it counts what it should. -/
structure Counted (w : World) : Prop where
  streak : w.errorStreak = w.bads
  cut_iff : w.cut = true ↔ Literal.maxErrorStreak ≤ w.errorStreak

theorem Counted.round {w : World} (h : Counted w) {r : Round} (hr : r.Recognized) :
    Counted (w.round r) := by
  rw [Round.recognized_iff] at hr
  refine ⟨?_, decide_eq_true_iff⟩
  simp only [World.round, hr, h.streak]

/-- **When a client is cut off.** In every connection where ` BAD ` is written first to the commands
that are answered with BAD and to no others, a client is cut off after twenty BAD answers in a row
and not before. -/
theorem cut_iff_of_recognized {w : World}
    (hreach : machine.Reach (fun _ r ↦ r.Recognized) .start w) :
    w.cut = true ↔ Literal.maxErrorStreak ≤ w.bads := by
  have hcounted : Counted w := by
    refine hreach.invariant ⟨rfl, by decide⟩ fun w r hw _ hr ↦ ?_
    exact hw.round hr
  rw [hcounted.cut_iff, hcounted.streak]

/-- A NOOP, and then nothing that is UTF-8. -/
def noise : List Round :=
  .answered ⟨[], encodeUtf8 "a".toList, .ok, encodeUtf8 "NOOP completed".toList⟩ ::
    List.replicate 20 .undecoded

theorem cut_noise : (noise.foldl machine.step .start).cut = true ∧
    Literal.maxErrorStreak ≤ (noise.foldl machine.step .start).bads :=
  ⟨by decide, (cut_iff_of_recognized (.of_passes (by decide))).mp (by decide)⟩

/-- The raw message, as it is sent for `BODY[]`. -/
def bodyPart : FetchData → Bytes
  | .body data =>
    encodeUtf8 ("BODY[] \x7b".toList ++ decimal data.length ++ "\x7d\r\n".toList) ++ data
  | _ => []

def message : Bytes := encodeUtf8 "Subject: a BAD day\r\n\r\n".toList

/-- What a session answers to `FETCH 1 BODY[]` in an INBOX with that message. -/
def fetchResponses : List Response :=
  let a := ((deliverTo .disabled none message [] ((envAt 10).stamp 0)).run Account.exec .empty).2
  let selected := (Session.loggedIn.apply (envAt 20) "a".toList
    (.select "INBOX".toList none)).run Account.exec a
  ((selected.1.2.apply (envAt 30) "a".toList
    (.fetch ⟨[(1, none)], false⟩ [.body] false none false)).run Account.exec
      selected.2).1.1.responses

def fetched : Answer :=
  ⟨encodeUtf8 "* 1 FETCH (BODY[] \x7b22\x7d\r\nSubject: a BAD day\r\n\r\n)\r\n".toList,
    encodeUtf8 "a".toList, .ok, encodeUtf8 "FETCH completed".toList⟩

/-- An AUTHENTICATE is cancelled by the client. -/
def cancelled : Round := .continued (encodeUtf8 "+ \r\n".toList)
  ⟨[], encodeUtf8 "a".toList, .bad, encodeUtf8 "authentication cancelled".toList⟩

/-- A client is cut off after twenty FETCHes that succeed, and is not after twenty commands that are
all answered with BAD. -/
theorem wellBehaved_cut :
    answerOf bodyPart fetchResponses = some fetched ∧ fetched.status = .ok ∧
      ((List.replicate 20 (.answered fetched)).foldl machine.step .start).cut = true ∧
      cancelled.status = .bad ∧
      ((List.replicate 20 cancelled).foldl machine.step .start).cut = false :=
  ⟨by decide +kernel, rfl, by decide, rfl, by decide⟩

end Epistle.Imap.ErrorStreak
