import Epistle.Smtp.Session

/-!
# POP3 sessions

A client signs in with `USER` and `PASS` or with `AUTH PLAIN`, and then sees the messages that were
in the INBOX at that moment, numbered from one. Messages that it marks as deleted are removed when
it says `QUIT`. The session knows nothing about sockets and files: the backend verifies passwords
and loads the messages, and a step says which messages it has the backend remove.
-/

namespace Epistle.Pop3

open TextFormat

/-! ## Commands -/

def maxCommandLine : ℕ := 512

inductive Command
  | user (name : Text)
  | pass (password : Text)
  | stat
  | list (number : Option ℕ)
  | retr (number : ℕ)
  | dele (number : ℕ)
  | noop
  | rset
  | quit
  | uidl (number : Option ℕ)
  | top (number lines : ℕ)
  | capa
  | auth (mechanism : Option Text) (initial : Option Text)
  deriving DecidableEq, Repr

inductive ParseError
  | lineTooLong
  | invalidCharacters
  | unknownCommand
  | invalidArguments
  deriving DecidableEq, Repr

/-- Everything after a verb at the beginning of the line and a blank. -/
def oneArg (line : Text) (verb : String) : Except ParseError Text :=
  match line.drop verb.length with
  | ' ' :: c :: rest => .ok (c :: rest)
  | _ => .error .invalidArguments

def noArgs (args : List Text) (command : Command) : Except ParseError Command :=
  if args.isEmpty then .ok command else .error .invalidArguments

def number : List Text → Except ParseError ℕ
  | [arg] => match parseU32 arg with
    | some n => .ok n
    | none => .error .invalidArguments
  | _ => .error .invalidArguments

def optionalNumber : List Text → Except ParseError (Option ℕ)
  | [] => .ok none
  | args => (number args).map some

def Command.parse (line : Text) : Except ParseError Command :=
  if utf8Len line > maxCommandLine then .error .lineTooLong
  else if line.any fun c ↦ !isAscii c || isControl c then .error .invalidCharacters
  else match (line.splitOn ' ').filter (!·.isEmpty) with
    | [] => .error .unknownCommand
    | verb :: args =>
      match String.ofList (toAsciiUppercase verb) with
      | "USER" => (oneArg line "USER").map .user
      | "PASS" => (oneArg line "PASS").map .pass
      | "STAT" => noArgs args .stat
      | "LIST" => (optionalNumber args).map .list
      | "RETR" => (number args).map .retr
      | "DELE" => (number args).map .dele
      | "NOOP" => noArgs args .noop
      | "RSET" => noArgs args .rset
      | "QUIT" => noArgs args .quit
      | "UIDL" => (optionalNumber args).map .uidl
      | "TOP" =>
        match args.map parseU32 with
        | [some n, some lines] => .ok (.top n lines)
        | _ => .error .invalidArguments
      | "CAPA" => noArgs args .capa
      | "AUTH" => .ok (.auth (args.head?.map toAsciiUppercase) args[1]?)
      | _ => .error .unknownCommand

/-! ## The session -/

inductive Response
  | ok (text : Text)
  | err (text : Text)
  | multiline (status : Text) (body : Bytes)
  /-- The connection closes. -/
  | bye (text : Text)
  deriving DecidableEq, Repr

structure Message where
  uid : Text
  data : Bytes
  deleted : Bool

inductive State
  | authorization
  | transaction
  deriving DecidableEq, Repr

structure Session where
  state : State
  user : Option Text
  account : Option Text
  messages : List Message

def Session.new : Session := ⟨.authorization, none, none, []⟩

structure Backend where
  verify : Text → Text → Option Text
  /-- The messages in the INBOX of an account, by their unique ids. -/
  load : Text → List (Text × Bytes)

/-- The end of the headers, or of the message if it has no empty line. -/
def findHeaderEnd (data : Bytes) : ℕ :=
  let position (pattern : Bytes) : Option ℕ :=
    (List.range data.length).find? fun i ↦ pattern.isPrefixOf (data.drop i)
  match position [0x0d, 0x0a, 0x0d, 0x0a], position [0x0a, 0x0a] with
  | some i, _ => i + 4
  | none, some i => i + 2
  | none, none => data.length

/-- The data up to and with the first `n` line ends. -/
def takeLines : ℕ → Bytes → Bytes
  | 0, _ => []
  | _, [] => []
  | n + 1, b :: rest => b :: takeLines (if b = 0x0a then n else n + 1) rest

def topOf (data : Bytes) (lines : ℕ) : Bytes :=
  data.take (findHeaderEnd data) ++ takeLines lines (data.drop (findHeaderEnd data))

namespace Session

/-- A response, the session after it, and what is removed: messages of an account. -/
abbrev Step : Type := Response × Option (Text × List Text) × Session

def respond (response : Response) (s : Session) : Step := (response, none, s)

def ok (text : String) (s : Session) : Step := s.respond (.ok text.toList)

def err (text : String) (s : Session) : Step := s.respond (.err text.toList)

/-- Open the mailbox of an account. -/
def completeLogin (backend : Backend) (account : Text) (s : Session) : Step :=
  let messages := (backend.load account).map fun entry ↦ ⟨entry.1, entry.2, false⟩
  { s with messages, account := some account, state := .transaction }.respond
    (.ok ("mailbox ready, ".toList ++ decimal messages.length ++ " messages".toList))

def login (backend : Backend) (user password : Text) (s : Session) : Step :=
  match backend.verify user password with
  | some account => s.completeLogin backend account
  | none => { s with user := none }.err "authentication failed"

def auth (p : Smtp.Primitives) (backend : Backend) (mechanism initial : Option Text) (s : Session) :
    Step :=
  match mechanism with
  | none => s.respond (.multiline "mechanism list follows".toList (encodeUtf8 "PLAIN\r\n".toList))
  | some mechanism =>
    if mechanism ≠ "PLAIN".toList then s.err "unsupported SASL mechanism"
    else match (initial.bind (Smtp.parsePlain p)).bind fun credentials ↦
        backend.verify credentials.1 credentials.2 with
      | some account => s.completeLogin backend account
      | none => s.err "authentication failed"

def capabilities (s : Session) : Step :=
  s.respond (.multiline "capability list follows".toList
    (encodeUtf8 "USER\r\nUIDL\r\nTOP\r\nSASL PLAIN\r\n".toList))

/-- A command of a client that has not signed in. -/
def authorization (p : Smtp.Primitives) (backend : Backend) (command : Command)
    (s : Session) : Step :=
  match command with
  | .user name => { s with user := some name }.ok "send PASS"
  | .pass password =>
    match s.user with
    | none => s.err "USER required first"
    | some user => s.login backend user password
  | .auth mechanism initial => s.auth p backend mechanism initial
  | .capa => s.capabilities
  | .quit => s.respond (.bye "bye".toList)
  | _ => s.err "authenticate first"

/-- The messages that are not deleted, with their numbers. -/
def live (s : Session) : List (ℕ × Message) :=
  (s.messages.zipIdx 1).filterMap fun entry ↦
    if entry.1.deleted then none else some (entry.2, entry.1)

def liveMessage (number : ℕ) (s : Session) : Option Message :=
  if number = 0 then none else (s.messages[number - 1]?).filter (!·.deleted)

def withMessage (number : ℕ) (answer : Message → Response) (s : Session) : Step :=
  match s.liveMessage number with
  | some message => s.respond (answer message)
  | none => s.err "no such message"

def scanList (status : Text) (entry : Message → Text) (s : Session) : Step :=
  s.respond (.multiline status (encodeUtf8 (s.live.flatMap fun (number, message) ↦
    decimal number ++ ' ' :: entry message ++ "\r\n".toList)))

/-- A command of a client that has signed in. -/
def transaction (command : Command) (s : Session) : Step :=
  let size (message : Message) : Text := decimal message.data.length
  let count : Text := decimal s.live.length
  match command with
  | .stat => s.respond (.ok (count ++ ' ' ::
      decimal (s.live.map fun entry ↦ entry.2.data.length).sum))
  | .list none => s.scanList (count ++ " messages".toList) size
  | .list (some n) => s.withMessage n fun message ↦ .ok (decimal n ++ ' ' :: size message)
  | .uidl none => s.scanList "unique-id listing".toList (·.uid)
  | .uidl (some n) => s.withMessage n fun message ↦ .ok (decimal n ++ ' ' :: message.uid)
  | .retr n => s.withMessage n fun message ↦
      .multiline (size message ++ " octets".toList) message.data
  | .top n lines => s.withMessage n fun message ↦ .multiline "top".toList (topOf message.data lines)
  | .dele n =>
    match s.liveMessage n with
    | none => s.err "no such message"
    | some _ =>
      { s with
        messages := s.messages.modify (n - 1) fun message ↦ { message with deleted := true } }
        |>.respond (.ok ("message ".toList ++ decimal n ++ " deleted".toList))
  | .rset =>
    let messages : List Message := s.messages.map fun message ↦ { message with deleted := false }
    { s with messages }.respond
      (.ok (decimal s.messages.length ++ " messages".toList))
  | .noop => s.ok ""
  | .capa => s.capabilities
  | .quit =>
    let removed := (s.messages.filter (·.deleted)).map (·.uid)
    (.bye "bye".toList, if removed.isEmpty then none else s.account.map fun account ↦
      (account, removed), s)
  | .user _ => s.err "already authenticated"
  | .pass _ => s.err "already authenticated"
  | .auth _ _ => s.err "already authenticated"

def handle (p : Smtp.Primitives) (backend : Backend) (command : Command) (s : Session) : Step :=
  match s.state with
  | .authorization => s.authorization p backend command
  | .transaction => s.transaction command

def line (p : Smtp.Primitives) (backend : Backend) (line : Text) (s : Session) : Step :=
  match Command.parse line with
  | .ok command => s.handle p backend command
  | .error _ => s.err "invalid command"

/-! ### Marks -/

/-- The numbers that `DELE` has named since the last `RSET`. -/
def mark (marks : List ℕ) : Command → List ℕ
  | .dele n => n :: marks
  | .rset => []
  | _ => marks

/-- The messages as they were loaded, those with these numbers deleted. -/
def showing (loaded : List (Text × Bytes)) (marks : List ℕ) : List Message :=
  loaded.mapIdx fun i entry ↦ ⟨entry.1, entry.2, decide (i + 1 ∈ marks)⟩

variable {s : Session} {loaded : List (Text × Bytes)} {marks : List ℕ}

theorem transaction_of_showing (h : s.messages = showing loaded marks) (command : Command) :
    (s.transaction command).2.2 = { s with messages := showing loaded (mark marks command) } := by
  have hsame : { s with messages := showing loaded marks } = s := by rw [← h]
  have hmessage : ∀ n answer, (s.withMessage n answer).2.2 = s := by
    intro n answer
    rw [withMessage]
    split <;> rfl
  cases command with
  | dele n =>
    rw [transaction, mark]
    cases hlive : s.liveMessage n with
    | none =>
      -- there is no such number, or the message has been deleted before
      refine hsame.symm.trans (congrArg (Session.mk _ _ _) (List.mapIdx_eq_mapIdx_iff.2
        fun i hi ↦ ?_))
      have hn : i + 1 = n → i + 1 ∈ marks := by
        rintro rfl
        simpa [liveMessage, h, showing, hi] using hlive
      simp [or_iff_right_of_imp hn]
    | some message =>
      have hn : n ≠ 0 := fun hzero ↦ by simp [liveMessage, hzero] at hlive
      refine congrArg (Session.mk _ _ _) (List.ext_getElem (by simp [h, showing]) fun i _ _ ↦ ?_)
      by_cases hi : i + 1 = n
      · simp [h, showing, ← hi]
      · simp [h, showing, hi, show n - 1 ≠ i by omega]
  | rset =>
    refine congrArg (Session.mk _ _ _) (List.ext_getElem ?_ ?_) <;> simp [h, showing, mark]
  | list n | uidl n => cases n <;> simp [transaction, mark, hsame, hmessage, scanList, respond]
  | retr n | top n lines => simp [transaction, mark, hsame, hmessage]
  | _ => exact hsame.symm

theorem foldl_handle (p : Smtp.Primitives) (commands : List (Backend × Command))
    (hstate : s.state = .transaction) (h : s.messages = showing loaded marks) :
    commands.foldl (fun s e ↦ (s.handle p e.1 e.2).2.2) s =
      { s with messages := showing loaded ((commands.map Prod.snd).foldl mark marks) } := by
  induction commands generalizing s marks with
  | nil => exact congrArg (Session.mk _ _ _) h
  | cons e commands ih =>
    have hstep : s.handle p e.1 e.2 = s.transaction e.2 := by rw [handle, hstate]
    rw [List.foldl_cons, hstep, transaction_of_showing h]
    exact ih (s := { s with messages := _ }) hstate rfl

/-- **`QUIT` removes what is marked.** After the sign-in a session shows the messages that were
loaded then, under the same numbers. At `QUIT` those are removed that `DELE` has named since the
last `RSET`. -/
theorem quit_removes_marked (p : Smtp.Primitives) (backend backend' : Backend) (account : Text)
    (before : Session) (commands : List (Backend × Command)) :
    let s := commands.foldl (fun s e ↦ (s.handle p e.1 e.2).2.2)
      (before.completeLogin backend account).2.2
    let shown := showing (backend.load account) ((commands.map Prod.snd).foldl mark [])
    let removed := (shown.filter (·.deleted)).map (·.uid)
    s.messages = shown ∧
      (s.handle p backend' .quit).2.1 = if removed.isEmpty then none
        else some (account, removed) := by
  have h : (before.completeLogin backend account).2.2.messages =
    showing (backend.load account) [] := by
    apply List.ext_getElem <;> simp [completeLogin, respond, showing]
  rw [foldl_handle p commands rfl h]
  exact ⟨rfl, rfl⟩

end Session

/-! ## The backend -/

/-- Check a password against the account's own hash. -/
def verify (p : Smtp.Primitives) (directory : Smtp.Directory) (user password : Text) :
    Option Text :=
  (((directory.credentials p user).filter fun credentials ↦
    p.verifyPassword credentials.2 password).map Prod.fst).filter fun account ↦
      directory.isProtocolAllowed account .pop3s

end Epistle.Pop3
