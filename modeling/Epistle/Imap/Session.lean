import Epistle.Imap.Account

/-!
# IMAP sessions

The commands of an IMAP session that read or change mailboxes, handler by handler. A handler gets
the session, works in the account and returns the session after it and what is sent to the client. A
response is kept as what it says, with the data it is rendered from; the texts of status responses
are kept as they are sent.

A session shows its client one mailbox through a snapshot. It takes a new one when a mailbox is
selected, when it polls for changes during IDLE, and when a REPLACE completes; the other commands
work on the snapshot it has.
-/

namespace Epistle.Imap

open TextFormat Interleaving

/-- The largest value of a 32-bit number; counts and positions saturate at it. -/
def u32Max : ℕ := 2 ^ 32 - 1

/-! ## Sequence sets -/

/-- A sequence set: ranges in which 0 stands for `*`, or the result of an earlier search. -/
structure SequenceSet where
  ranges : List (ℕ × Option ℕ)
  saved : Bool

namespace SequenceSet

/-- The bounds of a range, given the largest value there is. -/
def bounds (max : ℕ) (start : ℕ) (stop : Option ℕ) : ℕ × ℕ :=
  let stop := stop.getD start
  if start = 0 then (max, Nat.max (Nat.min stop max) max)
  else if stop = 0 then (Nat.min start max, max)
  else if start ≤ stop then (start, stop)
  else (stop, start)

/-- Whether a sequence number or UID is in the set. -/
def contains (set : SequenceSet) (value max : ℕ) (saved : List ℕ) : Bool :=
  if set.saved then saved.contains value
  else set.ranges.any fun range ↦
    let (low, high) := bounds max range.1 range.2
    low ≤ value && value ≤ high

end SequenceSet

/-! ## Commands -/

/-- How STORE applies its flags. -/
inductive StoreMode
  | set
  | add
  | remove
  deriving DecidableEq

inductive FetchItem
  | flags
  | uid
  | rfc822Size
  | internalDate
  | modseq
  | emailId
  | threadId
  | saveDate
  | preview
  | body
  | binary
  | binarySize
  deriving DecidableEq

inductive Session.Command
  | noop
  | select (mailbox : Text) (qresync : Option (UInt32 × ℕ))
  | examine (mailbox : Text) (qresync : Option (UInt32 × ℕ))
  | close
  | unselect
  | create (mailbox : Text)
  | delete (mailbox : Text)
  | rename (source target : Text)
  | expunge
  | uidExpunge (sequence : SequenceSet)
  | idle
  | append (mailbox : Text) (flags : List Text) (size : ℕ)
  | replace (sequence : ℕ) (mailbox : Text) (flags : List Text) (size : ℕ) (uid : Bool)
  | fetch (sequence : SequenceSet) (items : List FetchItem) (uid : Bool) (changedSince : Option ℕ)
      (vanished : Bool)
  | store (sequence : SequenceSet) (mode : StoreMode) (flags : List Text) (silent uid : Bool)
      (unchangedSince : Option ℕ)
  | copy (sequence : SequenceSet) (mailbox : Text) (uid removeSource : Bool)

/-! ## Responses -/

/-- One data item of a FETCH response. For a section of the message this is the raw message the
section is taken from. -/
inductive FetchData
  | flags (flags : List Flag)
  | uid (uid : UInt32)
  | rfc822Size (size : ℕ)
  | internalDate (date : SystemTime)
  | modseq (modseq : ℕ)
  | emailId (id : Uuid)
  | threadId (id : Uuid)
  | saveDate (date : SystemTime)
  | preview (data : List UInt8)
  | body (data : List UInt8)
  | binary (data : List UInt8)
  | binarySize (data : List UInt8)

/-- The kind of a status response. -/
inductive Status
  | ok
  | no
  | bad
  deriving DecidableEq

/-- A line, or several, sent to the client. -/
inductive Response
  /-- `* <count> EXISTS` -/
  | existing (count : ℕ)
  /-- `* <sequence> EXPUNGE` -/
  | expunge (sequence : ℕ)
  /-- `* VANISHED <uids>`, or `* VANISHED (EARLIER) <uids>` -/
  | vanished (earlier : Bool) (uids : List UInt32)
  /-- `* <sequence> FETCH (<data>)` -/
  | fetch (sequence : ℕ) (data : List FetchData)
  /-- `* UIDFETCH <uid> (<data>)` -/
  | uidFetch (uid : UInt32) (data : List FetchData)
  | untagged (text : Text)
  /-- `+ <text>` -/
  | continuation (text : Text)
  /-- `<tag> <status> <text>` -/
  | tagged (tag : Text) (status : Status) (text : Text)

structure Output where
  responses : List Response
  /-- The size of a literal that the client sends next. -/
  collectLiteral : Option ℕ
  /-- The session is now idling. -/
  idle : Bool

def Output.text (responses : List Response) : Output := ⟨responses, none, false⟩

def Output.tagged (tag : Text) (status : Status) (text : String) : Output :=
  .text [.tagged tag status text.toList]

/-! ## The state of a session -/

inductive State
  | notAuthenticated
  | authenticated
  | selected (mailbox : Text) (snapshot : Snapshot) (readOnly : Bool)

structure PendingLiteral where
  tag : Text
  mailbox : Text
  flags : List Flag
  /-- For REPLACE only: the selected mailbox to expunge from and the sequence number of the message,
  resolved when the command was received. -/
  replace : Option (Text × ℕ)

/-- The result of a search that later commands may refer to. -/
structure SavedSearch where
  areUids : Bool
  values : List ℕ

structure Session where
  state : State
  pendingAppend : Option PendingLiteral
  uidonly : Bool
  idleTag : Option Text
  savedSearch : Option SavedSearch
  /-- The storage quota in force for the account. -/
  quota : ℕ
  crypto : MessageCrypto
  retentionDays : ℕ

/-- What the outside world gives to one step: the time, and what is drawn for new messages. -/
structure Env where
  clock : SystemTime
  stamp : ℕ → Stamp

abbrev Handler : Type := AccountM (Output × Session)

/-! ## Small parts -/

namespace Snapshot

/-- The directory a snapshot was opened in. -/
def path (snapshot : Snapshot) : Path := (mailboxDir snapshot.mailbox).getD .inbox

/-- The number of messages, as far as a 32-bit number can tell. -/
def total (snapshot : Snapshot) : ℕ := min snapshot.messages.length u32Max

/-- The sequence numbers a command goes through. -/
def sequenceNumbers (snapshot : Snapshot) : List ℕ := (List.range snapshot.total).map (· + 1)

def read (snapshot : Snapshot) (message : MessageRef) : AccountM (Option (List UInt8)) :=
  inMailbox snapshot.path do
    let stored : Option (List UInt8) ← call (.readMail message.id)
    pure (stored.bind snapshot.crypto.decode)

/-- UIDs expunged after `modseq`. -/
def vanishedSince (snapshot : Snapshot) (modseq : ℕ) : AccountM (List UInt32) :=
  inMailbox snapshot.path (Vanished.since modseq)

end Snapshot

/-- What a command selects a message by. -/
def selector (uid : Bool) (sequenceNumber : ℕ) (message : MessageRef) : ℕ :=
  if uid then message.uid.toNat else sequenceNumber

def uidSet (uids : List UInt32) : Text :=
  [','].intercalate (uids.map fun uid ↦ decimal uid.toNat)

/-- The destination UIDs of copied messages, with the UIDVALIDITY seen last. -/
def destUids (target : Text) (clock : SystemTime) :
    List Uuid → UInt32 → AccountM (Option (UInt32 × List UInt32))
  | [], validity => pure (some (validity, []))
  | id :: ids, _ => do
    match ← appenduid target id clock with
    | none => pure none
    | some (validity, uid) =>
      match ← destUids target clock ids validity with
      | none => pure none
      | some (validity, uids) => pure (some (validity, uid :: uids))

def copyuidCode (target : Text) (clock : SystemTime) (sourceUids : List UInt32)
    (destIds : List Uuid) : AccountM Text :=
  if destIds.isEmpty then pure []
  else do
    match ← destUids target clock destIds 0 with
    | none => pure []
    | some (validity, uids) =>
      if uids.length ≠ sourceUids.length then pure []
      else pure ("[COPYUID ".toList ++ decimal validity.toNat ++ [' '] ++
        uidSet sourceUids ++ [' '] ++
        uidSet uids ++ "] ".toList)

/-- The untagged responses of an expunge. -/
def expungeResponse (uidonly : Bool) (expunged : List ℕ) (deletedUids : List UInt32) :
    List Response :=
  if uidonly then if deletedUids.isEmpty then [] else [.vanished false deletedUids]
  else expunged.map .expunge

def dedup : List Flag → List Flag
  | flag :: next :: rest =>
    if flag = next then dedup (next :: rest) else flag :: dedup (next :: rest)
  | flags => flags

/-- The flags of a message after a STORE, computed from the flags it is taken to have. -/
def StoreMode.apply (mode : StoreMode) (flags current : List Flag) : List Flag :=
  dedup <| match mode with
    | .set => flags
    | .add => flags.foldl (fun existing flag ↦
        if existing.contains flag then existing else existing ++ [flag]) current
    | .remove => current.filter fun flag ↦ !flags.contains flag

namespace Session

def snapshot? (s : Session) : Option Snapshot :=
  match s.state with
  | .selected _ snapshot _ => some snapshot
  | _ => none

def openSnapshot (s : Session) (mailbox : Text) (clock : SystemTime) : AccountM (Option Snapshot) :=
  openMailbox s.crypto mailbox s.retentionDays clock

/-- Whether a command that refers to a saved search can. -/
def savedSearchOk (s : Session) (uidKind : Bool) : Bool :=
  s.savedSearch.any fun saved ↦ saved.areUids == uidKind

/-- The values that a reference to a saved search stands for. -/
def savedSeqnosFor (s : Session) (uidKind : Bool) : List ℕ :=
  match s.savedSearch with
  | some saved => if saved.areUids = uidKind then saved.values else []
  | none => []

/-! ## SELECT, CLOSE, UNSELECT -/

/-- The responses that describe a mailbox that has been selected. -/
def selectResponses (snapshot : Snapshot) : List Response :=
  let validity := decimal snapshot.uidValidity.toNat
  [.existing snapshot.messages.length,
    .untagged ("OK [UIDVALIDITY ".toList ++ validity ++ "] UIDs valid".toList),
    .untagged ("OK [UIDNEXT ".toList ++ decimal snapshot.uidNext.toNat ++
      "] predicted next UID".toList),
    .untagged ("OK [MAILBOXID (M".toList ++ validity ++ ")] mailbox object id".toList),
    .untagged ("OK [HIGHESTMODSEQ ".toList ++ decimal snapshot.highestModseq ++
      "] highest mod-sequence".toList),
    .untagged "FLAGS (\\Seen \\Answered \\Flagged \\Deleted \\Draft)".toList,
    .untagged ("OK [PERMANENTFLAGS (\\Seen \\Answered \\Flagged \\Deleted \\Draft)]".toList ++
      " limits".toList)]

/-- The UIDs to report as vanished to a client that resynchronises. -/
def selectVanished (snapshot : Snapshot) (qresync : Option (UInt32 × ℕ)) :
    AccountM (List Response) :=
  match qresync with
  | some (uidValidity, modseq) =>
    if uidValidity = snapshot.uidValidity then do
      let uids ← snapshot.vanishedSince modseq
      pure (if uids.isEmpty then [] else [.vanished true uids])
    else pure []
  | none => pure []

def select (env : Env) (tag mailbox : Text) (readOnly : Bool) (qresync : Option (UInt32 × ℕ))
    (s : Session) : Handler :=
  match s.state with
  | .notAuthenticated => pure (.tagged tag .no "not authenticated", s)
  | _ => do
    if ← mailboxExists mailbox then
      match ← s.openSnapshot mailbox env.clock with
      | none => pure (.tagged tag .no "cannot open mailbox", s)
      | some snapshot =>
        let vanished ← selectVanished snapshot qresync
        let completed := if readOnly then "[READ-ONLY] EXAMINE completed"
          else "[READ-WRITE] SELECT completed"
        pure (.text (selectResponses snapshot ++ vanished ++ [.tagged tag .ok completed.toList]),
          { s with state := .selected mailbox snapshot readOnly })
    else pure (.tagged tag .no "no such mailbox", s)

/-- Leave the mailbox, without expunging it. -/
def leave (tag : Text) (completed : String) (s : Session) : Handler :=
  match s.state with
  | .selected .. => pure (.tagged tag .ok completed, { s with state := .authenticated })
  | _ => pure (.tagged tag .bad "no mailbox selected", s)

def close (tag : Text) (s : Session) : Handler := s.leave tag "CLOSE completed"

def unselect (tag : Text) (s : Session) : Handler := s.leave tag "UNSELECT completed"

/-! ## CREATE, DELETE, RENAME -/

def mailboxOp (tag : Text) (verb : String) (operation : AccountM (Except Text Unit)) (s : Session) :
    Handler :=
  match s.state with
  | .notAuthenticated => pure (.tagged tag .no "not authenticated", s)
  | _ => do
    match ← operation with
    | .ok () => pure (.text [.tagged tag .ok (verb.toList ++ " completed".toList)], s)
    | .error error => pure (.text [.tagged tag .no error], s)

/-! ## EXPUNGE -/

/-- Run an expunge on the live snapshot, after its handler has found which UIDs it will remove. -/
def expungeWith (tag : Text) (operation : Snapshot → FileM (List ℕ × Snapshot))
    (deletedUids : Snapshot → List UInt32) (s : Session) : Handler :=
  match s.state with
  | .selected mailbox snapshot readOnly =>
    if readOnly then pure (.tagged tag .no "mailbox is read-only", s)
    else do
      let (expunged, left) ← inMailbox snapshot.path (operation snapshot)
      pure (.text (expungeResponse s.uidonly expunged (deletedUids snapshot) ++
          [.tagged tag .ok "EXPUNGE completed".toList]),
        { s with state := .selected mailbox left readOnly })
  | _ => pure (.tagged tag .bad "no mailbox selected", s)

def expunge (tag : Text) (s : Session) : Handler :=
  s.expungeWith tag Snapshot.expunge fun snapshot ↦
    (snapshot.messages.filter fun message ↦ message.flags.contains .deleted).map MessageRef.uid

def uidsIn (sequence : SequenceSet) (saved : List ℕ) (snapshot : Snapshot) : List UInt32 :=
  let uids := snapshot.messages.map MessageRef.uid
  uids.filter fun uid ↦ sequence.contains uid.toNat ((uids.map UInt32.toNat).max?.getD 0) saved

def uidExpunge (tag : Text) (sequence : SequenceSet) (s : Session) : Handler :=
  let uids := uidsIn sequence (s.savedSeqnosFor true)
  s.expungeWith tag (fun snapshot ↦ snapshot.expungeUids (uids snapshot)) fun snapshot ↦
    (snapshot.messages.filter fun message ↦
      message.flags.contains .deleted && (uids snapshot).contains message.uid).map MessageRef.uid

/-! ## FETCH -/

/-- A section of a message, or `none` if the message cannot be read. -/
def fetchSection (snapshot : Snapshot) (message : MessageRef) (part : List UInt8 → FetchData) :
    AccountM (Option (List FetchData)) := do
  let data ← snapshot.read message
  pure (data.map fun data ↦ [part data])

def fetchItem (uidonly : Bool) (snapshot : Snapshot) (message : MessageRef) :
    FetchItem → AccountM (Option (List FetchData))
  -- under UIDONLY the UID leads the response
  | .uid => pure (some (if uidonly then [] else [.uid message.uid]))
  | .flags => pure (some [.flags message.flags])
  | .rfc822Size => pure (some [.rfc822Size message.size])
  | .internalDate => pure (some [.internalDate message.internalDate])
  | .modseq => pure (some [.modseq message.modseq])
  | .emailId => pure (some [.emailId message.id])
  | .threadId => pure (some [.threadId message.id])
  | .saveDate => pure (some [.saveDate message.internalDate])
  | .preview => fetchSection snapshot message .preview
  | .body => fetchSection snapshot message .body
  | .binary => fetchSection snapshot message .binary
  | .binarySize => fetchSection snapshot message .binarySize

def fetchItems (uidonly : Bool) (snapshot : Snapshot) (message : MessageRef) :
    List FetchItem → AccountM (Option (List FetchData))
  | [] => pure (some [])
  | item :: items => do
    match ← fetchItem uidonly snapshot message item with
    | none => pure none
    | some parts =>
      match ← fetchItems uidonly snapshot message items with
      | none => pure none
      | some rest => pure (some (parts ++ rest))

/-- The responses for the given sequence numbers, or `none` if a message cannot be read. -/
def fetchLoop (uidonly uid : Bool) (snapshot : Snapshot) (sequence : SequenceSet) (saved : List ℕ)
    (items : List FetchItem) (changedSince : Option ℕ) : List ℕ → AccountM (Option (List Response))
  | [] => pure (some [])
  | n :: rest =>
    match snapshot.bySequence n with
    | none => fetchLoop uidonly uid snapshot sequence saved items changedSince rest
    | some message =>
      if !sequence.contains (selector uid n message) snapshot.total saved ||
          changedSince.any (message.modseq ≤ ·) then
        fetchLoop uidonly uid snapshot sequence saved items changedSince rest
      else do
        match ← fetchItems uidonly snapshot message items with
        | none => pure none
        | some data =>
          match ← fetchLoop uidonly uid snapshot sequence saved items changedSince rest with
          | none => pure none
          | some responses =>
            pure
              (some ((if uidonly then .uidFetch message.uid data else .fetch n data) :: responses))

/-- The report of vanished UIDs that a FETCH can ask for. -/
def fetchVanished (snapshot : Snapshot) (vanished : Bool) (changedSince : Option ℕ) :
    AccountM (List Response) :=
  match vanished, changedSince with
  | true, some since => do
    let uids ← snapshot.vanishedSince since
    pure (if uids.isEmpty then [] else [.vanished true uids])
  | _, _ => pure []

def fetch (tag : Text) (sequence : SequenceSet) (items : List FetchItem) (uid : Bool)
    (changedSince : Option ℕ) (vanished : Bool) (s : Session) : Handler :=
  match s.snapshot? with
  | none => pure (.tagged tag .bad "no mailbox selected", s)
  | some snapshot => do
    let earlier ← fetchVanished snapshot vanished changedSince
    match ← fetchLoop s.uidonly uid snapshot sequence (s.savedSeqnosFor uid) items changedSince
        snapshot.sequenceNumbers with
    | none => pure (.tagged tag .no "message unavailable", s)
    | some responses =>
      pure (.text (earlier ++ responses ++ [.tagged tag .ok "FETCH completed".toList]), s)

/-! ## STORE -/

structure StoreArgs where
  sequence : SequenceSet
  mode : StoreMode
  flags : List Flag
  (silent uid : Bool)
  unchangedSince : Option ℕ

/-- The response to the change of one message. -/
def storeResponse (uidonly : Bool) (args : StoreArgs) (n : ℕ) (uid : UInt32) (stored : List Flag)
    (modseq : Option ℕ) : List Response :=
  if args.silent then []
  else
    let modseq := if args.unchangedSince.isSome then (modseq.map FetchData.modseq).toList else []
    if uidonly then [.uidFetch uid (modseq ++ [.flags stored])]
    else [.fetch n ((if args.uid then [.uid uid] else []) ++ modseq ++ [.flags stored])]

/-- Go through the sequence numbers, changing the flags of those in the set. Returns the responses
and the UIDs not changed because their mod-sequence is too high, or `none` on an error, and the
snapshot after it. -/
def storeLoop (uidonly : Bool) (args : StoreArgs) (saved : List ℕ) (total : ℕ) :
    List ℕ → Snapshot → AccountM (Option (List Response × List UInt32) × Snapshot)
  | [], snapshot => pure (some ([], []), snapshot)
  | n :: rest, snapshot =>
    match snapshot.bySequence n with
    | none => storeLoop uidonly args saved total rest snapshot
    | some message =>
      if !args.sequence.contains (selector args.uid n message) total saved then
        storeLoop uidonly args saved total rest snapshot
      -- the mod-sequence is the one the snapshot shows
      else if args.unchangedSince.any (message.modseq > ·) then do
        let (result, snapshot) ← storeLoop uidonly args saved total rest snapshot
        pure (result.map fun r ↦ (r.1, message.uid :: r.2), snapshot)
      else do
        let (stored, snapshot) ← inMailbox snapshot.path
          (snapshot.storeFlags n (args.mode.apply args.flags message.flags))
        match stored with
        | none => pure (none, snapshot)
        | some stored =>
          let response := storeResponse uidonly args n message.uid stored
            ((snapshot.bySequence n).map MessageRef.modseq)
          let (result, snapshot) ← storeLoop uidonly args saved total rest snapshot
          pure (result.map fun r ↦ (response ++ r.1, r.2), snapshot)

def storeCompleted (tag : Text) (modified : List UInt32) : Response :=
  let code := if modified.isEmpty then [] else "[MODIFIED ".toList ++ uidSet modified ++ "] ".toList
  .tagged tag .ok (code ++ "STORE completed".toList)

def store (tag : Text) (sequence : SequenceSet) (mode : StoreMode) (flagTokens : List Text)
    (silent uid : Bool) (unchangedSince : Option ℕ) (s : Session) : Handler :=
  match s.state with
  | .selected mailbox snapshot readOnly =>
    if readOnly then pure (.tagged tag .no "mailbox is read-only", s)
    else match flagTokens.mapM Flag.parse with
      | none => pure (.tagged tag .bad "unsupported flag", s)
      | some flags => do
        let (result, left) ← storeLoop s.uidonly
          ⟨sequence, mode, flags, silent, uid, unchangedSince⟩ (s.savedSeqnosFor uid)
          snapshot.total snapshot.sequenceNumbers snapshot
        let s := { s with state := .selected mailbox left readOnly }
        match result with
        | none => pure (.tagged tag .no "cannot store flags", s)
        | some (responses, modified) =>
          pure (.text (responses ++ [storeCompleted tag modified]), s)
  | _ => pure (.tagged tag .bad "no mailbox selected", s)

/-! ## COPY and MOVE -/

/-- The sequence numbers a command matches, with their messages. -/
def matching (snapshot : Snapshot) (sequence : SequenceSet) (uid : Bool) (saved : List ℕ) :
    List (ℕ × MessageRef) :=
  snapshot.sequenceNumbers.filterMap fun n ↦
    (snapshot.bySequence n).bind fun message ↦
      if sequence.contains (selector uid n message) snapshot.total saved then some (n, message)
      else none

/-- Append copies of messages to a mailbox, or say what went wrong; the `k`-th new message gets the
`k`-th stamp. -/
def copyLoop (crypto : MessageCrypto) (stamp : ℕ → Stamp) (snapshot : Snapshot) (target : Text) :
    ℕ → List MessageRef → AccountM (Except String (List Uuid))
  | _, [] => pure (.ok [])
  | k, message :: rest => do
    match ← snapshot.read message with
    | none => pure (.error "message unavailable")
    | some data =>
      match ← appendTo crypto target message.flags data (stamp k) with
      | none => pure (.error "copy failed")
      | some id =>
        match ← copyLoop crypto stamp snapshot target (k + 1) rest with
        | .error error => pure (.error error)
        | .ok ids => pure (.ok (id :: ids))

/-- Remove the moved messages. Each sequence number is lowered by the number of messages already
gone. Returns whether it went well, the sequence numbers as they are sent and the snapshot. -/
def moveLoop : ℕ → List ℕ → Snapshot → FileM (Bool × List ℕ × Snapshot)
  | _, [], snapshot => pure (true, [], snapshot)
  | offset, n :: rest, snapshot => do
    let current := n - (if offset ≤ u32Max then offset else 0)
    let (removed, snapshot) ← snapshot.removeAt current
    if removed then
      let (done, sent, snapshot) ← moveLoop (offset + 1) rest snapshot
      pure (done, current :: sent, snapshot)
    else pure (false, [], snapshot)

def copy (env : Env) (tag : Text) (sequence : SequenceSet) (target : Text) (uid removeSource : Bool)
    (s : Session) : Handler :=
  match s.state with
  | .selected mailbox snapshot readOnly =>
    if removeSource && readOnly then pure (.tagged tag .no "mailbox is read-only", s)
    else do
      if ← mailboxExists target then
        let matched := matching snapshot sequence uid (s.savedSeqnosFor uid)
        let sourceUids := matched.map fun m ↦ m.2.uid
        match ← copyLoop s.crypto env.stamp snapshot target 0 (matched.map Prod.snd) with
        | .error error => pure (.tagged tag .no error, s)
        | .ok destIds =>
          let code ← copyuidCode target env.clock sourceUids destIds
          if removeSource then
            let (done, sent, left) ← inMailbox snapshot.path
              (moveLoop 0 (matched.map Prod.fst) snapshot)
            let s := { s with state := .selected mailbox left readOnly }
            if done then
              pure (.text (expungeResponse s.uidonly sent sourceUids ++
                [.tagged tag .ok (code ++ "MOVE completed".toList)]), s)
            else pure (.tagged tag .no "move failed", s)
          else pure (.text [.tagged tag .ok (code ++ "COPY completed".toList)], s)
      else pure (.tagged tag .no "[TRYCREATE] no such mailbox", s)
  | _ => pure (.tagged tag .bad "no mailbox selected", s)

/-! ## APPEND and REPLACE -/

/-- Check the target, the quota and the flags, and ask for the literal. -/
def beginLiteral (tag mailbox : Text) (flagTokens : List Text) (size : ℕ)
    (replace : Option (Text × ℕ)) (s : Session) : Handler := do
  if ← mailboxExists mailbox then
    let usage ← accountUsage s.crypto
    if usage + size > s.quota then
      pure (.tagged tag .no "[OVERQUOTA] storage quota exceeded", s)
    else match flagTokens.mapM Flag.parse with
      | none => pure (.tagged tag .bad "unsupported flag", s)
      | some flags =>
        pure (⟨[.continuation "ready for literal data".toList], some size, false⟩,
          { s with pendingAppend := some ⟨tag, mailbox, flags, replace⟩ })
  else pure (.tagged tag .no "[TRYCREATE] no such mailbox", s)

def appendBegin (tag mailbox : Text) (flagTokens : List Text) (size : ℕ) (s : Session) : Handler :=
  match s.state with
  | .notAuthenticated => pure (.tagged tag .no "not authenticated", s)
  | _ => s.beginLiteral tag mailbox flagTokens size none

def replaceSequence (snapshot : Snapshot) (sequence : ℕ) (uid : Bool) : Option ℕ :=
  if uid then
    snapshot.sequenceNumbers.find? fun n ↦
      (snapshot.bySequence n).any fun message ↦ message.uid.toNat == sequence
  else if 1 ≤ sequence ∧ sequence ≤ snapshot.total then some sequence
  else none

def replaceBegin (tag : Text) (sequence : ℕ) (mailbox : Text) (flagTokens : List Text) (size : ℕ)
    (uid : Bool) (s : Session) : Handler :=
  match s.state with
  | .selected selected snapshot readOnly =>
    if readOnly then pure (.tagged tag .no "mailbox is read-only", s)
    else match replaceSequence snapshot sequence uid with
      | none => pure (.tagged tag .no "no such message", s)
      | some seq => s.beginLiteral tag mailbox flagTokens size (some (selected, seq))
  | _ => pure (.tagged tag .no "no mailbox selected", s)

def refresh (s : Session) (mailbox : Text) (snapshot : Snapshot) : Session :=
  match s.state with
  | .selected live _ readOnly =>
    if live = mailbox then { s with state := .selected live snapshot readOnly } else s
  | _ => s

/-- Expunge the replaced message from a fresh snapshot, which becomes the live one. -/
def replaceExpunge (env : Env) (tag selected : Text) (seq : ℕ) (code : Text) (s : Session) :
    Handler := do
  match ← s.openSnapshot selected env.clock with
  | none => pure (.tagged tag .no "REPLACE failed", s)
  | some snapshot =>
    let (removed, left) ← inMailbox snapshot.path (snapshot.removeAt seq)
    if removed then
      pure (.text [.expunge seq, .tagged tag .ok (code ++ "REPLACE completed".toList)],
        s.refresh selected left)
    else pure (.tagged tag .no "REPLACE failed", s)

/-- The response code with the UID of an appended message. -/
def appenduidCode (mailbox : Text) (id : Uuid) (clock : SystemTime) : AccountM Text := do
  match ← appenduid mailbox id clock with
  | some (validity, uid) =>
    pure ("[APPENDUID ".toList ++ decimal validity.toNat ++ [' '] ++ decimal uid.toNat ++
      "] ".toList)
  | none => pure []

/-- The complete literal of an APPEND or REPLACE has arrived. -/
def literalDone (env : Env) (data : List UInt8) (s : Session) : Handler :=
  match s.pendingAppend with
  | none => pure (.text [.untagged "BAD unexpected literal".toList], s)
  | some pending =>
    let s := { s with pendingAppend := none }
    match s.state with
    | .notAuthenticated => pure (.tagged pending.tag .no "not authenticated", s)
    | _ => do
      match ← appendTo s.crypto pending.mailbox pending.flags data (env.stamp 0) with
      | none =>
        pure (.tagged pending.tag .no
          (if pending.replace.isSome then "REPLACE failed" else "APPEND failed"), s)
      | some id =>
        let code ← appenduidCode pending.mailbox id env.clock
        match pending.replace with
        | none => pure (.text [.tagged pending.tag .ok (code ++ "APPEND completed".toList)], s)
        | some (selected, seq) => s.replaceExpunge env pending.tag selected seq code

/-! ## IDLE -/

def idle (tag : Text) (s : Session) : Handler :=
  match s.state with
  | .notAuthenticated => pure (.tagged tag .no "not authenticated", s)
  | _ => pure (⟨[.continuation "idling".toList], none, true⟩, { s with idleTag := some tag })

/-- Poll for changes of the selected mailbox. -/
def checkIdle (env : Env) (s : Session) : AccountM (Option Output × Session) :=
  match s.idleTag, s.state with
  | some _, .selected mailbox snapshot readOnly => do
    match ← s.openSnapshot mailbox env.clock with
    | none => pure (none, s)
    | some fresh =>
      if fresh.uidValidity ≠ snapshot.uidValidity ∨
          fresh.messages.length ≠ snapshot.messages.length then
        pure (some (.text [.existing fresh.messages.length]),
          { s with state := .selected mailbox fresh readOnly })
      else pure (none, s)
  | _, _ => pure (none, s)

/-- The client has ended the IDLE. -/
def idleDone (s : Session) : Output × Session :=
  match s.idleTag with
  | some tag => (.tagged tag .ok "IDLE terminated", { s with idleTag := none })
  | none => (.text [.untagged "BAD not idling".toList], s)

/-! ## One command -/

/-- The command that relies on sequence numbers, and so is refused under UIDONLY. -/
def sequenceCommand : Command → Option String
  | .fetch _ _ false _ _ => some "FETCH"
  | .store _ _ _ _ false _ => some "STORE"
  | .copy _ _ false removeSource => some (if removeSource then "MOVE" else "COPY")
  | _ => none

/-- The command that accepts a reference to a saved search, and which kind of search. -/
def dollarCommand : Command → Option (String × Bool × SequenceSet)
  | .fetch sequence _ uid _ _ => some ("FETCH", uid, sequence)
  | .store sequence _ _ _ uid _ => some ("STORE", uid, sequence)
  | .copy sequence _ uid _ => some (if uid then "UID COPY" else "COPY", uid, sequence)
  | .uidExpunge sequence => some ("UID EXPUNGE", true, sequence)
  | _ => none

/-- Why a command is refused before its handler is called. -/
def refusal (s : Session) (command : Command) : Option (Status × Text) :=
  match if s.uidonly then sequenceCommand command else none with
  | some verb => some (.bad, "[UIDREQUIRED] ".toList ++ verb.toList ++
      " requires UID under UIDONLY".toList)
  | none =>
    match dollarCommand command with
    | some (verb, uidKind, set) =>
      if set.saved && !s.savedSearchOk uidKind then
        some (.no, "[SEARCHRES] $ invalid for ".toList ++ verb.toList)
      else none
    | none => none

def handle (env : Env) (tag : Text) (s : Session) : Command → Handler
  | .noop => pure (.tagged tag .ok "NOOP completed", s)
  | .select mailbox qresync => s.select env tag mailbox false qresync
  | .examine mailbox qresync => s.select env tag mailbox true qresync
  | .close => s.close tag
  | .unselect => s.unselect tag
  | .create mailbox => s.mailboxOp tag "CREATE" (create mailbox)
  | .delete mailbox => s.mailboxOp tag "DELETE" (delete mailbox)
  | .rename source target => s.mailboxOp tag "RENAME" (rename source target)
  | .expunge => s.expunge tag
  | .uidExpunge sequence => s.uidExpunge tag sequence
  | .idle => s.idle tag
  | .append mailbox flags size => s.appendBegin tag mailbox flags size
  | .replace sequence mailbox flags size uid => s.replaceBegin tag sequence mailbox flags size uid
  | .fetch sequence items uid changedSince vanished =>
    s.fetch tag sequence items uid changedSince vanished
  | .store sequence mode flags silent uid unchangedSince =>
    s.store tag sequence mode flags silent uid unchangedSince
  | .copy sequence mailbox uid removeSource => s.copy env tag sequence mailbox uid removeSource

def apply (env : Env) (tag : Text) (command : Command) (s : Session) : Handler :=
  match s.refusal command with
  | some (status, text) => pure (.text [.tagged tag status text], s)
  | none => s.handle env tag command

/-- A session of a plaintext store without retention, as it is after the login. -/
def loggedIn : Session := ⟨.authenticated, none, false, none, none, 1000, .disabled, 0⟩

end Session

/-- What happens at second `t`; new messages get the numbers from `t` on. -/
def envAt (t : ℕ) : Env := ⟨⟨t, 0⟩, fun k ↦ ⟨.ofNat (t + k), [], ⟨t, 0⟩⟩⟩

end Epistle.Imap
