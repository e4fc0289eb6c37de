import Epistle.Imap.Index

/-!
# What sessions do to a mailbox

The programs of this file are the server's, call by call: opening a mailbox, by its index or by a
scan, changing flags, expunging, and putting a new message in. A program that replaces a file first
writes its `.tmp` sibling and then renames it; both calls are there, because other sessions act in
between.

A call can fail. Where the server ignores the failure the program goes on; where it returns the
error the program returns `none`, with whatever it had done so far left as it is.
-/

namespace Epistle.Imap

open TextFormat Interleaving

variable (crypto : MessageCrypto) (snapshot : Snapshot) (sequence : ℕ) (id : Uuid)

/-! ## Single files -/

/-- Write the `.tmp` sibling and rename it into place. -/
def replaceFile (k : Sidecar) (c : Content k) : FileM Bool := do
  if ← call (.writeTmp k c) then call (.rename k) else pure false

theorem only_replaceFile {P : Op → Prop} {k : Sidecar} {c : Content k} (hwrite : P (.writeTmp k c))
    (hrename : P (.rename k)) : (replaceFile k c).Only P := by
  refine .bind ((Prog.only_op _).2 hwrite) fun b ↦ ?_
  split
  · exact (Prog.only_op _).2 hrename
  · trivial

@[simp] theorem run_replaceFile (k : Sidecar) (c : Content k) (d : Dir) :
    (replaceFile k c).run Dir.exec d = (true, (d.setTemp k none).setFile k (some c)) := by
  have htemp : (d.setTemp k (some c)).temps k = some c := Function.update_self k _ _
  have hidem : (d.setTemp k (some c)).setTemp k none = d.setTemp k none := by
    simp only [Dir.setTemp, Function.update_idem]
  have hrename : Dir.exec (.rename k) (d.setTemp k (some c)) =
      (true, (d.setTemp k none).setFile k (some c)) := by
    rw [Dir.exec, htemp, hidem]
  exact hrename

namespace Uid

/-- The UID persisted for `id`, or `none` if it has not been assigned yet. -/
def readMessage : FileM (Option UInt32) := call (.read (.uid id))

def writeMessage (uid : UInt32) : FileM Bool := replaceFile (.uid id) uid

/-- The mailbox UID counter, 0 when absent. -/
def readCounter : FileM UInt32 := do
  let counter : Option UInt32 ← call (.read .uidnext)
  pure (counter.getD 0)

def writeCounter (value : UInt32) : FileM Bool := replaceFile .uidnext value

/-- The UID for `id`, its persisted value or the next counter value, and the counter after it. -/
def assignOrRead (counter : UInt32) : FileM (UInt32 × UInt32) := do
  match ← readMessage id with
  | some uid => pure (uid, counter)
  | none =>
    let _ ← writeMessage id (counter + 1)
    pure (counter + 1, counter + 1)

end Uid

namespace Flags

def readFlags : FileM (List Flag) := do
  let flags : Option (List Flag) ← call (.read (.flags id))
  pure (flags.getD [])

def writeFlags (flags : List Flag) : FileM Bool := replaceFile (.flags id) flags

/-- Whether two flag lists denote the same flag set. -/
def flagsEqual (current next : List Flag) : Bool :=
  (current.all fun flag ↦ next.contains flag) && next.all fun flag ↦ current.contains flag

end Flags

namespace Modseq

/-- A message's stored mod-sequence, or 1 when none has been recorded. -/
def readMessage : FileM ℕ := do
  let modseq : Option ℕ ← call (.read (.modseq id))
  pure (modseq.getD 1)

/-- Stamp a message with a mod-sequence. -/
def writeMessage (modseq : ℕ) : FileM Bool := replaceFile (.modseq id) modseq

/-- The mailbox mod-sequence counter, 1 when absent. -/
def readCounter : FileM ℕ := do
  let counter : Option ℕ ← call (.read .modseqctr)
  pure (counter.getD 1)

/-- Advance and persist the mailbox counter, returning the new value. -/
def nextCounter : FileM (Option ℕ) := do
  let next := (← readCounter) + 1
  if ← replaceFile .modseqctr next then pure (some next) else pure none

end Modseq

namespace UidValidity

/-- The value a mailbox gets when it is first opened: the clock's seconds, forced odd. -/
def ofClock (clock : SystemTime) : UInt32 :=
  (if 0 ≤ clock.secs then UInt32.ofNat clock.secs.toNat else 1) ||| 1

/-- Read the mailbox's UIDVALIDITY, initializing it on first open. -/
def readOrInit (clock : SystemTime) : FileM UInt32 := do
  let stored : Option UInt32 ← call (.read .uidvalidity)
  match stored.filter (0 < ·) with
  | some value => pure value
  | none =>
    let _ ← call (.write .uidvalidity (ofClock clock))
    pure (ofClock clock)

end UidValidity

namespace Vanished

def record (modseq : ℕ) : List UInt32 → FileM Bool
  | [] => pure true
  | uid :: uids => do
    if ← call (.appendVanished uid modseq) then record modseq uids else pure false

/-- Advance the mailbox mod-sequence and log `uids` as vanished at it. -/
def recordAdvancing (uids : List UInt32) : FileM Unit :=
  if uids.isEmpty then pure ()
  else do
    if let some modseq ← Modseq.nextCounter then
      let _ ← record modseq uids
    pure ()

def since (modseq : ℕ) : FileM (List UInt32) := do
  let log : Option (List (UInt32 × ℕ)) ← call (.read .vanished)
  pure (((log.getD []).filter fun entry ↦ entry.2 > modseq).map Prod.fst)

end Vanished

/-! ## Scanning -/

def storedPlaintextLen (fileLen : ℕ) : FileM ℕ :=
  if crypto.key.isNone then pure fileLen
  else if fileLen < MessageCrypto.overhead then pure fileLen
  else do
    if ← call (.fileHasMagic id) then pure (fileLen - MessageCrypto.overhead) else pure fileLen

def scanSize : Option Stat → FileM ℕ
  | some stat => storedPlaintextLen crypto id stat.len
  | none => pure 0

theorem only_scanSize {P : Op → Prop} {crypto : MessageCrypto} {id : Uuid}
    (h : P (.fileHasMagic id)) (stat : Option Stat) : (scanSize crypto id stat).Only P := by
  cases stat with
  | none => trivial
  | some stat =>
    rw [scanSize, storedPlaintextLen]
    split
    · trivial
    · split
      · trivial
      · exact ⟨h, fun b ↦ by cases b <;> trivial⟩

/-- Gather one message, assigning a UID if it has none. Returns the UID counter after it. -/
def scanMessage (counter : UInt32) :
    FileM (MessageRef × UInt32) := do
  let stat : Option Stat ← call (.stat id)
  let size ← scanSize crypto id stat
  let internalDate := stat.elim SystemTime.unixEpoch Stat.modified
  let (uid, counter) ← Uid.assignOrRead id counter
  let flags ← Flags.readFlags id
  let modseq ← Modseq.readMessage id
  pure ({ uid, id, size, flags, internalDate, modseq }, counter)

/-- Gather the messages in the given order. -/
def scanMessages (crypto : MessageCrypto) :
    List Uuid → UInt32 → FileM (List MessageRef × UInt32)
  | [], counter => pure ([], counter)
  | id :: ids, counter => do
    let (message, counter) ← scanMessage crypto id counter
    let (messages, counter) ← scanMessages crypto ids counter
    pure (message :: messages, counter)

/-- The order of a snapshot. -/
def sortIds (ids : List Uuid) : List Uuid := ids.insertionSort (· ≤ ·)

/-- Scan the mailbox in UUID order. The UID counter is persisted once, at the end. -/
def scanMailbox : FileM (Option (List MessageRef)) := do
  let entries : Option (List Uuid) ← call .readDir
  match entries with
  | none => pure none
  | some entries =>
    let initialCounter ← Uid.readCounter
    let (messages, counter) ← scanMessages crypto (sortIds entries) initialCounter
    if counter > initialCounter then
      let _ ← Uid.writeCounter counter
    pure (some messages)

/-! ## The index file -/

namespace Index

/-- The current generation: the mod-sequence counter and the number of message files. -/
def currentGeneration : FileM (ℕ × ℕ) := do
  let modseq ← Modseq.readCounter
  let entries : Option (List Uuid) ← call .readDir
  pure (max modseq 1, entries.elim 0 List.length)

def load (generation : ℕ × ℕ) : FileM (Option (List MessageRef)) := do
  let text : Option Text ← call (.read .index)
  pure (text.bind fun text ↦ parse text generation)

def write (generation : ℕ × ℕ) (messages : List MessageRef) : FileM Bool :=
  replaceFile .index (render generation messages)

end Index

/-! ## Snapshots -/

/-- A session's view of one mailbox. Sequence numbers are positions in `messages`, from 1. -/
structure Snapshot where
  mailbox : Text
  messages : List MessageRef
  uidValidity : UInt32
  uidNext : UInt32
  highestModseq : ℕ
  crypto : MessageCrypto
  /-- Days to keep expunged messages in the archive; with 0 an expunge deletes them. -/
  retentionDays : ℕ
  /-- The time an expunge stamps on what it archives. -/
  now : ℕ

namespace Snapshot

/-- A placeholder snapshot with no messages. -/
def empty : Snapshot where
  mailbox := []
  messages := []
  uidValidity := 0
  uidNext := 1
  highestModseq := 1
  crypto := .disabled
  retentionDays := 0
  now := 0

def ids : List Uuid := snapshot.messages.map MessageRef.id

def pairs (messages : List MessageRef) : List (UInt32 × Uuid) :=
  messages.map fun message ↦ (message.uid, message.id)

/-- An index shows the UIDs it was written with, if it shows anything. -/
theorem pairs_of_parse_render {stamp generation : ℕ × ℕ} {messages found : List MessageRef}
    (h : Index.parse (Index.render stamp messages) generation = some found) :
    pairs found = pairs messages := by
  rw [Index.parse_render] at h
  split at h
  · obtain rfl := Option.some.inj h
    simp [pairs, Function.comp_def]
  · cases h

/-- Open the mailbox: from its index if that is stamped with the current generation, else by a scan
that leaves a new index behind. -/
def openAt (mailbox : Text) (retentionDays now : ℕ) (clock : SystemTime) :
    FileM (Option Snapshot) := do
  let generation ← Index.currentGeneration
  match ← Index.load generation with
  | some loaded =>
    let uidValidity ← UidValidity.readOrInit clock
    let uidNext := (← Uid.readCounter) + 1
    pure (some { mailbox, messages := loaded, uidValidity, uidNext, highestModseq := generation.1,
                 crypto, retentionDays, now })
  | none =>
    match ← scanMailbox crypto with
    | none => pure none
    | some scanned =>
      let counter ← Modseq.readCounter
      let highestModseq := max (max counter ((scanned.map MessageRef.modseq).max?.getD 1)) 1
      let uidNext := (← Uid.readCounter) + 1
      let _ ← Index.write generation scanned
      let uidValidity ← UidValidity.readOrInit clock
      pure (some { mailbox, messages := scanned, uidValidity, uidNext, highestModseq, crypto,
                   retentionDays, now })

def indexOf : Option ℕ :=
  if 0 < sequence ∧ sequence - 1 < snapshot.messages.length then some (sequence - 1) else none

def bySequence : Option MessageRef :=
  if 0 < sequence then snapshot.messages[sequence - 1]? else none

/-- Replace the flags of a message. A change that denotes the set the snapshot already shows does
nothing. Returns the new flags, or `none` on an error, and the snapshot after it. -/
def storeFlags (flags : List Flag) :
    FileM (Option (List Flag) × Snapshot) :=
  match snapshot.indexOf sequence with
  | none => pure (none, snapshot)
  | some index =>
    match snapshot.messages[index]? with
    | none => pure (none, snapshot)
    | some message =>
      if Flags.flagsEqual message.flags flags then pure (some message.flags, snapshot)
      else do
        if ← Flags.writeFlags message.id flags then
          match ← Modseq.nextCounter with
          | some modseq =>
            let _ ← Modseq.writeMessage message.id modseq
            pure (some flags, { snapshot with
              highestModseq := max snapshot.highestModseq modseq
              messages := snapshot.messages.set index { message with flags, modseq } })
          | none => pure (none, snapshot)
        else pure (none, snapshot)

/-- Move a message to the archive: its mark first, its body last. -/
def archiveMessage (mailbox : Text) (id : Uuid) (now : ℕ) : FileM Bool := do
  if ← call (.archiveMark id now mailbox) then
    if ← call (.archiveFile (.flags id)) then
      if ← call (.archiveFile (.uid id)) then call (.archiveMail id) else pure false
    else pure false
  else pure false

/-- Remove a message's files, or move them to the archive when retention is configured. -/
def removeFiles : FileM Unit :=
  if snapshot.retentionDays > 0 then do
    let _ ← archiveMessage snapshot.mailbox id snapshot.now
    pure ()
  else do
    let _ ← call (.removeMail id)
    let _ ← call (.remove (.flags id))
    let _ ← call (.remove (.uid id))
    pure ()

/-- Remove one message by sequence number. Returns whether there was one, and the snapshot. -/
def removeAt : FileM (Bool × Snapshot) :=
  match snapshot.indexOf sequence with
  | none => pure (false, snapshot)
  | some index =>
    match snapshot.messages[index]? with
    | none => pure (false, snapshot)
    | some message => do
      snapshot.removeFiles message.id
      Vanished.recordAdvancing [message.uid]
      pure (true, { snapshot with messages := snapshot.messages.eraseIdx index })

def sequenceNumber (index : ℕ) : ℕ := min (index + 1) (2 ^ 32 - 1)

/-- Remove the files of every deleted message that passes `keep`, from position `index` on. Returns
the messages left, the expunged sequence numbers, each valid when it is sent, and the UIDs gone. -/
def expungeLoop (snapshot : Snapshot) (keep : UInt32 → Bool) :
    ℕ → List MessageRef → FileM (List MessageRef × List ℕ × List UInt32)
  | _, [] => pure ([], [], [])
  | index, message :: rest =>
    if message.flags.contains .deleted && keep message.uid then do
      snapshot.removeFiles message.id
      let (left, expunged, vanished) ← snapshot.expungeLoop keep index rest
      pure (left, sequenceNumber index :: expunged, message.uid :: vanished)
    else do
      let (left, expunged, vanished) ← snapshot.expungeLoop keep (index + 1) rest
      pure (message :: left, expunged, vanished)

/-- Expunge every deleted message whose UID passes `keep`, logging the vanished UIDs. -/
def expungeWhere (keep : UInt32 → Bool) : FileM (List ℕ × Snapshot) := do
  let (left, expunged, vanished) ← snapshot.expungeLoop keep 0 snapshot.messages
  Vanished.recordAdvancing vanished
  pure (expunged, { snapshot with messages := left })

def expunge : FileM (List ℕ × Snapshot) := snapshot.expungeWhere fun _ ↦ true

/-- Remove the deleted messages whose UID is among `uids`. -/
def expungeUids (uids : List UInt32) : FileM (List ℕ × Snapshot) :=
  snapshot.expungeWhere fun uid ↦ uids.contains uid

end Snapshot

/-! ## New messages -/

/-- Write a message file and move it into the mailbox. -/
def storeMail (mail : Mail) : FileM Bool := do
  if ← call (.stage id mail) then call (.publish id) else pure false

/-- Append a message with flags, which are written after the message is in place. -/
def append (mail : Mail) (flags : List Flag) : FileM (Option Uuid) := do
  if ← storeMail id mail then
    if flags.isEmpty then pure (some id)
    else if ← Flags.writeFlags id flags then pure (some id) else pure none
  else pure none

/-- Persist the flags a filter assigned, directly and after the message is in place. -/
def writeFlagSidecar (flagTokens : List Text) : FileM Unit :=
  let flags := flagTokens.filterMap Flag.parse
  if flags.isEmpty then pure ()
  else do
    let _ ← call (.write (.flags id) flags)
    pure ()

/-- Deliver a message to an account's mailbox. -/
def deliverToAccount (mail : Mail) (flagTokens : List Text) : FileM (Option Uuid) := do
  if ← storeMail id mail then
    writeFlagSidecar id flagTokens
    pure (some id)
  else pure none

end Epistle.Imap
