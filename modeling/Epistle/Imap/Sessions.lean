import Epistle.Imap.Snapshot
import Epistle.Interleaving.RelyGuarantee

/-!
# Sessions on one mailbox

The system in which any number of sessions open a mailbox, change flags in it, expunge it, and
deliver or append to it, one file-system call at a time.

What a scan of a directory would gather is also given here as a plain function of the directory,
`Dir.view`, without the calls that gather it. It depends only on part of the directory, its
`Dir.core`; the calls that leave the core alone are read off the call (`Dir.core_exec`).
-/

namespace Epistle.Imap

open TextFormat Interleaving
open Prog (only_op op_bind run_bind run_call)

variable (crypto : MessageCrypto) (κ : Core) (id : Uuid)

/-! ## Commands -/

/-- What a session can be asked to do. A new message comes with the id generated for it, the nonce
drawn for its encryption and the time its file is written. -/
inductive Command
  | openMailbox (mailbox : Text) (retentionDays now : ℕ) (clock : SystemTime)
  | deliver (id : Uuid) (nonce data : List UInt8) (mtime : SystemTime) (flagTokens : List Text)
  | append (id : Uuid) (nonce data : List UInt8) (mtime : SystemTime) (flags : List Flag)
  | storeFlags (sequence : ℕ) (flags : List Flag)
  | removeAt (sequence : ℕ)
  | expunge
  | expungeUids (uids : List UInt32)

/-- The program of a command, from the snapshot its session holds to the one it holds next. -/
def Command.body : Command → Snapshot → FileM Snapshot
  | .openMailbox mailbox retentionDays now clock, snapshot => do
    let opened ← Snapshot.openAt crypto mailbox retentionDays now clock
    pure (opened.getD snapshot)
  | .deliver id nonce data mtime flagTokens, snapshot => do
    let _ ← deliverToAccount id ⟨crypto.encode nonce data, mtime⟩ flagTokens
    pure snapshot
  | .append id nonce data mtime flags, snapshot => do
    let _ ← Imap.append id ⟨crypto.encode nonce data, mtime⟩ flags
    pure snapshot
  | .storeFlags sequence flags, snapshot => do
    let (_, snapshot) ← snapshot.storeFlags sequence flags
    pure snapshot
  | .removeAt sequence, snapshot => do
    let (_, snapshot) ← snapshot.removeAt sequence
    pure snapshot
  | .expunge, snapshot => do
    let (_, snapshot) ← snapshot.expunge
    pure snapshot
  | .expungeUids uids, snapshot => do
    let (_, snapshot) ← snapshot.expungeUids uids
    pure snapshot

/-- The sessions of one mailbox, all encoding message files in the same way. -/
def system : System Ans Dir Snapshot Command where
  exec := Dir.exec
  body := Command.body crypto
  idle := .empty

/-! ## The calls of a removal -/

/-- The calls that may take the files of a message away. -/
inductive Removes (id : Uuid) : Op → Prop
  | mark (now : ℕ) (mailbox : Text) : Removes id (.archiveMark id now mailbox)
  | archiveFlags : Removes id (.archiveFile (.flags id))
  | archiveUid : Removes id (.archiveFile (.uid id))
  | archiveMail : Removes id (.archiveMail id)
  | mail : Removes id (.removeMail id)
  | flags : Removes id (.remove (.flags id))
  | uid : Removes id (.remove (.uid id))

/-- The calls that advance the counter and log UIDs as vanished. -/
inductive Logs (uids : List UInt32) : Op → Prop
  | read : Logs uids (.read .modseqctr)
  | writeTmp (next : ℕ) : Logs uids (.writeTmp .modseqctr next)
  | rename : Logs uids (.rename .modseqctr)
  | append {uid : UInt32} (h : uid ∈ uids) (modseq : ℕ) : Logs uids (.appendVanished uid modseq)

theorem only_removeFiles (snapshot : Snapshot) (id : Uuid) :
    (snapshot.removeFiles id).Only (Removes id) := by
  unfold Snapshot.removeFiles
  split
  · refine .bind (.bind ((only_op _).2 (.mark _ _)) fun b ↦ ?_) fun _ ↦ trivial
    split
    · refine .bind ((only_op _).2 .archiveFlags) fun b ↦ ?_
      split
      · refine .bind ((only_op _).2 .archiveUid) fun b ↦ ?_
        split
        · exact (only_op _).2 .archiveMail
        · trivial
      · trivial
    · trivial
  · exact ⟨.mail, fun _ ↦ ⟨.flags, fun _ ↦ ⟨.uid, fun _ ↦ trivial⟩⟩⟩

theorem only_nextCounter (uids : List UInt32) : Modseq.nextCounter.Only (Logs uids) := by
  refine ⟨.read, fun counter ↦ .bind (only_replaceFile (.writeTmp _) .rename) fun b ↦ ?_⟩
  split <;> trivial

theorem only_recordAdvancing (uids : List UInt32) :
    (Vanished.recordAdvancing uids).Only (Logs uids) := by
  have hrecord : ∀ modseq, ∀ logged ⊆ uids, (Vanished.record modseq logged).Only (Logs uids) := by
    intro modseq logged hlogged
    induction logged with
    | nil => trivial
    | cons uid rest ih =>
      obtain ⟨huid, hrest⟩ := List.cons_subset.1 hlogged
      refine .bind ((only_op _).2 (.append huid modseq)) fun b ↦ ?_
      split
      · exact ih hrest
      · trivial
  unfold Vanished.recordAdvancing
  split
  · trivial
  · refine .bind (only_nextCounter uids) fun next ↦ ?_
    split
    · exact .bind (hrecord _ uids (.refl _)) fun _ ↦ trivial
    · trivial

/-! ## The calls of programs that do not scan -/

/-- Whether only an open makes the call: it reads the UID counter, or writes a UID, the UID counter
or the index. -/
def Op.ofScan : Op → Bool
  | .read .uidnext => true
  | .writeTmp (.uid _) _ | .writeTmp .uidnext _ | .writeTmp .index _ => true
  | .rename (.uid _) | .rename .uidnext | .rename .index => true
  | .write (.uid _) _ | .write .uidnext _ | .write .index _ => true
  | _ => false

/-- A program that makes none of the calls that only an open makes. -/
abbrev SparesScan {α : Type} (p : FileM α) : Prop := p.Only fun o ↦ o.ofScan = false

theorem sparesScan_writeFlags (flags : List Flag) :
    SparesScan (Flags.writeFlags id flags) :=
  only_replaceFile rfl rfl

theorem sparesScan_nextCounter : SparesScan Modseq.nextCounter :=
  (only_nextCounter []).mono fun o ho ↦ by cases ho <;> rfl

theorem sparesScan_recordAdvancing (uids : List UInt32) :
    SparesScan (Vanished.recordAdvancing uids) :=
  (only_recordAdvancing uids).mono fun o ho ↦ by cases ho <;> rfl

section

variable (snapshot : Snapshot)

theorem sparesScan_removeFiles (id : Uuid) : SparesScan (snapshot.removeFiles id) :=
  (only_removeFiles snapshot id).mono fun o ho ↦ by cases ho <;> rfl

theorem sparesScan_expungeLoop (keep : UInt32 → Bool) (index : ℕ) (messages : List MessageRef) :
    SparesScan (snapshot.expungeLoop keep index messages) := by
  induction messages generalizing index with
  | nil => trivial
  | cons message rest ih =>
    unfold Snapshot.expungeLoop
    split
    · refine .bind (sparesScan_removeFiles snapshot message.id) fun _ ↦ ?_
      exact .bind (ih index) fun _ ↦ trivial
    · exact .bind (ih (index + 1)) fun _ ↦ trivial

theorem sparesScan_expungeWhere (keep : UInt32 → Bool) :
    SparesScan (snapshot.expungeWhere keep) := by
  refine .bind (sparesScan_expungeLoop snapshot keep 0 _) fun r ↦ ?_
  exact .bind (sparesScan_recordAdvancing _) fun _ ↦ trivial

theorem sparesScan_storeFlags (sequence : ℕ) (flags : List Flag) :
    SparesScan (snapshot.storeFlags sequence flags) := by
  unfold Snapshot.storeFlags
  split
  · trivial
  · split
    · trivial
    · split
      · trivial
      · refine .bind (sparesScan_writeFlags _ _) fun b ↦ ?_
        split
        · refine .bind sparesScan_nextCounter fun next ↦ ?_
          split
          · refine .bind ?_ fun _ ↦ trivial
            exact only_replaceFile (by rfl) (by rfl)
          · trivial
        · trivial

theorem sparesScan_removeAt (sequence : ℕ) : SparesScan (snapshot.removeAt sequence) := by
  unfold Snapshot.removeAt
  split
  · trivial
  · split
    · trivial
    · refine .bind (sparesScan_removeFiles snapshot _) fun _ ↦ ?_
      exact .bind (sparesScan_recordAdvancing _) fun _ ↦ trivial

end

section

variable {id : Uuid} {mail : Mail} {P : Op → Prop} (hstage : P (.stage id mail))
  (hpublish : P (.publish id))
include hstage hpublish

theorem only_storeMail : (storeMail id mail).Only P := by
  refine .bind ((only_op _).2 hstage) fun b ↦ ?_
  split
  · exact (only_op _).2 hpublish
  · trivial

theorem only_append {flags : List Flag} (hwrite : P (.writeTmp (.flags id) flags))
    (hrename : P (.rename (.flags id))) : (Imap.append id mail flags).Only P := by
  refine .bind (only_storeMail hstage hpublish) fun b ↦ ?_
  split
  · split
    · trivial
    · refine .bind (only_replaceFile hwrite hrename) fun b ↦ ?_
      split <;> trivial
  · trivial

end

theorem sparesScan_deliverToAccount (mail : Mail) (flagTokens : List Text) :
    SparesScan (deliverToAccount id mail flagTokens) := by
  refine .bind (only_storeMail (by rfl) (by rfl)) fun b ↦ ?_
  split
  · unfold writeFlagSidecar
    dsimp only
    split
    · trivial
    · simp [Op.ofScan]
  · trivial

theorem sparesScan_readOrInit (clock : SystemTime) : SparesScan (UidValidity.readOrInit clock) := by
  refine .bind (by simp [Op.ofScan]) fun stored ↦ ?_
  split
  · trivial
  · simp [Op.ofScan]

/-- Only an open uses the UID counter and writes UIDs and the index. -/
theorem Command.sparesScan {c : Command}
    (hc : ∀ mailbox retentionDays now clock, c ≠ .openMailbox mailbox retentionDays now clock)
    (snapshot : Snapshot) : SparesScan (c.body crypto snapshot) := by
  cases c with
  | openMailbox mailbox retentionDays now clock => exact absurd rfl (hc mailbox _ _ _)
  | deliver id nonce data mtime flagTokens =>
    exact .bind (sparesScan_deliverToAccount _ _ _) fun _ ↦ trivial
  | append id nonce data mtime flags =>
    exact .bind (only_append (by rfl) (by rfl) (by rfl) (by rfl)) fun _ ↦ trivial
  | storeFlags sequence flags =>
    exact .bind (sparesScan_storeFlags _ _ _) fun _ ↦ trivial
  | removeAt sequence => exact .bind (sparesScan_removeAt _ _) fun _ ↦ trivial
  | expunge | expungeUids uids => exact .bind (sparesScan_expungeWhere _ _) fun _ ↦ trivial

/-! ## The snapshots of programs that do not open -/

open Snapshot (pairs)

section

variable (snapshot : Snapshot)

theorem returns_expungeLoop (keep : UInt32 → Bool) (index : ℕ) (messages : List MessageRef) :
    (snapshot.expungeLoop keep index messages).Returns fun r ↦ r.1.Sublist messages := by
  induction messages generalizing index with
  | nil => exact .refl []
  | cons message rest ih =>
    unfold Snapshot.expungeLoop
    split
    · refine .bind (.trivial _) fun _ _ ↦ .bind (ih index) fun r hr ↦ ?_
      exact hr.cons message
    · refine .bind (ih (index + 1)) fun r hr ↦ ?_
      exact hr.cons_cons message

theorem returns_expungeWhere (keep : UInt32 → Bool) :
    (snapshot.expungeWhere keep).Returns fun r ↦ r.2.messages.Sublist snapshot.messages := by
  refine .bind (returns_expungeLoop snapshot keep 0 _) fun r hr ↦ ?_
  exact .bind (.trivial _) fun _ _ ↦ hr

theorem returns_removeAt (sequence : ℕ) :
    (snapshot.removeAt sequence).Returns fun r ↦ r.2.messages.Sublist snapshot.messages := by
  unfold Snapshot.removeAt
  split
  · exact .refl _
  · split
    · exact .refl _
    · refine .bind (.trivial _) fun _ _ ↦ .bind (.trivial _) fun _ _ ↦ ?_
      exact List.eraseIdx_sublist _ _

theorem returns_storeFlags (sequence : ℕ) (flags : List Flag) :
    (snapshot.storeFlags sequence flags).Returns fun r ↦
      pairs r.2.messages = pairs snapshot.messages := by
  unfold Snapshot.storeFlags
  split
  · rfl
  · split
    · rfl
    next message hmessage =>
      obtain ⟨hindex, rfl⟩ := List.getElem?_eq_some_iff.1 hmessage
      split
      · rfl
      · refine .bind (.trivial _) fun b _ ↦ ?_
        split
        · refine .bind (.trivial _) fun next _ ↦ ?_
          split
          · refine .bind (.trivial _) fun _ _ ↦ ?_
            simp only [Prog.pure_eq_ret, Prog.returns_ret, pairs, List.map_set]
            refine List.ext_getElem? fun i ↦ ?_
            rw [List.getElem?_set]
            split
            next hi =>
              subst hi
              simp [hindex]
            next => rfl
          · rfl
        · rfl

theorem ids_eq_map_pairs : snapshot.ids = (pairs snapshot.messages).map Prod.snd := by
  rw [Snapshot.ids, pairs, List.map_map]
  rfl

theorem returns_storeFlags_ids (sequence : ℕ) (flags : List Flag) :
    (snapshot.storeFlags sequence flags).Returns fun r ↦ r.2.ids = snapshot.ids := by
  refine (returns_storeFlags snapshot sequence flags).mono fun r hr ↦ ?_
  rw [ids_eq_map_pairs, ids_eq_map_pairs, hr]

end

/-- A session that does not open the mailbox shows no UID for a message that it did not show for it
before. -/
theorem Command.returns_pairs {c : Command}
    (hc : ∀ mailbox retentionDays now clock, c ≠ .openMailbox mailbox retentionDays now clock)
    (snapshot : Snapshot) : (c.body crypto snapshot).Returns fun r ↦
      (pairs r.messages).Sublist (pairs snapshot.messages) := by
  cases c with
  | openMailbox mailbox retentionDays now clock => exact absurd rfl (hc mailbox _ _ _)
  | deliver id nonce data mtime flagTokens | append id nonce data mtime flags =>
    exact .bind (.trivial _) fun _ _ ↦ .refl _
  | storeFlags sequence flags =>
    refine .bind (returns_storeFlags snapshot sequence flags) fun r hr ↦ ?_
    exact hr ▸ List.Sublist.refl _
  | removeAt sequence =>
    exact .bind (returns_removeAt snapshot sequence) fun r hr ↦ hr.map _
  | expunge => exact .bind (returns_expungeWhere snapshot _) fun r hr ↦ hr.map _
  | expungeUids uids =>
    exact .bind (returns_expungeWhere snapshot _) fun r hr ↦ hr.map _

/-! ## What a scan reads -/

/-- The part of a directory that a scan reads, with the temporary files it assigns UIDs through. -/
@[ext] structure Core where
  mails : Mails
  uid : Uuid → Option UInt32
  uidTemp : Uuid → Option UInt32
  flags : Uuid → Option (List Flag)
  modseq : Uuid → Option ℕ
  modseqctr : Option ℕ

def Dir.core (d : Dir) : Core where
  mails := d.mails
  uid := fun id ↦ d.files (.uid id)
  uidTemp := fun id ↦ d.temps (.uid id)
  flags := fun id ↦ d.files (.flags id)
  modseq := fun id ↦ d.files (.modseq id)
  modseqctr := d.files .modseqctr

/-- Whether a call can change the core of a directory. -/
def Op.disturbs : Op → Bool
  | .writeTmp (.uid _) _ => true
  | .rename (.uid _) | .rename (.flags _) | .rename (.modseq _) | .rename .modseqctr => true
  | .write (.uid _) _ | .write (.flags _) _ | .write (.modseq _) _ | .write .modseqctr _ => true
  | .remove (.uid _) | .remove (.flags _) | .remove (.modseq _) | .remove .modseqctr => true
  | .archiveFile (.uid _) | .archiveFile (.flags _) | .archiveFile (.modseq _)
  | .archiveFile .modseqctr => true
  | .publish _ | .removeMail _ | .archiveMail _ => true
  | _ => false

namespace Dir

theorem core_exec {o : Op} (d : Dir) (ho : o.disturbs = false) :
    (exec o d).2.core = d.core := by
  cases o with
  | writeTmp k c => cases k <;> simp_all [exec, core, Op.disturbs]
  | rename k =>
    rw [exec]
    split
    next c _ => cases k <;> simp_all [core, Op.disturbs]
    next => rfl
  | write k c | remove k => cases k <;> simp_all [exec, core, Op.disturbs]
  | archiveFile k =>
    rw [exec]
    split
    next c _ => cases k <;> simp_all [core, Op.disturbs]
    next => rfl
  | appendVanished uid modseq => simp [exec, core]
  | publish id | removeMail id | archiveMail id => cases ho
  | _ => rfl

end Dir

namespace Core

def plaintextLen (mail : Mail) : ℕ :=
  if crypto.key.isNone then mail.stored.length
  else if mail.stored.length < MessageCrypto.overhead then mail.stored.length
  else if MessageCrypto.magic.isPrefixOf mail.stored then
    mail.stored.length - MessageCrypto.overhead
  else mail.stored.length

/-- What a scan gathers for one message that has a UID. -/
def entry : MessageRef where
  uid := (κ.uid id).getD 0
  id := id
  size := (κ.mails.lookup id).elim 0 (plaintextLen crypto)
  flags := (κ.flags id).getD []
  internalDate := (κ.mails.lookup id).elim SystemTime.unixEpoch Mail.mtime
  modseq := (κ.modseq id).getD 1

def Seen (message : MessageRef) : Prop :=
  message = κ.entry crypto message.id ∧ (κ.uid message.id).isSome

/-- The core with a temporary UID file written. -/
def setUidTemp (uid : UInt32) : Core :=
  { κ with uidTemp := Function.update κ.uidTemp id (some uid) }

def assign (uid : UInt32) : Core :=
  { κ with
    uid := Function.update κ.uid id (some uid)
    uidTemp := Function.update κ.uidTemp id none }

/-- What a scan gathers when every message has a UID. -/
def view : List MessageRef :=
  (sortIds κ.mails.keys).map (κ.entry crypto)

/-- Every message has a UID. -/
def Assigned : Prop := ∀ id ∈ κ.mails.keys, (κ.uid id).isSome

/-- The generation an index would have to be stamped with. -/
def generation : ℕ × ℕ := (max (κ.modseqctr.getD 1) 1, κ.mails.keys.length)

theorem Seen.assign {crypto : MessageCrypto} {κ : Core} {message : MessageRef}
    (h : κ.Seen crypto message) {id : Uuid} (hid : κ.uid id = none) (uid : UInt32) :
    (κ.assign id uid).Seen crypto message := by
  have hne : message.id ≠ id := by
    rintro rfl
    rw [Seen, hid] at h
    exact absurd h.2 (by decide)
  obtain ⟨heq, hsome⟩ := h
  refine ⟨?_, ?_⟩
  · rw [heq]
    simp only [entry, Core.assign, Function.update_of_ne hne]
  · simpa only [Core.assign, Function.update_of_ne hne] using hsome

end Core

namespace Dir

theorem core_setUidTemp (d : Dir) (id : Uuid) (uid : UInt32) :
    (exec (.writeTmp (.uid id) uid) d).2.core = d.core.setUidTemp id uid := by
  refine Core.ext rfl rfl (funext fun j ↦ ?_) rfl rfl rfl
  by_cases hj : j = id
  · subst hj
    simp [exec, core, Core.setUidTemp]
  · simp [exec, core, Core.setUidTemp, hj]

theorem core_rename_uid {d : Dir} {id : Uuid} {uid : UInt32} (h : d.core.uidTemp id = some uid) :
    (exec (.rename (.uid id)) d).2.core = d.core.assign id uid := by
  have hexec : (exec (.rename (.uid id)) d).2 = (d.setTemp (.uid id) none).setFile
    (.uid id) uid := by
    have htemp : d.temps (.uid id) = some uid := h
    rw [exec, htemp]
  rw [hexec]
  refine Core.ext rfl (funext fun j ↦ ?_) (funext fun j ↦ ?_) (funext fun j ↦ ?_)
    (funext fun j ↦ ?_) ?_
  · by_cases hj : j = id
    · subst hj
      simp [core, Core.assign]
    · simp [core, Core.assign, hj]
  · by_cases hj : j = id
    · subst hj
      simp [core, Core.assign]
    · simp [core, Core.assign, hj]
  · simp [core, Core.assign]
  · simp [core, Core.assign]
  · simp [core, Core.assign]

end Dir

/-! ## Running a scan alone -/

def Index.loadCurrent : FileM (Option (List MessageRef)) := do
  let generation ← currentGeneration
  load generation

variable {crypto : MessageCrypto} {d : Dir}

theorem run_storedPlaintextLen {id : Uuid} {mail : Mail} (h : d.mails.lookup id = some mail) :
    (storedPlaintextLen crypto id mail.stored.length).run Dir.exec d =
      (Core.plaintextLen crypto mail, d) := by
  unfold storedPlaintextLen Core.plaintextLen
  split
  · rfl
  · split
    · rfl
    · cases hmagic : MessageCrypto.magic.isPrefixOf mail.stored <;> simp [Dir.exec, h, hmagic]

/-- What is gathered for a message once it has its UID. -/
theorem run_scanMessage_of_assigned {id : Uuid} {counter counter' uid : UInt32} {d' : Dir}
    (h : (Uid.assignOrRead id counter).run Dir.exec d = ((uid, counter'), d')) :
    (scanMessage crypto id counter).run Dir.exec d =
      ((⟨uid, id, (d.mails.lookup id).elim 0 (Core.plaintextLen crypto),
        (d'.files (.flags id)).getD [], (d.mails.lookup id).elim .unixEpoch Mail.mtime,
        (d'.files (.modseq id)).getD 1⟩, counter'), d') := by
  have hsize : (scanSize crypto id ((d.mails.lookup id).map fun mail ↦
      ⟨mail.stored.length, mail.mtime⟩)).run Dir.exec d =
        ((d.mails.lookup id).elim 0 (Core.plaintextLen crypto), d) := by
    cases hmail : d.mails.lookup id with
    | none => rfl
    | some mail => exact run_storedPlaintextLen hmail
  rw [scanMessage, op_bind, run_call]
  dsimp only [Dir.exec]
  rw [run_bind, hsize, run_bind, h]
  cases d.mails.lookup id <;> rfl

theorem run_scanMessage {id : Uuid} (h : (d.core.uid id).isSome) (counter : UInt32) :
    (scanMessage crypto id counter).run Dir.exec d = ((d.core.entry crypto id, counter), d) := by
  obtain ⟨uid, huid⟩ := Option.isSome_iff_exists.1 h
  have hfile : d.files (.uid id) = some uid := huid
  have hassign : (Uid.assignOrRead id counter).run Dir.exec d = ((uid, counter), d) := by
    simp [Uid.assignOrRead, Uid.readMessage, Dir.exec, hfile]
  rw [run_scanMessage_of_assigned hassign, Core.entry, huid]
  rfl

theorem run_scanMessages {ids : List Uuid}
    (h : ∀ id ∈ ids, (d.core.uid id).isSome) (counter : UInt32) :
    (scanMessages crypto ids counter).run Dir.exec d =
      ((ids.map (d.core.entry crypto), counter), d) := by
  induction ids with
  | nil => rfl
  | cons id ids ih =>
    rw [scanMessages, run_bind, run_scanMessage (h id List.mem_cons_self), run_bind,
      ih fun j hj ↦ h j (List.mem_cons_of_mem id hj)]
    rfl

/-- A scan gathers the messages in the order of their names, and notes the last UID it has given. -/
theorem run_scanMailbox_of_scanned {messages : List MessageRef} {counter : UInt32} {d' : Dir}
    (h : (scanMessages crypto (sortIds d.mails.keys) ((d.files .uidnext).getD 0)).run Dir.exec d =
      ((messages, counter), d')) :
    (scanMailbox crypto).run Dir.exec d = (some messages,
      if counter > (d.files .uidnext).getD 0 then
      (d'.setTemp .uidnext none).setFile .uidnext (some counter) else d') := by
  have hcounter : Uid.readCounter.run Dir.exec d = ((d.files .uidnext).getD 0, d) := rfl
  rw [scanMailbox, op_bind, run_call]
  dsimp only [Dir.exec]
  rw [run_bind, hcounter]
  dsimp only
  rw [run_bind, h]
  dsimp only
  split
  · rw [run_bind, Uid.writeCounter, run_replaceFile]
    rfl
  · rfl

/-- A scan of a directory whose messages all have UIDs returns its view and changes nothing. -/
theorem run_scanMailbox (h : d.core.Assigned) :
    (scanMailbox crypto).run Dir.exec d = (some (d.core.view crypto), d) := by
  have hids : ∀ id ∈ sortIds d.mails.keys, (d.core.uid id).isSome := fun id hid ↦
    h id ((List.mem_insertionSort _).1 hid)
  rw [run_scanMailbox_of_scanned (run_scanMessages hids _), if_neg (UInt32.lt_irrefl _)]
  rfl

/-! ## What a delivery leaves behind -/

/-- A message has been put into a mailbox. Nothing else has changed but its flags. -/
structure Dir.Added (id : Uuid) (mail : Mail) (d d' : Dir) : Prop where
  mails : d'.mails = d.mails.insert id mail
  files : ∀ k ≠ .flags id, d'.files k = d.files k
  archive : d'.archive = d.archive

section

variable (id : Uuid) (mail : Mail)

private theorem run_storeMail (d : Dir) :
    ∃ d', (storeMail id mail).run Dir.exec d = (true, d') ∧ d.Added id mail d' := by
  have hpublish : ∃ d', Dir.exec (.publish id) (Dir.exec (.stage id mail) d).2 = (true, d') ∧
      d.Added id mail d' := by
    simp only [Dir.exec, Function.update_self]
    exact ⟨_, rfl, rfl, fun _ _ ↦ rfl, rfl⟩
  exact hpublish

theorem run_append_fst (flags : List Flag) (d : Dir) :
    ((append id mail flags).run Dir.exec d).1 = some id := by
  obtain ⟨d₁, hrun, -⟩ := run_storeMail id mail d
  rw [append, run_bind, hrun]
  dsimp only
  rw [if_pos rfl]
  split
  · rfl
  · rw [run_bind, Flags.writeFlags, run_replaceFile]
    rfl

theorem added_append (flags : List Flag) (d : Dir) :
    d.Added id mail ((append id mail flags).run Dir.exec d).2 := by
  obtain ⟨d₁, hrun, hadded⟩ := run_storeMail id mail d
  rw [append, run_bind, hrun]
  dsimp only
  rw [if_pos rfl]
  split
  · exact hadded
  · rw [run_bind, Flags.writeFlags, run_replaceFile]
    refine ⟨hadded.mails, fun k hk ↦ ?_, hadded.archive⟩
    exact (Function.update_of_ne hk _ _).trans (hadded.files k hk)

theorem added_deliverToAccount (flagTokens : List Text) (d : Dir) :
    d.Added id mail ((deliverToAccount id mail flagTokens).run Dir.exec d).2 := by
  obtain ⟨d₁, hrun, hadded⟩ := run_storeMail id mail d
  rw [deliverToAccount, run_bind, hrun]
  dsimp only
  rw [if_pos rfl, run_bind, writeFlagSidecar]
  split
  · exact hadded
  · refine ⟨hadded.mails, fun k hk ↦ ?_, hadded.archive⟩
    exact (Function.update_of_ne hk _ _).trans (hadded.files k hk)

end

end Epistle.Imap
