import Epistle.Effects.ChangeLog
import Epistle.Imap.FlagUpdates
import Epistle.Imap.Opening

/-!
# Changes to a mailbox, one command at a time

A mailbox that one command at a time works on can be caught up with. Its messages are the items of a
change log: they are kept by id and known to clients by UID, the value that can change is the set of
flags, and the mod-sequence is the stamp (`Dir.changeLog`).

What a command other than an open does is one of four things (`Effect`): nothing, store the flags of
a message, remove messages, or add one. Each of them advances the log (`Effect.advance`). So does an
open, which only gives UIDs to messages that have none (`Numbered.advance`).

An open trusts the index if it has the right stamp. `Sound` says why it may: a stamp is never ahead
of the mailbox, and the index shows the mailbox as it was under its stamp.
-/

namespace Epistle.Imap

open TextFormat Interleaving Effects
open Prog (run_bind op_bind run_call)
open FlagUpdates (flagSet modseqOf written run_nextCounter)

variable (crypto : MessageCrypto) (d : Dir) (snapshot : Snapshot) (id : Uuid)

/-! ## The change log of a directory -/

namespace Dir

def modseqCounter : ℕ := (d.files .modseqctr).getD 1

def vanishedLog : List (UInt32 × ℕ) := (d.files .vanished).getD []

/-- The messages of a directory as a store that can be caught up with. -/
def changeLog : ChangeLog Uuid UInt32 (Finset Flag) where
  items := fun id ↦ (d.mails.lookup id).map fun _ ↦
    ⟨d.files (.uid id), flagSet d id, modseqOf d id⟩
  gone := d.vanishedLog
  count := d.modseqCounter

theorem items_changeLog_eq_some {d : Dir} {id : Uuid} {item : Item UInt32 (Finset Flag)} :
    d.changeLog.items id = some item ↔
      (d.mails.lookup id).isSome ∧ item = ⟨d.files (.uid id), flagSet d id, modseqOf d id⟩ := by
  cases hmail : d.mails.lookup id with
  | none => simp [changeLog, hmail]
  | some mail => simp [changeLog, hmail, eq_comm]

theorem items_changeLog_eq_none {d : Dir} {id : Uuid} :
    d.changeLog.items id = none ↔ d.mails.lookup id = none :=
  Option.map_eq_none_iff

theorem items_changeLog_congr {d d' : Dir} {id : Uuid}
    (hmails : d'.mails.lookup id = d.mails.lookup id) (huid : d'.files (.uid id) =
      d.files (.uid id))
    (hflags : d'.files (.flags id) = d.files (.flags id))
    (hmodseq : d'.files (.modseq id) = d.files (.modseq id)) :
    d'.changeLog.items id = d.changeLog.items id := by
  simp only [changeLog, flagSet, modseqOf, hmails, huid, hflags, hmodseq]

end Dir

/-! ## Removing messages -/

structure ArchivedMessage where
  id : Uuid
  mailbox : Text
  deletedAt : ℕ
  deriving DecidableEq

/-- The archived messages, the oldest first. A sidecar without a message is skipped. -/
def Archive.list (archive : Archive) : List ArchivedMessage :=
  (archive.mails.keys.filterMap fun id ↦ (archive.deleted id).map fun entry ↦
    (⟨id, entry.2, entry.1⟩ : ArchivedMessage)).insertionSort fun a b ↦ a.deletedAt ≤ b.deletedAt

/-- The message files without the given ones. -/
def withoutMails (mails : Mails) (ids : List Uuid) : Mails :=
  ids.foldl (fun m id ↦ m.erase id) mails

theorem lookup_withoutMails (mails : Mails) (ids : List Uuid) (id : Uuid) :
    (withoutMails mails ids).lookup id = if id ∈ ids then none else mails.lookup id := by
  induction ids generalizing mails with
  | nil => rfl
  | cons first rest ih =>
    rw [withoutMails, List.foldl_cons, ← withoutMails, ih]
    by_cases hfirst : id = first
    · subst hfirst
      simp [AList.lookup_erase]
    · rw [AList.lookup_erase_ne hfirst]
      simp [hfirst]

/-- The files of some messages are gone, and nothing else has changed. -/
structure Removed (ids : List Uuid) (d d' : Dir) : Prop where
  mails : d'.mails = withoutMails d.mails ids
  files : ∀ k, (∀ id ∈ ids, k ≠ .flags id ∧ k ≠ .uid id) → d'.files k = d.files k

theorem Removed.refl : Removed [] d d := ⟨rfl, fun _ _ ↦ rfl⟩

theorem Removed.append {ids ids' : List Uuid} {d d' d'' : Dir} (h : Removed ids d d')
    (h' : Removed ids' d' d'') : Removed (ids ++ ids') d d'' where
  mails := by rw [h'.mails, h.mails, withoutMails, withoutMails, withoutMails, List.foldl_append]
  files := by
    intro k hk
    rw [h'.files k fun id hid ↦ hk id (List.mem_append_right ids hid),
      h.files k fun id hid ↦ hk id (List.mem_append_left ids' hid)]

theorem exec_archiveFile (k : Sidecar) (d : Dir) :
    Dir.exec (.archiveFile k) d = (true, { d with
      files := Function.update d.files k none
      archive := { d.archive with
        files := Function.update d.archive.files k ((d.files k).or (d.archive.files k)) } }) := by
  cases h : d.files k with
  | some c =>
    rw [Dir.exec, h]
    rfl
  | none =>
    have hsame : Function.update d.files k none = d.files := by rw [← h, Function.update_eq_self]
    rw [Dir.exec, h, hsame, Option.none_or, Function.update_eq_self]

theorem exec_archiveMail (d : Dir) :
    Dir.exec (.archiveMail id) d = (true, { d with
      mails := d.mails.erase id
      archive := { d.archive with
        mails := (d.mails.lookup id).elim d.archive.mails (d.archive.mails.insert id) } }) := by
  cases h : d.mails.lookup id with
  | some mail =>
    rw [Dir.exec, h]
    rfl
  | none =>
    have hsame : d.mails.erase id = d.mails :=
      AList.ext (List.kerase_of_notMem_keys (AList.lookup_eq_none.1 h))
    rw [Dir.exec, h, hsame]
    rfl

/-- The mailbox after all calls of `archiveMessage`. -/
def Dir.archived (mailbox : Text) (id : Uuid) (now : ℕ) (d : Dir) : Dir :=
  { d with
    mails := d.mails.erase id
    files := Function.update (Function.update d.files (.flags id) none) (.uid id) none
    archive :=
      { mails := (d.mails.lookup id).elim d.archive.mails (d.archive.mails.insert id)
        files :=
          let flags := (d.files (.flags id)).or (d.archive.files (.flags id))
          let files := Function.update d.archive.files (.flags id) flags
          Function.update files (.uid id)
            ((Function.update d.files (.flags id) none (.uid id)).or (files (.uid id)))
        deleted := Function.update d.archive.deleted id (some (now, mailbox)) } }

theorem run_archiveMessage (mailbox : Text) (id : Uuid) (now : ℕ) (d : Dir) :
    (Snapshot.archiveMessage mailbox id now).run Dir.exec d = (true,
      d.archived mailbox id now) := by
  rw [Snapshot.archiveMessage, op_bind, run_call, Dir.exec, if_pos rfl, op_bind, run_call,
    exec_archiveFile, if_pos rfl, op_bind, run_call, exec_archiveFile, if_pos rfl, Prog.run_op,
    exec_archiveMail]
  rfl

/-- Removing the files of a message takes the message away, whether or not it is archived. -/
theorem removed_removeFiles (d : Dir) :
    Removed [id] d ((snapshot.removeFiles id).run Dir.exec d).2 := by
  have hremoved : ∀ {d' : Dir}, d'.mails = d.mails.erase id →
      d'.files = Function.update (Function.update d.files (.flags id) none) (.uid id) none →
      Removed [id] d d' := by
    intro d' hmails hfiles
    refine ⟨hmails, fun k hk ↦ ?_⟩
    obtain ⟨hflags, huid⟩ := hk id (List.mem_singleton_self id)
    rw [hfiles, Function.update_of_ne huid, Function.update_of_ne hflags]
  rw [Snapshot.removeFiles]
  split
  · rw [run_bind, run_archiveMessage]
    exact hremoved rfl rfl
  · exact hremoved rfl rfl

theorem run_record (modseq : ℕ) (uids : List UInt32) (d : Dir) :
    ∃ d', (Vanished.record modseq uids).run Dir.exec d = (true, d') ∧ d'.mails = d.mails ∧
      d'.vanishedLog = d.vanishedLog ++ uids.map (·, modseq) ∧
      ∀ k ≠ .vanished, d'.files k = d.files k := by
  induction uids generalizing d with
  | nil => exact ⟨d, rfl, rfl, (List.append_nil _).symm, fun _ _ ↦ rfl⟩
  | cons uid uids ih =>
    obtain ⟨d', hrun, hmails, hlog, hfiles⟩ := ih (Dir.exec (.appendVanished uid modseq) d).2
    refine ⟨d', hrun, hmails, ?_, fun k hk ↦ ?_⟩
    · rw [hlog]
      simp [Dir.vanishedLog, Dir.exec]
    · rw [hfiles k hk]
      exact Function.update_of_ne hk _ _

/-- Messages are gone, and their UIDs are logged at a new count. -/
structure Expunged (messages : List MessageRef) (d d' : Dir) : Prop where
  mails : d'.mails = withoutMails d.mails (messages.map MessageRef.id)
  counter : d'.modseqCounter = d.modseqCounter + 1
  log : d'.vanishedLog = d.vanishedLog ++
    messages.map fun message ↦ (message.uid, d.modseqCounter + 1)
  files : ∀ k, k ≠ .modseqctr → k ≠ .vanished →
    (∀ message ∈ messages, k ≠ .flags message.id ∧ k ≠ .uid message.id) → d'.files k = d.files k

theorem expunged_recordAdvancing {messages : List MessageRef} (hne : messages ≠ []) {d d₁ : Dir}
    (h : Removed (messages.map MessageRef.id) d d₁) :
    Expunged messages d
      ((Vanished.recordAdvancing (messages.map MessageRef.uid)).run Dir.exec d₁).2 := by
  have hctr : d₁.files .modseqctr = d.files .modseqctr := h.files _ fun _ _ ↦ ⟨nofun, nofun⟩
  have hlog : d₁.files .vanished = d.files .vanished := h.files _ fun _ _ ↦ ⟨nofun, nofun⟩
  rw [Vanished.recordAdvancing, if_neg (by simpa using hne), run_bind, run_nextCounter]
  dsimp only
  rw [run_bind]
  obtain ⟨d', hrun, hmails, hlog', hfiles⟩ := run_record ((d₁.files .modseqctr).getD 1 + 1)
    (messages.map MessageRef.uid)
    ((d₁.setTemp .modseqctr none).setFile .modseqctr (some ((d₁.files .modseqctr).getD 1 + 1)))
  rw [hrun]
  refine ⟨hmails.trans h.mails, ?_, ?_, fun k hctr' hlog'' hk ↦ ?_⟩
  · change (d'.files .modseqctr).getD 1 = _
    rw [hfiles .modseqctr nofun, Dir.setFile_files, Function.update_self, hctr]
    rfl
  · change d'.vanishedLog = _
    rw [hlog', hctr, List.map_map]
    congr 1
    simp [Dir.vanishedLog, hlog]
  · change d'.files k = _
    rw [hfiles k hlog'', Dir.setFile_files, Function.update_of_ne hctr', Dir.setTemp_files]
    refine h.files k fun id hid ↦ ?_
    obtain ⟨message, hmessage, rfl⟩ := List.mem_map.1 hid
    exact hk message hmessage

def expungeable (keep : UInt32 → Bool) (messages : List MessageRef) : List MessageRef :=
  messages.filter fun message ↦ message.flags.contains .deleted && keep message.uid

theorem run_expungeLoop (keep : UInt32 → Bool) (index : ℕ)
    (messages : List MessageRef) (d : Dir) :
    ∃ left expunged d', (snapshot.expungeLoop keep index messages).run Dir.exec d =
        ((left, expunged, (expungeable keep messages).map MessageRef.uid), d') ∧
      Removed ((expungeable keep messages).map MessageRef.id) d d' ∧
      (expungeable keep messages = [] → d' = d) := by
  induction messages generalizing index d with
  | nil => exact ⟨[], [], d, rfl, .refl d, fun _ ↦ rfl⟩
  | cons message rest ih =>
    rw [Snapshot.expungeLoop, expungeable, List.filter_cons, ← expungeable]
    split
    · obtain ⟨left, expunged, d', hrun, hremoved, -⟩ :=
        ih index ((snapshot.removeFiles message.id).run Dir.exec d).2
      refine ⟨left, Snapshot.sequenceNumber index :: expunged, d', ?_, ?_, nofun⟩
      · rw [run_bind, run_bind, hrun]
        rfl
      · exact (removed_removeFiles snapshot message.id d).append hremoved
    · obtain ⟨left, expunged, d', hrun, hremoved, hsame⟩ := ih (index + 1) d
      refine ⟨message :: left, expunged, d', ?_, hremoved, hsame⟩
      rw [run_bind, hrun]
      rfl

/-! ## What a command does -/

def Command.newId : Command → Option Uuid
  | .deliver id _ _ _ _ | .append id _ _ _ _ => some id
  | _ => none

/-- What a command other than an open does to the directory, for a session that holds `snapshot`. -/
inductive Effect (c : Command) (snapshot : Snapshot) (d d' : Dir) : Prop
  | nothing (hd : d' = d)
  | stored (message : MessageRef) (hmessage : message ∈ snapshot.messages) (flags : List Flag)
      (hd : d' = written d message.id flags (d.modseqCounter + 1))
  | removed (messages : List MessageRef) (hsub : messages ⊆ snapshot.messages)
      (hexpunged : Expunged messages d d')
  | added (id : Uuid) (hid : c.newId = some id) (mail : Mail)
      (hmails : d'.mails = d.mails.insert id mail)
      (hfiles : ∀ k ≠ .flags id, d'.files k = d.files k)

theorem run_expungeWhere (keep : UInt32 → Bool) (d : Dir) :
    ((snapshot.expungeWhere keep).run Dir.exec d).2 = d ∧
        expungeable keep snapshot.messages = [] ∨
      Expunged (expungeable keep snapshot.messages) d
        ((snapshot.expungeWhere keep).run Dir.exec d).2 := by
  obtain ⟨left, expunged, d', hrun, hremoved, hsame⟩ :=
    run_expungeLoop snapshot keep 0 snapshot.messages d
  rw [Snapshot.expungeWhere, run_bind, hrun]
  dsimp only
  rw [run_bind]
  by_cases hempty : expungeable keep snapshot.messages = []
  · refine .inl ⟨?_, hempty⟩
    rw [hempty]
    exact hsame hempty
  · exact .inr (expunged_recordAdvancing hempty hremoved)

theorem effect_expungeWhere (c : Command) (snapshot : Snapshot) (keep : UInt32 → Bool) (d : Dir) :
    Effect c snapshot d ((snapshot.expungeWhere keep).run Dir.exec d).2 := by
  rcases run_expungeWhere snapshot keep d with ⟨hsame, -⟩ | hexpunged
  · exact .nothing hsame
  · exact .removed _ (List.filter_subset_self _) hexpunged

theorem run_removeAt (sequence : ℕ) (d : Dir) :
    snapshot.bySequence sequence = none ∧ ((snapshot.removeAt sequence).run Dir.exec d).2 = d ∨
      ∃ message, snapshot.bySequence sequence = some message ∧
        Expunged [message] d ((snapshot.removeAt sequence).run Dir.exec d).2 := by
  cases hmessage : snapshot.bySequence sequence with
  | none =>
    refine .inl ⟨rfl, ?_⟩
    rw [Snapshot.removeAt]
    split
    · rfl
    next index hindex =>
      rw [Snapshot.indexOf] at hindex
      rw [Snapshot.bySequence] at hmessage
      split at hindex
      next hrange =>
        obtain rfl := Option.some.inj hindex
        rw [if_pos hrange.1] at hmessage
        rw [hmessage]
        rfl
      next => cases hindex
  | some message =>
    obtain ⟨hpos, hlt, hget⟩ := FlagUpdates.bySequence_eq_some hmessage
    refine .inr ⟨message, rfl, ?_⟩
    rw [Snapshot.removeAt, Snapshot.indexOf, if_pos ⟨hpos, hlt⟩]
    dsimp only
    rw [hget]
    dsimp only
    rw [run_bind, run_bind]
    exact expunged_recordAdvancing (List.cons_ne_nil _ _)
      (removed_removeFiles snapshot message.id d)

section

variable (c : Command) (snapshot : Snapshot) (sequence : ℕ)

theorem effect_removeAt (d : Dir) :
    Effect c snapshot d ((snapshot.removeAt sequence).run Dir.exec d).2 := by
  rcases run_removeAt snapshot sequence d with ⟨-, hsame⟩ | ⟨message, hmessage, hexpunged⟩
  · exact .nothing hsame
  · refine .removed [message] ?_ hexpunged
    simpa using List.mem_of_getElem? (FlagUpdates.bySequence_eq_some hmessage).2.2

theorem effect_storeFlags (flags : List Flag) (d : Dir) :
    Effect c snapshot d ((snapshot.storeFlags sequence flags).run Dir.exec d).2 := by
  rw [Snapshot.storeFlags]
  split
  · exact .nothing rfl
  · split
    · exact .nothing rfl
    next message hmessage =>
      split
      · exact .nothing rfl
      · rw [run_bind, Flags.writeFlags, run_replaceFile]
        simp only [if_true]
        rw [run_bind, run_nextCounter]
        dsimp only
        rw [run_bind, Modseq.writeMessage, run_replaceFile]
        exact .stored message (List.mem_of_getElem? hmessage) flags rfl

end

theorem Command.added {c : Command} {id : Uuid} (hid : c.newId = some id)
    (snapshot : Snapshot) (d : Dir) :
    ∃ mail, d.Added id mail ((c.body crypto snapshot).run Dir.exec d).2 := by
  cases c with
  | deliver new nonce data mtime flagTokens =>
    obtain rfl := Option.some.inj hid
    rw [Command.body, run_bind]
    exact ⟨_, added_deliverToAccount new _ flagTokens d⟩
  | append new nonce data mtime flags =>
    obtain rfl := Option.some.inj hid
    rw [Command.body, run_bind]
    exact ⟨_, added_append new _ flags d⟩
  | _ => cases hid

/-- **What a command does**, if it is not an open. -/
theorem Command.effect {c : Command}
    (hc : ∀ mailbox retentionDays now clock, c ≠ .openMailbox mailbox retentionDays now clock)
    (snapshot : Snapshot) (d : Dir) :
    Effect c snapshot d ((c.body crypto snapshot).run Dir.exec d).2 := by
  cases hnew : c.newId with
  | some id =>
    obtain ⟨mail, hadded⟩ := Command.added crypto hnew snapshot d
    exact .added id hnew mail hadded.mails hadded.files
  | none =>
    cases c with
    | openMailbox mailbox retentionDays now clock => exact absurd rfl (hc mailbox _ _ _)
    | deliver _ _ _ _ _ | append _ _ _ _ _ => cases hnew
    | storeFlags sequence flags =>
      rw [Command.body, run_bind]
      exact effect_storeFlags _ snapshot sequence flags d
    | removeAt sequence =>
      rw [Command.body, run_bind]
      exact effect_removeAt _ snapshot sequence d
    | expunge | expungeUids uids =>
      rw [Command.body, run_bind]
      exact effect_expungeWhere _ snapshot _ d

/-! ## Messages as they are -/

/-- A message is shown as it is on disk. -/
structure Agrees (d : Dir) (message : MessageRef) : Prop where
  uid : d.files (.uid message.id) = some message.uid
  flags : (d.files (.flags message.id)).getD [] = message.flags
  modseq : modseqOf d message.id = message.modseq

/-- The messages are shown as they are on disk, all of them and in order. -/
structure Current (d : Dir) (messages : List MessageRef) : Prop where
  ids : messages.map MessageRef.id = sortIds d.mails.keys
  agrees : ∀ message ∈ messages, Agrees d message

/-- Messages may have got UIDs; those that had one have kept it. Apart from what an open writes
nothing else has changed. -/
structure Numbered (d d' : Dir) : Prop where
  mails : d'.mails = d.mails
  keeps : ∀ id uid, d.files (.uid id) = some uid → d'.files (.uid id) = some uid
  files : ∀ k, (∀ id, k ≠ .uid id) → k ≠ .uidnext → k ≠ .index → k ≠ .uidvalidity →
    d'.files k = d.files k

theorem Numbered.refl : Numbered d d := ⟨rfl, fun _ _ h ↦ h, fun _ _ _ _ _ ↦ rfl⟩

theorem Numbered.trans {d d' d'' : Dir} (h : Numbered d d') (h' : Numbered d' d'') :
    Numbered d d'' where
  mails := h'.mails.trans h.mails
  keeps := fun id uid hid ↦ h'.keeps id uid (h.keeps id uid hid)
  files := fun k hu hn hi hv ↦ (h'.files k hu hn hi hv).trans (h.files k hu hn hi hv)

theorem Numbered.modseqOf {d d' : Dir} (h : Numbered d d') (id : Uuid) :
    modseqOf d' id = modseqOf d id := by
  rw [FlagUpdates.modseqOf, h.files (.modseq id) nofun nofun nofun nofun, FlagUpdates.modseqOf]

theorem Numbered.modseqCounter {d d' : Dir} (h : Numbered d d') :
    d'.modseqCounter = d.modseqCounter := by
  rw [Dir.modseqCounter, h.files .modseqctr nofun nofun nofun nofun, Dir.modseqCounter]

theorem Numbered.setTemp (d : Dir) (k : Sidecar) (c : Option (Content k)) :
    Numbered d (d.setTemp k c) := ⟨rfl, fun _ _ h ↦ h, fun _ _ _ _ _ ↦ rfl⟩

theorem Numbered.setFile (d : Dir) {k : Sidecar} (hk : k = .uidnext ∨ k = .index ∨ k = .uidvalidity)
    (c : Option (Content k)) : Numbered d (d.setFile k c) := by
  refine ⟨rfl, fun id uid hid ↦ ?_, fun j hu hn hi hv ↦ ?_⟩
  · have hne : Sidecar.uid id ≠ k := by rcases hk with rfl | rfl | rfl <;> nofun
    exact (Function.update_of_ne hne _ _).trans hid
  · refine Function.update_of_ne ?_ _ _
    rintro rfl
    rcases hk with rfl | rfl | rfl
    · exact hn rfl
    · exact hi rfl
    · exact hv rfl

theorem Agrees.numbered {d d' : Dir} {message : MessageRef} (h : Agrees d message)
    (hnumbered : Numbered d d') : Agrees d' message where
  uid := hnumbered.keeps _ _ h.uid
  flags := by rw [hnumbered.files (.flags _) nofun nofun nofun nofun, h.flags]
  modseq := (hnumbered.modseqOf _).trans h.modseq

theorem Current.numbered {d d' : Dir} {messages : List MessageRef} (h : Current d messages)
    (hnumbered : Numbered d d') : Current d' messages where
  ids := by rw [h.ids, hnumbered.mails]
  agrees := fun message hmessage ↦ (h.agrees message hmessage).numbered hnumbered

/-- What the index loses of a message does not matter here. -/
theorem Current.clamp {d : Dir} {messages : List MessageRef} (h : Current d messages) :
    Current d (messages.map Index.clamp) where
  ids := by
    rw [← h.ids, List.map_map]
    exact List.map_congr_left fun message _ ↦ Index.clamp_id message
  agrees := by
    intro message hmessage
    obtain ⟨original, horiginal, rfl⟩ := List.mem_map.1 hmessage
    obtain ⟨huid, hflags, hmodseq⟩ := h.agrees original horiginal
    constructor
    · rw [Index.clamp_id, Index.clamp_uid, huid]
    · rw [Index.clamp_id, Index.clamp_flags, hflags]
    · rw [Index.clamp_id, Index.clamp_modseq, hmodseq]

/-! ## Scans -/

theorem run_assignOrRead (counter : UInt32) (d : Dir) :
    ∃ uid counter' d', (Uid.assignOrRead id counter).run Dir.exec d = ((uid, counter'), d') ∧
      Numbered d d' ∧ d'.files (.uid id) = some uid := by
  rw [Uid.assignOrRead, Uid.readMessage, op_bind, run_call]
  dsimp only [Dir.exec]
  cases hid : d.files (.uid id) with
  | some uid => exact ⟨uid, counter, d, rfl, .refl d, hid⟩
  | none =>
    dsimp only
    rw [run_bind, Uid.writeMessage, run_replaceFile]
    refine ⟨_, _, _, rfl, ⟨rfl, fun other uid hother ↦ ?_, fun k hk _ _ _ ↦ ?_⟩,
      Function.update_self _ _ _⟩
    · have hne : other ≠ id := by
        rintro rfl
        rw [hid] at hother
        cases hother
      rwa [Dir.setFile_files, Function.update_of_ne (by simpa using hne)]
    · rw [Dir.setFile_files, Function.update_of_ne (hk id), Dir.setTemp_files]

section

variable (crypto : MessageCrypto)

/-- A scan gathers a message as it is on disk once it has its UID. -/
theorem agrees_scanMessage (id : Uuid) (counter : UInt32) (d : Dir) :
    ∃ message counter' d', (scanMessage crypto id counter).run Dir.exec d =
        ((message, counter'), d') ∧ message.id = id ∧ Numbered d d' ∧ Agrees d' message ∧
      message.size = (d.mails.lookup id).elim 0 (Core.plaintextLen crypto) := by
  obtain ⟨uid, counter', d', hassign, hnumbered, huid⟩ := run_assignOrRead id counter d
  exact ⟨_, counter', d', run_scanMessage_of_assigned hassign, rfl, hnumbered,
    ⟨huid, rfl, rfl⟩, rfl⟩

theorem agrees_scanMessages (ids : List Uuid) (counter : UInt32) (d : Dir) :
    ∃ messages counter' d', (scanMessages crypto ids counter).run Dir.exec d =
        ((messages, counter'), d') ∧ messages.map MessageRef.id = ids ∧ Numbered d d' ∧
      ∀ message ∈ messages, Agrees d' message ∧ ∀ mail, d.mails.lookup message.id = some mail →
        message.size = Core.plaintextLen crypto mail := by
  induction ids generalizing counter d with
  | nil => exact ⟨[], counter, d, rfl, rfl, .refl d, nofun⟩
  | cons id ids ih =>
    obtain ⟨message, counter₁, d₁, hfirst, hid, hnumbered₁, hagrees₁, hsize⟩ :=
      agrees_scanMessage crypto id counter d
    obtain ⟨messages, counter₂, d₂, hrest, hids, hnumbered₂, hagrees₂⟩ := ih counter₁ d₁
    refine ⟨message :: messages, counter₂, d₂, ?_, ?_, hnumbered₁.trans hnumbered₂, ?_⟩
    · rw [scanMessages, run_bind, hfirst]
      dsimp only
      rw [run_bind, hrest]
      rfl
    · rw [List.map_cons, hid, hids]
    · -- what was gathered first stays right while the others get their UIDs
      intro m hm
      rcases List.mem_cons.1 hm with rfl | hm
      · refine ⟨hagrees₁.numbered hnumbered₂, fun mail hmail ↦ ?_⟩
        rw [hsize, ← hid, hmail, Option.elim_some]
      · refine ⟨(hagrees₂ m hm).1, fun mail hmail ↦ (hagrees₂ m hm).2 mail ?_⟩
        rw [hnumbered₁.mails, hmail]

/-- **A scan shows the messages as they are**, and gives UIDs to those that have none. -/
theorem current_scanMailbox (d : Dir) :
    ∃ messages d', (scanMailbox crypto).run Dir.exec d = (some messages, d') ∧ Numbered d d' ∧
      Current d' messages ∧ ∀ message ∈ messages, ∀ mail, d.mails.lookup message.id = some mail →
        message.size = Core.plaintextLen crypto mail := by
  obtain ⟨messages, counter, d₁, hrun, hids, hnumbered, hagrees⟩ :=
    agrees_scanMessages crypto (sortIds d.mails.keys) ((d.files .uidnext).getD 0) d
  have hcurrent : Current d₁ messages :=
    ⟨by rw [hids, hnumbered.mails], fun message hmessage ↦ (hagrees message hmessage).1⟩
  have hsizes := fun message hmessage ↦ (hagrees message hmessage).2
  rw [run_scanMailbox_of_scanned hrun]
  split
  · have hset : Numbered d₁ ((d₁.setTemp .uidnext none).setFile .uidnext (some counter)) :=
      (Numbered.setTemp d₁ .uidnext none).trans (.setFile _ (.inl rfl) _)
    exact ⟨messages, _, rfl, hnumbered.trans hset, hcurrent.numbered hset, hsizes⟩
  · exact ⟨messages, d₁, rfl, hnumbered, hcurrent, hsizes⟩

end

/-! ## Opens -/

/-- The index is not ahead of the mailbox, and if it is not behind either it shows the messages as
they are. No mod-sequence is above the counter. -/
structure Sound (d : Dir) : Prop where
  one_le : 1 ≤ d.modseqCounter
  modseq_le : ∀ id, modseqOf d id ≤ d.modseqCounter
  stamp_le : ∀ text, d.files .index = some text → ∀ stamp messages,
    Index.parse text stamp = some messages → stamp.1 ≤ d.modseqCounter
  length_le : ∀ text, d.files .index = some text → ∀ stamp messages,
    Index.parse text stamp = some messages → stamp.1 = d.modseqCounter →
      stamp.2 ≤ d.mails.keys.length
  current : ∀ text, d.files .index = some text → ∀ stamp messages,
    Index.parse text stamp = some messages → stamp = (d.modseqCounter, d.mails.keys.length) →
      Current d messages

theorem Sound.generation {d : Dir} (h : Sound d) :
    d.core.generation = (d.modseqCounter, d.mails.keys.length) := by
  have hmax : max d.modseqCounter 1 = d.modseqCounter := max_eq_left h.one_le
  exact Prod.ext hmax rfl

theorem sound_empty : Sound .empty := ⟨le_rfl, fun _ ↦ le_rfl, nofun, nofun, nofun⟩

/-- What an open leaves behind: the messages it shows are shown as they are. -/
structure Opened (d d' : Dir) (messages : List MessageRef) : Prop where
  numbered : Numbered d d'
  current : Current d' messages
  sound : Sound d'

/-- An index that was there before, or that shows the messages as they are, is sound. -/
theorem Sound.numbered {d d' : Dir} (h : Sound d) (hnumbered : Numbered d d')
    (hindex : ∀ text, d'.files .index = some text → d.files .index = some text ∨
      ∀ stamp messages, Index.parse text stamp = some messages →
        stamp = (d.modseqCounter, d.mails.keys.length) ∧ Current d' messages) : Sound d' where
  one_le := hnumbered.modseqCounter ▸ h.one_le
  modseq_le := fun id ↦ by
    rw [hnumbered.modseqOf, hnumbered.modseqCounter]
    exact h.modseq_le id
  stamp_le := by
    intro text htext stamp messages hparse
    rw [hnumbered.modseqCounter]
    rcases hindex text htext with hold | hnew
    · exact h.stamp_le text hold stamp messages hparse
    · rw [(hnew stamp messages hparse).1]
  length_le := by
    intro text htext stamp messages hparse hstamp
    rw [hnumbered.modseqCounter] at hstamp
    rw [hnumbered.mails]
    rcases hindex text htext with hold | hnew
    · exact h.length_le text hold stamp messages hparse hstamp
    · rw [(hnew stamp messages hparse).1]
  current := by
    intro text htext stamp messages hparse hstamp
    rw [hnumbered.modseqCounter, hnumbered.mails] at hstamp
    rcases hindex text htext with hold | hnew
    · exact (h.current text hold stamp messages hparse hstamp).numbered hnumbered
    · exact (hnew stamp messages hparse).2

/-- An open takes the messages from the index, or scans them and writes the index anew. -/
theorem opened_cases (clock : SystemTime) (d : Dir) :
    Numbered d (d.opened crypto clock).2 ∧
      ((∃ text, d.files .index = some text ∧
          Index.parse text d.core.generation = some (d.opened crypto clock).1 ∧
          (d.opened crypto clock).2.files .index = some text) ∨
        Current (d.opened crypto clock).2 (d.opened crypto clock).1 ∧
          (d.opened crypto clock).2.files .index =
            some (Index.render d.core.generation (d.opened crypto clock).1)) := by
  rw [Dir.opened]
  split
  next loaded hloaded =>
    obtain ⟨text, htext, hparse⟩ := Option.bind_eq_some_iff.1 hloaded
    refine ⟨.setFile d (.inr (.inr rfl)) _, .inl ⟨text, htext, hparse, ?_⟩⟩
    simpa using htext
  next =>
    obtain ⟨messages, d₁, hrun, hscan, hcurrent, -⟩ := current_scanMailbox crypto d
    rw [hrun]
    dsimp only [Option.getD_some]
    set d₂ := (d₁.setTemp .index none).setFile .index
      (some (Index.render d.core.generation messages))
    have hafter : Numbered d₁ (d₂.setFile .uidvalidity (some (d.validity clock))) :=
      ((Numbered.setTemp d₁ .index none).trans (.setFile _ (.inr (.inl rfl)) _)).trans
        (.setFile d₂ (.inr (.inr rfl)) _)
    exact ⟨hscan.trans hafter, .inr ⟨hcurrent.numbered hafter, by simp [d₂]⟩⟩

/-- **An open shows the messages as they are**, from the index or by a scan. -/
theorem Sound.opened {d : Dir} (h : Sound d) (crypto : MessageCrypto) (clock : SystemTime) :
    Opened d (d.opened crypto clock).2 (d.opened crypto clock).1 := by
  obtain ⟨hnumbered, ⟨text, htext, hparse, hindex⟩ | ⟨hcurrent, hindex⟩⟩ :=
    opened_cases crypto clock d
  · have hcurrent := h.current text htext _ _ hparse h.generation
    refine ⟨hnumbered, hcurrent.numbered hnumbered, h.numbered hnumbered fun found hfound ↦ .inl ?_⟩
    rw [htext, ← hindex, hfound]
  · refine ⟨hnumbered, hcurrent, h.numbered hnumbered fun found hfound ↦ .inr ?_⟩
    obtain rfl := Option.some.inj (hindex.symm.trans hfound)
    intro stamp messages hparse
    rw [Index.parse_render] at hparse
    split at hparse
    next hstamp =>
      obtain rfl := Option.some.inj hparse
      exact ⟨by rw [← hstamp.1, h.generation], hcurrent.clamp⟩
    next => cases hparse

theorem Sound.openAt {d : Dir} (h : Sound d) (crypto : MessageCrypto) (mailbox : Text)
    (retentionDays now : ℕ) (clock : SystemTime) :
    ∃ snapshot d', (Snapshot.openAt crypto mailbox retentionDays now clock).run Dir.exec d =
        (some snapshot, d') ∧ Opened d d' snapshot.messages ∧
      snapshot.highestModseq = d'.modseqCounter := by
  obtain ⟨snapshot, hrun, -, hmessages, -, hhighest⟩ :=
    run_openAt crypto mailbox retentionDays now clock d
  have hopened := h.opened crypto clock
  rw [← hmessages] at hopened hhighest
  refine ⟨snapshot, _, hrun, hopened, ?_⟩
  rw [hopened.numbered.modseqCounter, hhighest, h.generation]
  intro message hmessage
  rw [h.generation, ← hopened.numbered.modseqCounter,
    ← (hopened.current.agrees message hmessage).modseq]
  exact hopened.sound.modseq_le message.id

section

variable {d d' : Dir} (h : Sound d) (hindex : d'.files .index = d.files .index)
include h hindex

/-- A change that takes a new count makes the index stale. -/
theorem Sound.of_counter_lt (hlt : d.modseqCounter < d'.modseqCounter)
    (hmodseq : ∀ id, modseqOf d' id ≤ d'.modseqCounter) : Sound d' := by
  have hbehind : ∀ text, d'.files .index = some text → ∀ stamp messages,
      Index.parse text stamp = some messages → stamp.1 < d'.modseqCounter := by
    intro text htext stamp messages hparse
    rw [hindex] at htext
    exact (h.stamp_le text htext stamp messages hparse).trans_lt hlt
  refine ⟨h.one_le.trans hlt.le, hmodseq, fun text htext stamp messages hparse ↦ ?_,
    fun text htext stamp messages hparse hstamp ↦ ?_,
    fun text htext stamp messages hparse hstamp ↦ ?_⟩
  · exact (hbehind text htext stamp messages hparse).le
  · exact absurd hstamp (hbehind text htext stamp messages hparse).ne
  · exact absurd (congrArg Prod.fst hstamp) (hbehind text htext stamp messages hparse).ne

/-- So does a new message. -/
theorem Sound.of_length_lt (hcounter : d'.modseqCounter = d.modseqCounter)
    (hlt : d.mails.keys.length < d'.mails.keys.length)
    (hmodseq : ∀ id, modseqOf d' id = modseqOf d id) : Sound d' := by
  refine ⟨hcounter ▸ h.one_le, fun id ↦ ?_, fun text htext stamp messages hparse ↦ ?_,
    fun text htext stamp messages hparse hstamp ↦ ?_,
    fun text htext stamp messages hparse hstamp ↦ ?_⟩
  · rw [hmodseq, hcounter]
    exact h.modseq_le id
  · rw [hindex] at htext
    rw [hcounter]
    exact h.stamp_le text htext stamp messages hparse
  · rw [hindex] at htext
    rw [hcounter] at hstamp
    exact (h.length_le text htext stamp messages hparse hstamp).trans hlt.le
  · rw [hindex] at htext
    rw [hcounter] at hstamp
    have hle := h.length_le text htext stamp messages hparse (congrArg Prod.fst hstamp)
    exact absurd (congrArg Prod.snd hstamp) (hle.trans_lt hlt).ne

end

/-! ## Every command advances the log -/

/-- Giving UIDs to messages that have none is nothing a client could have missed. -/
theorem Numbered.advance {d d' : Dir} (h : Numbered d d') (used : Set Uuid) :
    ChangeLog.Advance used d.changeLog d'.changeLog where
  count_le := h.modseqCounter.ge
  gone_subset := by
    change d.vanishedLog ⊆ (d'.files .vanished).getD []
    rw [h.files .vanished nofun nofun nofun nofun]
    exact .refl _
  outcome := by
    intro id item uid hitem hname
    obtain ⟨hmail, rfl⟩ := Dir.items_changeLog_eq_some.1 hitem
    have huid : d'.files (.uid id) = d.files (.uid id) := (h.keeps id uid hname).trans hname.symm
    refine .same (Eq.trans (Dir.items_changeLog_congr ?_ huid ?_ ?_) hitem)
    · rw [h.mails]
    · exact h.files (.flags id) nofun nofun nofun nofun
    · exact h.files (.modseq id) nofun nofun nofun nofun
  stays_gone := by
    intro id _ hnone
    rw [Dir.items_changeLog_eq_none] at hnone ⊢
    rw [h.mails, hnone]

/-- A session knows the UIDs of the messages it shows, as far as they are still there. -/
def Known : Prop :=
  ∀ message ∈ snapshot.messages, ∀ item, d.changeLog.items message.id = some item →
    item.name = some message.uid

namespace Expunged

variable {messages : List MessageRef} {d d' : Dir}

section

variable (h : Expunged messages d d')
include h

theorem lookup (id : Uuid) :
    d'.mails.lookup id = if id ∈ messages.map MessageRef.id then none else d.mails.lookup id := by
  rw [h.mails, lookup_withoutMails]

theorem items {id : Uuid} (hid : id ∉ messages.map MessageRef.id) :
    d'.changeLog.items id = d.changeLog.items id := by
  have hne : ∀ message ∈ messages, message.id ≠ id := by
    rintro message hmessage rfl
    exact hid (List.mem_map_of_mem hmessage)
  refine Dir.items_changeLog_congr ?_ (h.files _ nofun nofun fun message hmessage ↦ ⟨nofun, ?_⟩)
    (h.files _ nofun nofun fun message hmessage ↦ ⟨?_, nofun⟩)
    (h.files _ nofun nofun fun _ _ ↦ ⟨nofun, nofun⟩)
  · rw [h.lookup, if_neg hid]
  · simpa using (hne message hmessage).symm
  · simpa using (hne message hmessage).symm

theorem advance (hknown : ∀ message ∈ messages, ∀ item, d.changeLog.items message.id = some item →
    item.name = some message.uid) (used : Set Uuid) :
    ChangeLog.Advance used d.changeLog d'.changeLog where
  count_le := by
    change d.modseqCounter ≤ d'.modseqCounter
    rw [h.counter]
    exact Nat.le_succ _
  gone_subset := by
    change d.vanishedLog ⊆ d'.vanishedLog
    rw [h.log]
    exact List.subset_append_left _ _
  outcome := by
    intro id item uid hitem hname
    by_cases hid : id ∈ messages.map MessageRef.id
    · obtain ⟨message, hmessage, rfl⟩ := List.mem_map.1 hid
      have huid := hknown message hmessage item hitem
      obtain rfl := Option.some.inj (hname.symm.trans huid)
      refine .gone ?_ (d.modseqCounter + 1) (Nat.lt_succ_self _) ?_
      · rw [Dir.items_changeLog_eq_none, h.lookup, if_pos hid]
      · change _ ∈ d'.vanishedLog
        rw [h.log]
        exact List.mem_append_right _ (List.mem_map.2 ⟨message, hmessage, rfl⟩)
    · exact .same ((h.items hid).trans hitem)
  stays_gone := by
    intro id _ hnone
    rw [Dir.items_changeLog_eq_none] at hnone ⊢
    rw [h.lookup, hnone]
    exact ite_self none

end

end Expunged

theorem modseqCounter_written (flags : List Flag) (modseq : ℕ) :
    (written d id flags modseq).modseqCounter = modseq := by
  simp [written, Dir.modseqCounter]

theorem advance_written (flags : List Flag) (used : Set Uuid) :
    ChangeLog.Advance used d.changeLog
      (written d id flags (d.modseqCounter + 1)).changeLog where
  count_le := by
    change d.modseqCounter ≤ (written d id flags (d.modseqCounter + 1)).modseqCounter
    rw [modseqCounter_written]
    exact Nat.le_succ _
  gone_subset := by
    change d.vanishedLog ⊆ _
    simp [Dir.changeLog, Dir.vanishedLog, written]
  outcome := by
    intro other item uid hitem hname
    by_cases hother : other = id
    · subst hother
      obtain ⟨hmail, rfl⟩ := Dir.items_changeLog_eq_some.1 hitem
      refine .changed ⟨d.files (.uid other), flags.toFinset, d.modseqCounter + 1⟩ ?_ hname
        (Nat.lt_succ_self _)
      rw [Dir.items_changeLog_eq_some]
      exact ⟨hmail, by simp [written, flagSet, modseqOf]⟩
    · refine .same (Eq.trans (Dir.items_changeLog_congr ?_ ?_ ?_ ?_) hitem)
      · rfl
      · simp [written]
      · exact (FlagUpdates.untouched_written d hother flags _).1
      · exact (FlagUpdates.untouched_written d hother flags _).2
  stays_gone := by
    intro other _ hnone
    rw [Dir.items_changeLog_eq_none] at hnone ⊢
    exact hnone

namespace Effect

variable {c : Command} {snapshot : Snapshot} {d d' : Dir}

/-- **Every command advances the log**, if new messages get new ids. -/
theorem advance (h : Effect c snapshot d d') (hknown : Known d snapshot) {used : Set Uuid}
    (hnew : ∀ id, c.newId = some id → id ∉ used ∧ d.mails.lookup id = none) :
    ChangeLog.Advance used d.changeLog d'.changeLog := by
  cases h with
  | nothing hd =>
    rw [hd]
    exact (Numbered.refl d).advance used
  | stored message _ flags hd =>
    rw [hd]
    exact advance_written d message.id flags used
  | removed messages hsub hexpunged =>
    exact hexpunged.advance (fun message hmessage ↦ hknown message (hsub hmessage)) used
  | added id hid mail hmails hfiles =>
    obtain ⟨hunused, habsent⟩ := hnew id hid
    have hsame : ∀ other ≠ id, d'.changeLog.items other = d.changeLog.items other := by
      intro other hother
      refine Dir.items_changeLog_congr ?_ (hfiles _ nofun) (hfiles _ (by simpa using hother))
        (hfiles _ nofun)
      rw [hmails, AList.lookup_insert_ne hother]
    refine ⟨?_, ?_, fun other item uid hitem hname ↦ .same ?_, fun other hused hnone ↦ ?_⟩
    · change (d.files .modseqctr).getD 1 ≤ (d'.files .modseqctr).getD 1
      rw [hfiles .modseqctr nofun]
    · change (d.files .vanished).getD [] ⊆ (d'.files .vanished).getD []
      rw [hfiles .vanished nofun]
      exact .refl _
    · rw [hsame other, hitem]
      rintro rfl
      rw [Dir.items_changeLog_eq_none.2 habsent] at hitem
      cases hitem
    · rw [hsame other, hnone]
      rintro rfl
      exact hunused hused

/-- A command takes one new count at most. -/
theorem modseqCounter_le (h : Effect c snapshot d d') :
    d'.modseqCounter ≤ d.modseqCounter + 1 := by
  cases h with
  | nothing hd => exact hd ▸ Nat.le_succ _
  | stored message _ flags hd => rw [hd, modseqCounter_written]
  | removed messages _ hexpunged => exact hexpunged.counter.le
  | added id _ mail _ hfiles =>
    rw [Dir.modseqCounter, hfiles .modseqctr nofun]
    exact Nat.le_succ _

theorem sound (h : Effect c snapshot d d') (hsound : Sound d)
    (hnew : ∀ id, c.newId = some id → d.mails.lookup id = none) : Sound d' := by
  cases h with
  | nothing hd => exact hd ▸ hsound
  | stored message _ flags hd =>
    rw [hd]
    refine hsound.of_counter_lt (by simp [written]) ?_ fun id ↦ ?_
    · rw [modseqCounter_written]
      exact Nat.lt_succ_self _
    · rw [modseqCounter_written]
      by_cases hid : id = message.id
      · subst hid
        simp [written, modseqOf]
      · rw [modseqOf, (FlagUpdates.untouched_written d hid flags _).2]
        exact (hsound.modseq_le id).trans (Nat.le_succ _)
  | removed messages hsub hexpunged =>
    have hindex : d'.files .index = d.files .index :=
      hexpunged.files _ (by simp) (by simp) fun _ _ ↦ ⟨(by simp), (by simp)⟩
    refine hsound.of_counter_lt hindex ?_ fun id ↦ ?_
    · rw [hexpunged.counter]
      exact Nat.lt_succ_self _
    · rw [modseqOf, hexpunged.files (.modseq id) (by simp) (by simp)
        fun _ _ ↦ ⟨(by simp), (by simp)⟩, hexpunged.counter]
      exact (hsound.modseq_le id).trans (Nat.le_succ _)
  | added id hid mail hmails hfiles =>
    have hkeys : id ∉ d.mails.keys := AList.lookup_eq_none.1 (hnew id hid)
    refine hsound.of_length_lt (hfiles _ (by simp)) ?_ ?_ fun other ↦ ?_
    · rw [Dir.modseqCounter, hfiles .modseqctr (by simp), Dir.modseqCounter]
    · rw [hmails, AList.keys_insert, List.erase_of_not_mem hkeys]
      exact Nat.lt_succ_self _
    · rw [modseqOf, hfiles (.modseq other) (by simp), modseqOf]

theorem lookup_eq_none (h : Effect c snapshot d d') {id : Uuid} (hid : c.newId ≠ some id)
    (hnone : d.mails.lookup id = none) : d'.mails.lookup id = none := by
  cases h with
  | nothing hd => rw [hd, hnone]
  | stored message _ flags hd =>
    rw [hd]
    exact hnone
  | removed messages _ hexpunged =>
    rw [hexpunged.lookup, hnone]
    exact ite_self none
  | added new hnew mail hmails _ =>
    rw [hmails, AList.lookup_insert_ne, hnone]
    rintro rfl
    exact hid hnew

/-- A message that the session does not show, and that is not the new one, is left alone. -/
theorem untouched (h : Effect c snapshot d d') {id : Uuid} (hid : c.newId ≠ some id)
    (hunshown : id ∉ snapshot.messages.map MessageRef.id) :
    d'.mails.lookup id = d.mails.lookup id ∧ d'.files (.modseq id) = d.files (.modseq id) := by
  cases h with
  | nothing hd =>
    rw [hd]
    exact ⟨rfl, rfl⟩
  | stored message hmessage flags hd =>
    have hne : id ≠ message.id := by
      rintro rfl
      exact hunshown (List.mem_map_of_mem hmessage)
    rw [hd]
    exact ⟨rfl, (FlagUpdates.untouched_written d hne flags _).2⟩
  | removed messages hsub hexpunged =>
    have hnot : id ∉ messages.map MessageRef.id := fun hmem ↦ hunshown (List.map_subset _ hsub hmem)
    refine ⟨?_, hexpunged.files (.modseq id) (by simp) (by simp) fun _ _ ↦ ⟨(by simp), (by simp)⟩⟩
    rw [hexpunged.lookup, if_neg hnot]
  | added new hnew mail hmails hfiles =>
    have hne : id ≠ new := by
      rintro rfl
      exact hid hnew
    refine ⟨?_, hfiles (.modseq id) (by simp)⟩
    rw [hmails, AList.lookup_insert_ne hne]

end Effect

end Epistle.Imap
