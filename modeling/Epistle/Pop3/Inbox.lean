import Epistle.Imap.Changes
import Epistle.Pop3.Session

/-!
# POP3 and IMAP on one INBOX

A POP3 session sees the message files that were in the INBOX when its client signed in. At `QUIT` it
removes the files of the marked messages and nothing else: it takes no new mod-sequence, it does not
log the UIDs as vanished and it does not move anything to the archive, all of which an IMAP expunge
does.

The IMAP side does not always notice. The stamp of the index consists of the mod-sequence counter
and the number of message files, so that a removal and a delivery cancel out. This section finds out
when nothing goes wrong (`consistent_iff`): a `QUIT` may remove messages that no open has shown yet,
as long as no retention window is configured. Then every message of the index is still there, and an
index with the right number of messages shows all of them.
-/

namespace Epistle.Imap

open TextFormat Interleaving

/-! ## The archive -/

/-- Calls that change the archive. -/
def Op.archives : Op → Bool
  | .archiveMark _ _ _ | .archiveFile _ | .archiveMail _ => true
  | _ => false

theorem Dir.archive_exec {o : Op} (d : Dir) (ho : o.archives = false) :
    (Dir.exec o d).2.archive = d.archive := by
  cases o with
  | rename k | publish id =>
    rw [Dir.exec]
    split <;> rfl
  | archiveMark id now mailbox | archiveFile k | archiveMail id => cases ho
  | _ => rfl

theorem Dir.archive_run {α : Type} {p : FileM α} (hp : p.Only fun o ↦ o.archives = false)
    (d : Dir) : (p.run Dir.exec d).2.archive = d.archive :=
  Prog.run_preserves Dir.exec (I := fun d' ↦ d'.archive = d.archive)
    (fun _ d' ho h ↦ (d'.archive_exec ho).trans h) hp rfl

theorem Dir.archive_opened (crypto : MessageCrypto) (clock : SystemTime) (d : Dir) :
    (d.opened crypto clock).2.archive = d.archive := by
  rw [Dir.opened]
  split
  · rfl
  · refine d.archive_run ((onlyUids_scanMailbox crypto).mono ?_)
    intro o ho
    cases o <;> first | rfl | cases ho

end Epistle.Imap

namespace Epistle.Pop3

open TextFormat Interleaving Imap

/-! ## The backend -/

/-- The message whose file has this name, without `.eml`. -/
def stemId (stem : Text) : Option Uuid := (Uuid.parseStr stem).filter fun id ↦ id.toText = stem

def readStem (stem : Text) : FileM (Option Bytes) :=
  match stemId stem with
  | some id => call (.readMail id)
  | none => pure none

/-- Read and decode messages. One that cannot be decoded is left out. -/
def loadMessages (crypto : MessageCrypto) : List Text → FileM (List (Text × Bytes))
  | [] => pure []
  | stem :: stems => do
    let stored ← readStem stem
    let rest ← loadMessages crypto stems
    match stored.bind crypto.decode with
    | some data => pure ((stem, data) :: rest)
    | none => pure rest

/-- The messages of the INBOX, sorted by their names. -/
def load (crypto : MessageCrypto) : FileM (List (Text × Bytes)) := do
  let entries : Option (List Uuid) ← call .readDir
  loadMessages crypto (((entries.getD []).map Uuid.toText).insertionSort (· ≤ ·))

/-- `fs::remove_file` of `<stem>.eml` -/
def removeStem (stem : Text) : FileM Unit :=
  match stemId stem with
  | some id => do
    let _ ← call (.removeMail id)
    pure ()
  | none => pure ()

def remove : List Text → FileM Unit
  | [] => pure ()
  | uid :: uids => do
    removeStem uid
    remove uids

theorem run_remove (uids : List Text) (d : Dir) : (remove uids).run Dir.exec d =
    ((), { d with mails := withoutMails d.mails (uids.filterMap stemId) }) := by
  induction uids generalizing d with
  | nil => rfl
  | cons uid uids ih =>
    rw [remove, Prog.run_bind, removeStem]
    cases hid : stemId uid with
    | none =>
      rw [List.filterMap_cons_none hid]
      exact ih d
    | some id =>
      rw [List.filterMap_cons_some hid]
      exact ih { d with mails := d.mails.erase id }

namespace Inbox

/-! ## Runs -/

/-- What the servers are started with, and whose INBOX it is. -/
structure Config where
  primitives : Smtp.Primitives
  verify : Text → Text → Option Text
  account : Text
  /-- `[storage] deleted_retention_days` -/
  retentionDays : ℕ

/-- The backend of a POP3 session of the account. -/
def backend (config : Config) (crypto : MessageCrypto) (d : Dir) : Backend where
  verify := fun user password ↦ (config.verify user password).filter (· = config.account)
  load := fun _ ↦ ((load crypto).run Dir.exec d).1

inductive Event
  | deliver (crypto : MessageCrypto) (id : Uuid) (nonce data : Bytes) (mtime : SystemTime)
      (flagTokens : List Text)
  /-- `Snapshot::open` -/
  | openMailbox (crypto : MessageCrypto) (now : ℕ) (clock : SystemTime)
  | pop3 (session : ℕ) (crypto : MessageCrypto) (command : Pop3.Command)

structure Removal where
  id : Uuid
  /-- The UIDs that earlier opens showed for it, each with the mod-sequence reported then. -/
  shown : List (ℕ × UInt32)

structure World where
  dir : Dir
  sessions : ℕ → Pop3.Session
  opened : List Snapshot
  /-- The ids that messages have been delivered under. -/
  used : List Uuid
  removals : List Removal

def World.start : World := ⟨.empty, fun _ ↦ .new, [], [], []⟩

def shownFor (opened : List Snapshot) (id : Uuid) : List (ℕ × UInt32) :=
  opened.flatMap fun snapshot ↦ (snapshot.messages.filter (·.id = id)).map fun message ↦
    (snapshot.highestModseq, message.uid)

variable {id : Uuid} {opened : List Snapshot} {d : Dir}

theorem shownFor_eq_nil :
    shownFor opened id = [] ↔ ∀ snapshot ∈ opened, id ∉ snapshot.ids := by
  simp only [shownFor, List.flatMap_eq_nil_iff, List.map_eq_nil_iff, List.filter_eq_nil_iff,
    decide_eq_true_iff, Snapshot.ids, List.mem_map, not_exists, not_and]

/-- The messages with these unique ids whose files are there. -/
def there (d : Dir) (uids : List Text) : List Uuid :=
  (uids.filterMap stemId).filter (· ∈ d.mails.keys)

/-- A session that has said goodbye is gone. -/
def afterwards (response : Response) (s : Pop3.Session) : Pop3.Session :=
  match response with
  | .bye _ => .new
  | _ => s

variable (config : Config)

/-- Commands are run one after the other. An id is generated for one message only. -/
def machine : Machine World Event where
  enabled := fun w e ↦
    match e with
    | .deliver _ id _ _ _ _ => id ∉ w.used
    | _ => True
  step := fun w e ↦
    match e with
    | .deliver crypto id nonce data mtime flagTokens =>
      { w with
        dir := ((deliverToAccount id ⟨crypto.encode nonce data, mtime⟩ flagTokens).run
          Dir.exec w.dir).2
        used := id :: w.used }
    | .openMailbox crypto now clock =>
      let r := (Snapshot.openAt crypto "INBOX".toList config.retentionDays now clock).run
        Dir.exec w.dir
      { w with dir := r.2, opened := r.1.toList ++ w.opened }
    | .pop3 s crypto command =>
      let r := (w.sessions s).handle config.primitives (backend config crypto w.dir) command
      let uids := r.2.1.elim [] Prod.snd
      { w with
        dir := ((remove uids).run Dir.exec w.dir).2
        sessions := Function.update w.sessions s (afterwards r.1 r.2.2)
        removals := (there w.dir uids).map (fun id ↦ ⟨id, shownFor w.opened id⟩) ++ w.removals }

instance (w : World) (e : Event) : Decidable ((machine config).enabled w e) :=
  match e with
  | .deliver _ id _ _ _ _ => inferInstanceAs (Decidable (id ∉ w.used))
  | .openMailbox _ _ _ | .pop3 _ _ _ => isTrue trivial

/-- IMAP knows about what POP3 has removed. -/
structure Consistent (w : World) : Prop where
  /-- An open lists exactly the messages whose files exist. -/
  lists : ∀ crypto now clock, ∃ snapshot d',
    (Snapshot.openAt crypto "INBOX".toList config.retentionDays now clock).run Dir.exec w.dir =
        (some snapshot, d') ∧
      snapshot.ids.Perm w.dir.mails.keys
  vanished : ∀ removal ∈ w.removals, ∀ entry ∈ removal.shown,
    entry.2 ∈ ((Vanished.since entry.1).run Dir.exec w.dir).1
  archived : 0 < config.retentionDays → ∀ removal ∈ w.removals,
    removal.id ∈ w.dir.archive.list.map ArchivedMessage.id

/-! ## When nothing goes wrong -/

def marked (s : Pop3.Session) : List Text :=
  if s.state = .transaction ∧ s.account.isSome then
    (s.messages.filter (·.deleted)).map Message.uid
  else []

/-- The messages whose files an event removes. -/
def leaving (w : World) : Event → List Uuid
  | .pop3 s _ .quit => there w.dir (marked (w.sessions s))
  | _ => []

/-- A `QUIT` that removes something removes messages that no open has shown, and there is no
retention window. -/
def Unnoticed (w : World) (e : Event) : Prop :=
  leaving w e = [] ∨
    config.retentionDays = 0 ∧ ∀ id ∈ leaving w e, ∀ snapshot ∈ w.opened, id ∉ snapshot.ids

instance (w : World) (e : Event) : Decidable (Unnoticed config w e) :=
  inferInstanceAs (Decidable (_ ∨ _))

theorem removed_withMessage (n : ℕ) (answer : Message → Response) (s : Pop3.Session) :
    (s.withMessage n answer).2.1 = none := by
  rw [Session.withMessage]
  split <;> rfl

theorem removed_authorization (p : Smtp.Primitives) (backend : Backend) (command : Pop3.Command)
    (s : Pop3.Session) : (s.authorization p backend command).2.1 = none := by
  cases command with
  | pass password =>
    rw [Session.authorization]
    split
    · rfl
    · rw [Session.login]
      split <;> rfl
  | auth mechanism initial =>
    rw [Session.authorization, Session.auth.eq_def]
    cases mechanism with
    | none => rfl
    | some mechanism =>
      dsimp only
      split
      · rfl
      · split <;> rfl
  | _ => rfl

theorem removed_transaction {command : Pop3.Command} (hcommand : command ≠ .quit)
    (s : Pop3.Session) : (s.transaction command).2.1 = none := by
  cases command with
  | quit => exact absurd rfl hcommand
  | dele n =>
    rw [Session.transaction]
    split <;> rfl
  | list n | uidl n =>
    cases n with
    | none => rfl
    | some n => exact removed_withMessage n _ s
  | retr n | top n lines => exact removed_withMessage n _ s
  | _ => rfl

/-- A session has messages removed at `QUIT` only, and then those it has marked. -/
theorem removed_handle (p : Smtp.Primitives) (backend : Backend) (command : Pop3.Command)
    (s : Pop3.Session) : (s.handle p backend command).2.1.elim [] Prod.snd =
      if command = .quit then marked s else [] := by
  rw [Session.handle]
  cases hstate : s.state with
  | authorization =>
    have hmarked : marked s = [] := if_neg fun h ↦ by simp [hstate] at h
    rw [removed_authorization, hmarked, ite_self, Option.elim_none]
  | transaction =>
    by_cases hcommand : command = .quit
    · subst hcommand
      rw [if_pos rfl, marked, Session.transaction]
      cases s.account with
      | none => simp
      | some account =>
        have hsigned : s.state = .transaction ∧ (some account).isSome := ⟨hstate, rfl⟩
        rw [if_pos hsigned]
        cases (s.messages.filter (·.deleted)).map Message.uid <;> rfl
    · rw [removed_transaction hcommand, if_neg hcommand, Option.elim_none]

/-! ### The index -/

/-- What an index stamped with `stamp` lists: as many messages as the stamp says, in order and as
they are on disk, and each of them has been shown. -/
structure Listed (opened : List Snapshot) (d : Dir) (stamp : ℕ × ℕ) (messages : List MessageRef) :
    Prop where
  count : stamp.1 ≤ d.modseqCounter
  length : stamp.2 = messages.length
  sorted : (messages.map MessageRef.id).Pairwise (· < ·)
  agrees : ∀ message ∈ messages, Agrees d message
  shown : ∀ message ∈ messages, ∃ snapshot ∈ opened, message.id ∈ snapshot.ids

theorem pairwise_sortIds (m : Mails) : (sortIds m.keys).Pairwise (· < ·) := by
  have hle : (sortIds m.keys).Pairwise (· ≤ ·) := List.pairwise_insertionSort _ _
  have hnodup : (sortIds m.keys).Nodup := (List.perm_insertionSort _ _).nodup_iff.2 m.nodupKeys
  exact (hle.and hnodup).imp fun h ↦ lt_of_le_of_ne h.1 h.2

/-- An index whose messages are all there is sound: if it has the right number of messages, it has
all of them. -/
theorem sound_of_listed (hone : 1 ≤ d.modseqCounter)
    (hmodseq : ∀ id, FlagUpdates.modseqOf d id ≤ d.modseqCounter)
    (hlisted : ∀ text, d.files .index = some text → ∀ stamp messages,
      Index.parse text stamp = some messages → Listed opened d stamp messages)
    (hpresent : ∀ snapshot ∈ opened, ∀ id ∈ snapshot.ids, id ∈ d.mails.keys) : Sound d := by
  have hsubperm : ∀ {stamp messages}, Listed opened d stamp messages →
      (messages.map MessageRef.id).Subperm d.mails.keys := by
    intro stamp messages h
    refine List.subperm_of_subset (h.sorted.imp fun hlt ↦ hlt.ne) fun id hid ↦ ?_
    obtain ⟨message, hmessage, rfl⟩ := List.mem_map.1 hid
    obtain ⟨snapshot, hsnapshot, hshown⟩ := h.shown message hmessage
    exact hpresent snapshot hsnapshot _ hshown
  refine ⟨hone, hmodseq, fun text htext stamp messages hparse ↦ ?_,
    fun text htext stamp messages hparse _ ↦ ?_, fun text htext stamp messages hparse hstamp ↦ ?_⟩
  · exact (hlisted text htext stamp messages hparse).count
  · have h := hlisted text htext stamp messages hparse
    rw [h.length]
    simpa using (hsubperm h).length_le
  · have h := hlisted text htext stamp messages hparse
    have hlength : d.mails.keys.length ≤ (messages.map MessageRef.id).length := by
      rw [List.length_map, ← h.length, hstamp]
    have hperm := (hsubperm h).perm_of_length_le hlength
    refine ⟨?_, h.agrees⟩
    exact (hperm.trans (List.perm_insertionSort _ _).symm).eq_of_pairwise'
      (h.sorted.imp le_of_lt) ((pairwise_sortIds d.mails).imp le_of_lt)

/-! ### What a run keeps -/

/-- What a command of POP3 does to the INBOX: the files of some messages are gone. -/
structure Dropped (ids : List Uuid) (w w' : World) : Prop where
  lookup : ∀ id, w'.dir.mails.lookup id = if id ∈ ids then none else w.dir.mails.lookup id
  files : w'.dir.files = w.dir.files
  archive : w'.dir.archive = w.dir.archive
  opened : w'.opened = w.opened
  used : w'.used = w.used
  removals : w'.removals = ids.map (fun id ↦ ⟨id, shownFor w.opened id⟩) ++ w.removals

theorem mem_there {uids : List Text} :
    id ∈ there d uids ↔ id ∈ uids.filterMap stemId ∧ (d.mails.lookup id).isSome := by
  rw [there, List.mem_filter, decide_eq_true_iff, ← AList.lookup_isSome.trans AList.mem_keys]

section

variable (w : World) (s : ℕ) (crypto : MessageCrypto) (command : Pop3.Command)

theorem there_step :
    there w.dir (((w.sessions s).handle config.primitives (backend config crypto w.dir)
      command).2.1.elim [] Prod.snd) = leaving w (.pop3 s crypto command) := by
  rw [removed_handle]
  by_cases hcommand : command = .quit
  · subst hcommand
    rfl
  · cases command with
    | quit => exact absurd rfl hcommand
    | _ => rfl

theorem dropped_step :
    Dropped (leaving w (.pop3 s crypto command)) w
      ((machine config).step w (.pop3 s crypto command)) := by
  have hthere := there_step config w s crypto command
  rw [← hthere]
  have hrun := fun uids ↦ run_remove uids w.dir
  simp only [machine, hrun]
  refine ⟨fun id ↦ ?_, rfl, rfl, rfl, rfl, rfl⟩
  rw [lookup_withoutMails]
  simp only [mem_there]
  cases w.dir.mails.lookup id <;> simp

end

/-- All messages that have been shown are still there, and those that are removed had not been
shown. -/
structure Inv (w : World) : Prop where
  one_le : 1 ≤ w.dir.modseqCounter
  modseq_le : ∀ id, FlagUpdates.modseqOf w.dir id ≤ w.dir.modseqCounter
  listed : ∀ text, w.dir.files .index = some text → ∀ stamp messages,
    Index.parse text stamp = some messages → Listed w.opened w.dir stamp messages
  present : ∀ snapshot ∈ w.opened, ∀ id ∈ snapshot.ids, id ∈ w.dir.mails.keys
  vanished : w.dir.files .vanished = none
  archive : w.dir.archive = Dir.empty.archive
  unused : ∀ id ∉ w.used, w.dir.mails.lookup id = none
  unshown : ∀ removal ∈ w.removals, removal.shown = []
  unretained : 0 < config.retentionDays → w.removals = []

variable {config}

theorem inv_start : Inv config .start where
  one_le := le_rfl
  modseq_le := fun _ ↦ le_rfl
  listed := fun _ h ↦ by cases h
  present := fun _ h ↦ by cases h
  vanished := rfl
  archive := rfl
  unused := fun _ _ ↦ rfl
  unshown := fun _ h ↦ by cases h
  unretained := fun _ ↦ rfl

namespace Inv

variable {w : World}

section

variable (h : Inv config w)
include h

theorem sound : Sound w.dir :=
  sound_of_listed h.one_le h.modseq_le h.listed h.present

theorem consistent : Consistent config w where
  lists := by
    intro crypto now clock
    obtain ⟨snapshot, d', hrun, hopened, -⟩ :=
      h.sound.openAt crypto "INBOX".toList config.retentionDays now clock
    refine ⟨snapshot, d', hrun, ?_⟩
    rw [Snapshot.ids, hopened.current.ids, hopened.numbered.mails]
    exact List.perm_insertionSort _ _
  vanished := by
    intro removal hremoval entry hentry
    rw [h.unshown removal hremoval] at hentry
    cases hentry
  archived := by
    intro hdays removal hremoval
    rw [h.unretained hdays] at hremoval
    cases hremoval

theorem deliver (crypto : MessageCrypto) {id : Uuid} (hid : id ∉ w.used) (nonce data : Bytes)
    (mtime : SystemTime) (flagTokens : List Text) :
    Inv config ((machine config).step w (.deliver crypto id nonce data mtime flagTokens)) := by
  obtain ⟨hmails, hfiles, harchive⟩ :=
    added_deliverToAccount id ⟨crypto.encode nonce data, mtime⟩ flagTokens w.dir
  change Inv config { w with dir := _, used := id :: w.used }
  generalize ((deliverToAccount id ⟨crypto.encode nonce data, mtime⟩ flagTokens).run
    Dir.exec w.dir).2 = d' at hmails hfiles harchive ⊢
  have hcounter : d'.modseqCounter = w.dir.modseqCounter := by
    rw [Dir.modseqCounter, hfiles .modseqctr (by simp), Dir.modseqCounter]
  have hmodseqOf : ∀ other, FlagUpdates.modseqOf d' other = FlagUpdates.modseqOf w.dir other := by
    intro other
    rw [FlagUpdates.modseqOf, hfiles (.modseq other) (by simp), FlagUpdates.modseqOf]
  have hpresent : ∀ snapshot ∈ w.opened, ∀ other ∈ snapshot.ids, other ∈ d'.mails.keys := by
    intro snapshot hsnapshot other hother
    rw [hmails, ← AList.mem_keys, AList.mem_insert]
    exact .inr (AList.mem_keys.2 (h.present snapshot hsnapshot other hother))
  have hlisted : ∀ stamp messages, Listed w.opened w.dir stamp messages →
      Listed w.opened d' stamp messages := by
    intro stamp messages hlisted
    refine ⟨hcounter ▸ hlisted.count, hlisted.length, hlisted.sorted, fun message hmessage ↦ ?_,
      hlisted.shown⟩
    obtain ⟨snapshot, hsnapshot, hshown⟩ := hlisted.shown message hmessage
    have hne : message.id ≠ id := by
      intro heq
      have hmem := h.present snapshot hsnapshot _ hshown
      rw [heq] at hmem
      exact AList.lookup_eq_none.1 (h.unused id hid) hmem
    obtain ⟨huid, hflags, hmodseq⟩ := hlisted.agrees message hmessage
    refine ⟨?_, ?_, (hmodseqOf _).trans hmodseq⟩
    · rw [hfiles (.uid message.id) (by simp), huid]
    · rw [hfiles (.flags message.id) (by simpa using hne), hflags]
  refine ⟨hcounter ▸ h.one_le, fun other ↦ ?_, fun text htext stamp messages hparse ↦ ?_, hpresent,
    ?_, harchive.trans h.archive, fun other hother ↦ ?_, h.unshown, h.unretained⟩
  · rw [hmodseqOf, hcounter]
    exact h.modseq_le other
  · rw [hfiles .index (by simp)] at htext
    exact hlisted _ _ (h.listed text htext stamp messages hparse)
  · rw [hfiles .vanished (by simp), h.vanished]
  · rw [hmails, AList.lookup_insert_ne (List.ne_of_not_mem_cons hother)]
    exact h.unused other (List.not_mem_of_not_mem_cons hother)

/-- An open shows the messages, and leaves an index behind that lists messages it has shown. -/
theorem openMailbox (crypto : MessageCrypto) (now : ℕ) (clock : SystemTime) :
    Inv config ((machine config).step w (.openMailbox crypto now clock)) := by
  obtain ⟨snapshot, hrun, -, hmessages, -⟩ :=
    run_openAt crypto "INBOX".toList config.retentionDays now clock w.dir
  have hopened := h.sound.opened crypto clock
  obtain ⟨hnumbered, hindex⟩ := opened_cases crypto clock w.dir
  have harchive := w.dir.archive_opened crypto clock
  have hstep : (machine config).step w (.openMailbox crypto now clock) =
      { w with dir := (w.dir.opened crypto clock).2, opened := snapshot :: w.opened } := by
    simp only [machine, hrun]
    rfl
  rw [hstep]
  rw [← hmessages] at hopened hindex
  generalize (w.dir.opened crypto clock).2 = d' at hopened hnumbered hindex harchive ⊢
  have hkeep : ∀ stamp messages, Listed w.opened w.dir stamp messages →
      Listed (snapshot :: w.opened) d' stamp messages := by
    intro stamp messages hlisted
    refine ⟨hnumbered.modseqCounter ▸ hlisted.count, hlisted.length, hlisted.sorted,
      fun message hmessage ↦ (hlisted.agrees message hmessage).numbered hnumbered,
      fun message hmessage ↦ ?_⟩
    obtain ⟨shown, hshown, hmem⟩ := hlisted.shown message hmessage
    exact ⟨shown, List.mem_cons_of_mem _ hshown, hmem⟩
  refine ⟨hopened.sound.one_le, hopened.sound.modseq_le, fun text htext stamp messages hparse ↦ ?_,
    fun shown hshown id hid ↦ ?_, ?_, harchive.trans h.archive, fun id hid ↦ ?_, h.unshown,
    h.unretained⟩
  · rcases hindex with ⟨old, hold, -, hindex⟩ | ⟨hcurrent, hindex⟩
    · obtain rfl := Option.some.inj (hindex.symm.trans htext)
      exact hkeep _ _ (h.listed old hold stamp messages hparse)
    · -- the index that this open has written
      obtain rfl := Option.some.inj (hindex.symm.trans htext)
      rw [Index.parse_render] at hparse
      split at hparse
      next hstamp =>
        obtain rfl := Option.some.inj hparse
        have hclamped := hcurrent.clamp
        refine ⟨?_, ?_, ?_, hclamped.agrees, fun message hmessage ↦ ?_⟩
        · rw [← hstamp.1, h.sound.generation, hnumbered.modseqCounter]
        · rw [List.length_map, hstamp.2, hstamp.1]
        · rw [hclamped.ids]
          exact pairwise_sortIds _
        · refine ⟨snapshot, List.mem_cons_self, ?_⟩
          rw [Snapshot.ids, hcurrent.ids, ← hclamped.ids]
          exact List.mem_map_of_mem hmessage
      next => cases hparse
  · rcases List.mem_cons.1 hshown with rfl | hshown
    · rw [Snapshot.ids, hopened.current.ids] at hid
      exact (List.mem_insertionSort _).1 hid
    · rw [hnumbered.mails]
      exact h.present shown hshown id hid
  · rw [hnumbered.files .vanished (by simp) (by simp) (by simp) (by simp), h.vanished]
  · rw [hnumbered.mails, h.unused id hid]

variable {ids : List Uuid} {w' : World}

/-- Removing messages that have not been shown leaves the index as right as it was. -/
theorem dropped (hdropped : Dropped ids w w') (hids : ids = [] ∨
    config.retentionDays = 0 ∧ ∀ id ∈ ids, ∀ snapshot ∈ w.opened, id ∉ snapshot.ids) :
    Inv config w' := by
  have hunshown : ∀ id ∈ ids, ∀ snapshot ∈ w.opened, id ∉ snapshot.ids := by
    intro id hid
    rcases hids with rfl | ⟨-, hunshown⟩
    · cases hid
    · exact hunshown id hid
  have hcounter : w'.dir.modseqCounter = w.dir.modseqCounter := by
    rw [Dir.modseqCounter, hdropped.files, Dir.modseqCounter]
  have hmodseqOf : ∀ id, FlagUpdates.modseqOf w'.dir id = FlagUpdates.modseqOf w.dir id := by
    intro id
    rw [FlagUpdates.modseqOf, hdropped.files, FlagUpdates.modseqOf]
  refine ⟨hcounter ▸ h.one_le, fun id ↦ ?_, fun text htext stamp messages hparse ↦ ?_,
    fun snapshot hsnapshot id hid ↦ ?_, ?_, hdropped.archive.trans h.archive, fun id hid ↦ ?_,
    fun removal hremoval ↦ ?_, fun hdays ↦ ?_⟩
  · rw [hmodseqOf, hcounter]
    exact h.modseq_le id
  · rw [hdropped.files] at htext
    have hlisted := h.listed text htext stamp messages hparse
    rw [hdropped.opened]
    refine ⟨hcounter ▸ hlisted.count, hlisted.length, hlisted.sorted, fun message hmessage ↦ ?_,
      hlisted.shown⟩
    obtain ⟨huid, hflags, hmodseq⟩ := hlisted.agrees message hmessage
    exact ⟨hdropped.files ▸ huid, hdropped.files ▸ hflags, (hmodseqOf _).trans hmodseq⟩
  · rw [hdropped.opened] at hsnapshot
    rw [← AList.mem_keys, ← AList.lookup_isSome, hdropped.lookup,
      if_neg fun hleaving ↦ hunshown id hleaving snapshot hsnapshot hid, AList.lookup_isSome,
      AList.mem_keys]
    exact h.present snapshot hsnapshot id hid
  · rw [hdropped.files, h.vanished]
  · rw [hdropped.used] at hid
    rw [hdropped.lookup, h.unused id hid, ite_self]
  · rw [hdropped.removals] at hremoval
    rcases List.mem_append.1 hremoval with hnew | hold
    · obtain ⟨id, hid, rfl⟩ := List.mem_map.1 hnew
      exact shownFor_eq_nil.2 (hunshown id hid)
    · exact h.unshown removal hold
  · rw [hdropped.removals, h.unretained hdays]
    rcases hids with rfl | ⟨hzero, -⟩
    · rfl
    · omega

/-- A `QUIT` that removes what it must not leaves traces of it nowhere. -/
theorem unnoticed_of_consistent (hdropped : Dropped ids w w') (hconsistent : Consistent config w') :
    ids = [] ∨ config.retentionDays = 0 ∧
      ∀ id ∈ ids, ∀ snapshot ∈ w.opened, id ∉ snapshot.ids := by
  have hmem : ∀ id ∈ ids, (⟨id, shownFor w.opened id⟩ : Removal) ∈ w'.removals := by
    intro id hid
    rw [hdropped.removals]
    exact List.mem_append_left _ (List.mem_map_of_mem hid)
  by_cases hnil : ids = []
  · exact .inl hnil
  · refine .inr ⟨?_, fun id hid ↦ shownFor_eq_nil.1 ?_⟩
    · by_contra hdays
      obtain ⟨id, hid⟩ := List.exists_mem_of_ne_nil ids hnil
      have hlisted := hconsistent.archived (Nat.pos_of_ne_zero hdays) _ (hmem id hid)
      rw [hdropped.archive, h.archive] at hlisted
      cases hlisted
    · refine List.eq_nil_iff_forall_not_mem.2 fun entry hentry ↦ ?_
      have hvanished := hconsistent.vanished _ (hmem id hid) entry hentry
      have hlog : w'.dir.files .vanished = none := by rw [hdropped.files, h.vanished]
      have hsince : ((Vanished.since entry.1).run Dir.exec w'.dir).1 = [] := by
        simp [Vanished.since, Dir.exec, hlog]
      rw [hsince] at hvanished
      cases hvanished

theorem consistent_step_iff {e : Event} (henabled : (machine config).enabled w e) :
    (Unnoticed config w e → Inv config ((machine config).step w e)) ∧
      (Consistent config ((machine config).step w e) → Unnoticed config w e) := by
  cases e with
  | deliver crypto id nonce data mtime flagTokens =>
    exact ⟨fun _ ↦ h.deliver crypto henabled nonce data mtime flagTokens, fun _ ↦ .inl rfl⟩
  | openMailbox crypto now clock =>
    exact ⟨fun _ ↦ h.openMailbox crypto now clock, fun _ ↦ .inl rfl⟩
  | pop3 s crypto command =>
    have hdropped := dropped_step config w s crypto command
    exact ⟨h.dropped hdropped, h.unnoticed_of_consistent hdropped⟩

end

end Inv

/-- **When POP3 and IMAP agree.** In a run whose `QUIT`s remove only messages that no open has
shown, and none at all if there is a retention window, an open lists exactly the messages whose
files exist, every UID that has been shown for a removed message is among the vanished ones, and
with a retention window every removed message is in the archive. A step that is not so breaks
this. -/
theorem consistent_iff {w : World}
    (hreach : (machine config).Reach (Unnoticed config) .start w) :
    Consistent config w ∧ ∀ e, (machine config).enabled w e →
      (Consistent config ((machine config).step w e) ↔ Unnoticed config w e) := by
  have hinv : Inv config w := hreach.invariant (I := Inv config) inv_start
    fun w e h henabled hunnoticed ↦ (h.consistent_step_iff henabled).1 hunnoticed
  refine ⟨hinv.consistent, fun e henabled ↦ ⟨(hinv.consistent_step_iff henabled).2, fun h ↦ ?_⟩⟩
  exact ((hinv.consistent_step_iff henabled).1 h).consistent

/-- One account, whose password is `pass`. -/
def anna (retentionDays : ℕ) : Config where
  primitives := .plain
  verify := fun user password ↦ if password = "pass".toList then some user else none
  account := "anna".toList
  retentionDays := retentionDays

def removing (number : ℕ) : List Event :=
  [.user "anna".toList, .pass "pass".toList, .dele number, .quit].map (.pop3 0 .disabled)

/-- A second message arrives after an open, and POP3 removes it. -/
def unseen : List Event :=
  [.deliver .disabled (.ofNat 1) [] [65] ⟨1, 0⟩ [], .openMailbox .disabled 0 ⟨1, 0⟩,
    .deliver .disabled (.ofNat 2) [] [66] ⟨2, 0⟩ []] ++ removing 2

theorem consistent_unseen :
    (unseen.foldl (machine (anna 0)).step .start).removals.map Removal.id = [.ofNat 2] ∧
      Consistent (anna 0) (unseen.foldl (machine (anna 0)).step .start) :=
  ⟨by decide +kernel, (consistent_iff (.of_passes (by decide +kernel))).1⟩

/-- A message is shown, removed by POP3, and another one is delivered. -/
def replaced : List Event :=
  [.deliver .disabled (.ofNat 1) [] [65] ⟨1, 0⟩ [], .openMailbox .disabled 0 ⟨1, 0⟩] ++
    removing 1 ++ [.deliver .disabled (.ofNat 2) [] [66] ⟨2, 0⟩ []]

/-- The open that follows shows the message that is gone and not the one that has arrived. The UID
is not among the vanished ones, and with a retention window the archive is empty. -/
theorem replaced_unnoticed :
    (machine (anna 30)).Reach (fun _ _ ↦ True) .start
        (replaced.foldl (machine (anna 30)).step .start) ∧
      (replaced.foldl (machine (anna 30)).step .start).dir.mails.keys = [.ofNat 2] ∧
      ((Snapshot.openAt .disabled "INBOX".toList 30 0 ⟨3, 0⟩).run Dir.exec
        (replaced.foldl (machine (anna 30)).step .start).dir).1.map Snapshot.ids =
          some [.ofNat 1] ∧
      (replaced.foldl (machine (anna 30)).step .start).removals.map Removal.shown = [[(1, 1)]] ∧
      ((Vanished.since 1).run Dir.exec
        (replaced.foldl (machine (anna 30)).step .start).dir).1 = [] ∧
      (replaced.foldl (machine (anna 30)).step .start).dir.archive.list = [] ∧
      ¬ Consistent (anna 30) (replaced.foldl (machine (anna 30)).step .start) := by
  have hkeys : (replaced.foldl (machine (anna 30)).step .start).dir.mails.keys = [.ofNat 2] := by
    decide
  have hids : ((Snapshot.openAt .disabled "INBOX".toList 30 0 ⟨3, 0⟩).run Dir.exec
      (replaced.foldl (machine (anna 30)).step .start).dir).1.map Snapshot.ids =
        some [.ofNat 1] := by decide
  refine ⟨.of_passes (by decide), hkeys, hids, by decide,
    by decide, by decide, fun h ↦ ?_⟩
  obtain ⟨snapshot, d', hrun, hperm⟩ := h.lists .disabled 0 ⟨3, 0⟩
  change (Snapshot.openAt .disabled "INBOX".toList 30 0 ⟨3, 0⟩).run Dir.exec _ = _ at hrun
  rw [hrun, Option.map_some, Option.some.injEq] at hids
  rw [hids, hkeys] at hperm
  exact absurd (List.singleton_perm_singleton.1 hperm) (by decide)

end Inbox

end Epistle.Pop3
