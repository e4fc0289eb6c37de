import Epistle.Imap.Opening
import Epistle.Interleaving.Machine

/-!
# What a mailbox name, a UIDVALIDITY and a UID denote

A client remembers a message by the name of its mailbox, the mailbox's UIDVALIDITY and the message's
UID. The directory of a mailbox keeps the two numbers, so both start again when a mailbox is deleted
and created anew, and both move along when it is renamed.

Within one directory a UID is given to one message (`Consistent`), and an open keeps that so
(`Consistent.opened`). Across directories everything rests on the UIDVALIDITY, which is the clock's
second of the first open, forced odd. `Distinct` is the condition under which a name and a
UIDVALIDITY never come back for another directory; under it a triple denotes one message
(`triple_denotes_one_message`).
-/

namespace Epistle.Imap

open TextFormat Interleaving
open Prog (run_bind op_bind run_call)

namespace MailboxTriples

open Snapshot (pairs)

/-! ## The UIDs of one directory -/

/-- Every message with a UID has its own, and none is above the counter. -/
structure Numbering (files : Files) (counter : UInt32) : Prop where
  injective : ∀ id id' uid, files (.uid id) = some uid → files (.uid id') = some uid → id = id'
  bounded : ∀ id uid, files (.uid id) = some uid → uid ≤ counter

/-- The second directory has a UID for every message the first one has, the same one. -/
def Keeps (files files' : Files) : Prop :=
  ∀ id uid, files (.uid id) = some uid → files' (.uid id) = some uid

theorem Keeps.refl (files : Files) : Keeps files files := fun _ _ h ↦ h

variable {files files' files'' : Files} {counter : UInt32} {d : Dir} {a : Account} {path : Path}

theorem Keeps.trans (h : Keeps files files') (h' : Keeps files' files'') : Keeps files files'' :=
  fun id uid hid ↦ h' id uid (h id uid hid)

/-- The messages, each with its UID, are those of the directory. -/
def Records (files : Files) (shown : List (UInt32 × Uuid)) : Prop :=
  ∀ p ∈ shown, files (.uid p.2) = some p.1

variable {shown : List (UInt32 × Uuid)} {ids : List Uuid} {a' : Account}

theorem Records.keeps (h : Records files shown)
    (hkeeps : Keeps files files') : Records files' shown :=
  fun p hp ↦ hkeeps _ _ (h p hp)

def SameUids (files files' : Files) : Prop := ∀ id, files' (.uid id) = files (.uid id)

theorem sameUids_update (files : Files) {k : Sidecar} (hk : ∀ id, k ≠ .uid id)
    (c : Option (Content k)) : SameUids files (Function.update files k c) :=
  fun id ↦ Function.update_of_ne (hk id).symm _ _

section

variable (h : SameUids files files')
include h

theorem SameUids.trans (h' : SameUids files' files'') : SameUids files files'' :=
  fun id ↦ (h' id).trans (h id)

theorem SameUids.keeps : Keeps files files' :=
  fun id _ hid ↦ (h id).trans hid

theorem SameUids.numbering (hn : Numbering files counter) : Numbering files' counter where
  injective := fun id id' uid hid hid' ↦
    hn.injective id id' uid ((h id).symm.trans hid) ((h id').symm.trans hid')
  bounded := fun id uid hid ↦ hn.bounded id uid ((h id).symm.trans hid)

end

/-- How many of the messages have no UID yet. -/
def unassigned (files : Files) (ids : List Uuid) : ℕ :=
  ids.countP fun id ↦ (files (.uid id)).isNone

theorem unassigned_le_of_keeps (h : Keeps files files') (ids : List Uuid) :
    unassigned files' ids ≤ unassigned files ids := by
  refine List.countP_mono_left fun id _ hnone ↦ ?_
  rw [Option.isNone_iff_eq_none] at hnone ⊢
  cases hid : files (.uid id) with
  | none => rfl
  | some uid =>
    rw [h id uid hid] at hnone
    cases hnone

/-- What a scan has done so far, from one counter to another: it has numbered messages, and changed
nothing else. -/
structure Scanned (d : Dir) (counter : UInt32) (d' : Dir) (counter' : UInt32)
    (shown : List (UInt32 × Uuid)) : Prop where
  numbering : Numbering d'.files counter'
  keeps : Keeps d.files d'.files
  records : Records d'.files shown
  le : counter ≤ counter'
  others : ∀ k, (∀ id, k ≠ .uid id) → d'.files k = d.files k

theorem Scanned.trans {d' d'' : Dir} {counter' counter'' : UInt32}
    {shown' : List (UInt32 × Uuid)} (h : Scanned d counter d' counter' shown)
    (h' : Scanned d' counter' d'' counter'' shown') :
    Scanned d counter d'' counter'' (shown ++ shown') where
  numbering := h'.numbering
  keeps := h.keeps.trans h'.keeps
  records := by
    intro p hp
    rcases List.mem_append.1 hp with hp | hp
    · exact h.records.keeps h'.keeps p hp
    · exact h'.records p hp
  le := UInt32.le_trans h.le h'.le
  others := fun k hk ↦ (h'.others k hk).trans (h.others k hk)

theorem scanned_assignOrRead (h : Numbering d.files counter) {id : Uuid}
    (hroom : counter.toNat + unassigned d.files (id :: ids) < 2 ^ 32) :
    ∃ uid counter' d', (Uid.assignOrRead id counter).run Dir.exec d = ((uid, counter'), d') ∧
      Scanned d counter d' counter' [(uid, id)] ∧
      counter'.toNat + unassigned d'.files ids < 2 ^ 32 := by
  rw [Uid.assignOrRead, Uid.readMessage, op_bind, run_call]
  dsimp only [Dir.exec]
  cases hid : d.files (.uid id) with
  | some uid =>
    refine ⟨uid, counter, d, rfl, ⟨h, .refl _, ?_, UInt32.le_refl _, fun _ _ ↦ rfl⟩, ?_⟩
    · intro p hp
      obtain rfl := List.mem_singleton.1 hp
      exact hid
    · have hcons : unassigned d.files (id :: ids) = unassigned d.files ids := by
        simp [unassigned, hid]
      omega
  | none =>
    have hcons : unassigned d.files (id :: ids) = unassigned d.files ids + 1 := by
      simp [unassigned, hid]
    have hnext : (counter + 1).toNat = counter.toNat + 1 := by
      rw [UInt32.toNat_add, UInt32.toNat_one, Nat.mod_eq_of_lt (by omega)]
    have hlt : counter < counter + 1 := by
      rw [UInt32.lt_iff_toNat_lt, hnext]
      exact Nat.lt_succ_self _
    dsimp only
    rw [run_bind, Uid.writeMessage, run_replaceFile]
    have hfile : ∀ other,
      (Function.update d.files (.uid id) (some (counter + 1)) : Files) (.uid other) =
        if other = id then some (counter + 1) else d.files (.uid other) := by
      intro other
      by_cases hother : other = id
      · subst hother
        rw [if_pos rfl, Function.update_self]
      · rw [if_neg hother, Function.update_of_ne (by simpa using hother)]
    have hkeeps : Keeps d.files (Function.update d.files (.uid id) (some (counter + 1))) := by
      intro other uid hother
      rw [hfile, if_neg, hother]
      rintro rfl
      rw [hid] at hother
      cases hother
    refine ⟨_, _, _, rfl, ⟨⟨?_, ?_⟩, hkeeps, ?_, UInt32.le_of_lt hlt, ?_⟩, ?_⟩
    · -- the new UID is above all others
      intro i j uid hi hj
      rw [Dir.setFile_files, Dir.setTemp_files, hfile] at hi hj
      split at hi <;> split at hj
      next hi' hj' => rw [hi', hj']
      next hi' _ =>
        obtain rfl := Option.some.inj hi
        exact absurd (h.bounded j _ hj) (UInt32.not_le.2 hlt)
      next _ hj' =>
        obtain rfl := Option.some.inj hj
        exact absurd (h.bounded i _ hi) (UInt32.not_le.2 hlt)
      next => exact h.injective i j uid hi hj
    · intro i uid hi
      rw [Dir.setFile_files, Dir.setTemp_files, hfile] at hi
      split at hi
      · obtain rfl := Option.some.inj hi
        exact UInt32.le_refl _
      · exact UInt32.le_trans (h.bounded i uid hi) (UInt32.le_of_lt hlt)
    · intro p hp
      obtain rfl := List.mem_singleton.1 hp
      rw [Dir.setFile_files, Dir.setTemp_files, hfile, if_pos rfl]
    · intro k hk
      rw [Dir.setFile_files, Dir.setTemp_files, Function.update_of_ne (hk id)]
    · have hle := unassigned_le_of_keeps hkeeps ids
      rw [Dir.setFile_files, Dir.setTemp_files]
      omega

theorem scanned_scanMessages (crypto : MessageCrypto)
    (h : Numbering d.files counter) (hroom : counter.toNat + unassigned d.files ids < 2 ^ 32) :
    ∃ messages counter' d', (scanMessages crypto ids counter).run Dir.exec d =
        ((messages, counter'), d') ∧ Scanned d counter d' counter' (pairs messages) := by
  induction ids generalizing d counter with
  | nil =>
    exact ⟨[], counter, d, rfl, h, .refl _, fun p hp ↦ absurd hp List.not_mem_nil, UInt32.le_refl _,
      fun _ _ ↦ rfl⟩
  | cons id ids ih =>
    obtain ⟨uid, counter₁, d₁, hassign, hfirst, hroom₁⟩ := scanned_assignOrRead h hroom
    obtain ⟨messages, counter₂, d₂, hrest, hscanned⟩ := ih hfirst.numbering hroom₁
    rw [scanMessages, run_bind, run_scanMessage_of_assigned hassign]
    dsimp only
    rw [run_bind, hrest]
    exact ⟨_, _, _, rfl, hfirst.trans hscanned⟩

def counterOf (files : Files) : UInt32 := (files .uidnext).getD 0

/-- The counter does not wrap around when the messages without a UID get one. -/
def HasRoom (d : Dir) : Prop :=
  (counterOf d.files).toNat + unassigned d.files d.mails.keys < 2 ^ 32

instance (d : Dir) : Decidable (HasRoom d) := Nat.decLt _ _

/-- A scan numbers the messages that have no UID and brings the counter up to date. -/
theorem run_scanMailbox (crypto : MessageCrypto)
    (h : Numbering d.files (counterOf d.files)) (hroom : HasRoom d) :
    ∃ messages d', (scanMailbox crypto).run Dir.exec d = (some messages, d') ∧
      Numbering d'.files (counterOf d'.files) ∧ Keeps d.files d'.files ∧
      Records d'.files (pairs messages) := by
  have hroom' : (counterOf d.files).toNat + unassigned d.files (sortIds d.mails.keys) < 2 ^ 32 := by
    rw [unassigned, sortIds, (List.perm_insertionSort _ _).countP_eq]
    exact hroom
  obtain ⟨messages, counter, d₁, hrun, hscanned⟩ := scanned_scanMessages crypto h hroom'
  have hnext : counterOf d₁.files = counterOf d.files := by
    rw [counterOf, hscanned.others .uidnext (by simp), counterOf]
  rw [run_scanMailbox_of_scanned hrun]
  split
  · have hsame := sameUids_update d₁.files (k := .uidnext) (by simp) (some counter)
    refine ⟨messages, _, rfl, ?_, hscanned.keeps.trans hsame.keeps,
      hscanned.records.keeps hsame.keeps⟩
    rw [counterOf, Dir.setFile_files, Function.update_self]
    exact hsame.numbering hscanned.numbering
  next hle =>
    -- no UID was assigned, and the counter is as it was
    have heq : counter = counterOf d₁.files := by
      rw [hnext]
      exact UInt32.le_antisymm (UInt32.not_lt.1 hle) hscanned.le
    exact ⟨messages, d₁, rfl, heq ▸ hscanned.numbering, hscanned.keeps, hscanned.records⟩

/-- What the files of a mailbox say about UIDs is consistent: it is a numbering, and the index
agrees with it. -/
structure Consistent (files : Files) : Prop where
  numbering : Numbering files (counterOf files)
  indexed : ∀ text, files .index = some text → ∀ generation messages,
    Index.parse text generation = some messages → Records files (pairs messages)

/-- The files that say something about UIDs. -/
def isRecord : Sidecar → Bool
  | .uid _ | .uidnext | .index | .uidvalidity => true
  | _ => false

/-- Two directories have the same files about UIDs. -/
def SameRecord (files files' : Files) : Prop := ∀ k, isRecord k = true → files' k = files k

theorem SameRecord.refl (files : Files) : SameRecord files files := fun _ _ ↦ rfl

theorem Consistent.congr (h : Consistent files)
    (hsame : SameRecord files files') : Consistent files' := by
  have huids : SameUids files files' := fun id ↦ hsame (.uid id) rfl
  refine ⟨?_, fun text htext generation messages hparse ↦ ?_⟩
  · rw [counterOf, hsame .uidnext rfl]
    exact huids.numbering h.numbering
  · rw [hsame .index rfl] at htext
    exact (h.indexed text htext generation messages hparse).keeps huids.keeps

theorem consistent_none : Consistent fun _ ↦ none :=
  ⟨⟨nofun, nofun⟩, nofun⟩

theorem Consistent.update_uidvalidity (h : Consistent files) (value : Option UInt32) :
    Consistent (Function.update files .uidvalidity value) := by
  have huids := sameUids_update files (k := .uidvalidity) nofun value
  refine ⟨?_, fun text htext generation messages hparse ↦ ?_⟩
  · rw [counterOf, Function.update_of_ne (by nofun)]
    exact huids.numbering h.numbering
  · rw [Function.update_of_ne (by nofun)] at htext
    exact (h.indexed text htext generation messages hparse).keeps huids.keeps

theorem Consistent.update_index (h : Numbering files (counterOf files))
    {messages : List MessageRef} (hmessages : Records files (pairs messages)) (stamp : ℕ × ℕ) :
    Consistent (Function.update files .index (some (Index.render stamp messages))) := by
  have huids := sameUids_update files (k := .index) nofun (some (Index.render stamp messages))
  refine ⟨?_, fun text htext generation found hparse ↦ ?_⟩
  · rw [counterOf, Function.update_of_ne (by nofun)]
    exact huids.numbering h
  · rw [Function.update_self] at htext
    obtain rfl := Option.some.inj htext
    rw [Snapshot.pairs_of_parse_render hparse]
    exact hmessages.keeps huids.keeps

structure Opened (files : Files) (validity : UInt32) (messages : List MessageRef) (files' : Files) :
    Prop where
  consistent : Consistent files'
  keeps : Keeps files files'
  records : Records files' (pairs messages)
  validity : files' .uidvalidity = some validity

theorem Consistent.opened (h : Consistent d.files) (hroom : HasRoom d)
    (crypto : MessageCrypto) (clock : SystemTime) :
    Opened d.files (d.validity clock) (d.opened crypto clock).1
      (d.opened crypto clock).2.files := by
  rw [Dir.opened]
  split
  next loaded hloaded =>
    obtain ⟨text, htext, hparse⟩ := Option.bind_eq_some_iff.1 hloaded
    have huids := sameUids_update d.files (k := .uidvalidity) (by simp) (some (d.validity clock))
    exact ⟨h.update_uidvalidity _, huids.keeps,
      (h.indexed text htext _ loaded hparse).keeps huids.keeps, by simp⟩
  next =>
    obtain ⟨messages, d₁, hrun, hnumbering, hkeeps, hrecords⟩ :=
      run_scanMailbox crypto h.numbering hroom
    rw [hrun]
    have hindex := sameUids_update d₁.files (k := .index) (by simp)
      (some (Index.render d.core.generation messages))
    have hvalidity := sameUids_update (Function.update d₁.files .index
      (some (Index.render d.core.generation messages))) (k := .uidvalidity) (by simp)
      (some (d.validity clock))
    have huids := hindex.trans hvalidity
    exact ⟨(Consistent.update_index hnumbering hrecords _).update_uidvalidity _,
      hkeeps.trans huids.keeps, hrecords.keeps huids.keeps, by simp⟩

/-! ## The files of an account -/

/-- The files of a mailbox, if its directory is there. -/
def filesAt (a : Account) (path : Path) : Option Files := (a.folder path).map Folder.files

theorem filesAt_of_dirAt (h : a.dirAt path = some d) :
    filesAt a path = some d.files := by
  obtain ⟨f, hf, rfl⟩ := Option.map_eq_some_iff.1 h
  rw [filesAt, hf]
  rfl

theorem filesAt_congr {path' : Path} (h : a'.folder path' = a.folder path) :
    filesAt a' path' = filesAt a path := by
  rw [filesAt, h, filesAt]

/-- Where the files of a mailbox come from after a step that is not a rename: they say about UIDs
what they did before, or nothing yet. -/
inductive Origin (a : Account) (path : Path) (files' : Files) : Prop
  | kept (files : Files) (h : filesAt a path = some files) (hsame : SameRecord files files')
  | created (h : SameRecord (fun _ ↦ none) files')

theorem origin_of_folder
    (h : a'.folder path = a.folder path) (hfiles : filesAt a' path = some files') :
    Origin a path files' := by
  rw [filesAt_congr h] at hfiles
  exact .kept files' hfiles (.refl files')

theorem origin_createDirAll (created path : Path)
    (hfiles : filesAt (Account.exec (.createDirAll created) a).2 path = some files') :
    Origin a path files' := by
  by_cases hthere : (a.folder created).isSome = true
  · have hsame : (Account.exec (.createDirAll created) a).2 = a := if_pos hthere
    rw [hsame] at hfiles
    exact .kept files' hfiles (.refl files')
  · have hnew : (Account.exec (.createDirAll created) a).2 = a.setFolder created .empty :=
      if_neg hthere
    rw [hnew] at hfiles
    by_cases hpath : path = created
    · subst hpath
      rw [filesAt, Account.folder_setFolder_self] at hfiles
      obtain rfl := Option.some.inj hfiles
      exact .created (.refl _)
    · exact origin_of_folder (Account.folder_setFolder_of_ne a _ hpath) hfiles

theorem origin_create (mailbox : Text) (a : Account)
    (hfiles : filesAt ((create mailbox).run Account.exec a).2 path = some files') :
    Origin a path files' := by
  have hnothing : filesAt a path = some files' → Origin a path files' :=
    fun h ↦ .kept files' h (.refl files')
  rw [create] at hfiles
  split at hfiles
  · exact hnothing hfiles
  next created _ =>
    rw [run_ifDir] at hfiles
    split at hfiles
    · exact hnothing hfiles
    · exact origin_createDirAll created path hfiles

theorem origin_delete (mailbox : Text) (a : Account)
    (hfiles : filesAt ((delete mailbox).run Account.exec a).2 path = some files') :
    Origin a path files' := by
  rcases folder_delete mailbox a path with hsame | hnone
  · exact origin_of_folder hsame hfiles
  · rw [filesAt, hnone] at hfiles
    cases hfiles

/-- A rename from `source` to `target` is carried out. -/
structure Renames (a : Account) (source target : Text) : Prop where
  validSource : validName source = true
  validTarget : validName target = true
  free : a.folder (.folder target) = none

instance (a : Account) (source target : Text) : Decidable (Renames a source target) :=
  decidable_of_iff (validName source = true ∧ validName target = true ∧
      (a.folder (.folder target)).isNone = true)
    ⟨fun h ↦ ⟨h.1, h.2.1, Option.isNone_iff_eq_none.1 h.2.2⟩,
      fun h ↦ ⟨h.validSource, h.validTarget, Option.isNone_iff_eq_none.2 h.free⟩⟩

/-- A rename moves the whole directory, to a name that is free. -/
theorem origin_rename (source target : Text) (a : Account)
    (hfiles : filesAt ((rename source target).run Account.exec a).2 path = some files') :
    Origin a path files' ∨ Renames a source target ∧ path = .folder target ∧
      filesAt a (.folder source) = some files' := by
  rcases folder_rename source target a path with hsame | hnone | ⟨hfree, rfl, hmoved⟩
  · exact .inl (origin_of_folder hsame hfiles)
  · rw [filesAt, hnone] at hfiles
    cases hfiles
  · exact .inr ⟨⟨hfree.1, hfree.2.1, hfree.2.2⟩, rfl, (filesAt_congr hmoved).symm.trans hfiles⟩

theorem SameRecord.trans (h : SameRecord files files')
    (h' : SameRecord files' files'') : SameRecord files files'' :=
  fun k hk ↦ (h' k hk).trans (h k hk)

theorem Origin.congr (h : Origin a path files)
    (hsame : SameRecord files files') : Origin a path files' := by
  rcases h with ⟨before, hbefore, hkept⟩ | hcreated
  · exact .kept before hbefore (hkept.trans hsame)
  · exact .created (hcreated.trans hsame)

theorem origin_deliverTo (crypto : MessageCrypto) (mailbox : Option Text) (data : List UInt8)
    (flagTokens : List Text) (stamp : Stamp) (a : Account)
    (hfiles : filesAt ((deliverTo crypto mailbox data flagTokens stamp).run Account.exec a).2 path =
      some files') : Origin a path files' := by
  set target : Path := mailbox.elim .inbox .folder with htarget
  set mail : Mail := ⟨crypto.encode stamp.nonce data, stamp.mtime⟩ with hmail
  let a₁ := (Account.exec (.createDirAll target) a).2
  have hrun : ((deliverTo crypto mailbox data flagTokens stamp).run Account.exec a).2 =
      ((inMailbox target (deliverToAccount stamp.id mail flagTokens)).run Account.exec a₁).2 := by
    rw [deliverTo, op_bind, run_call]
  rw [hrun] at hfiles
  obtain ⟨d, hd⟩ := a.exists_dirAt_createDirAll target
  obtain ⟨-, hdir, hothers⟩ := run_inMailbox (deliverToAccount stamp.id mail flagTokens) hd
  by_cases hpath : path = target
  · subst hpath
    rw [filesAt_of_dirAt hdir] at hfiles
    obtain rfl := Option.some.inj hfiles
    refine (origin_createDirAll target target (filesAt_of_dirAt hd)).congr ?_
    intro k hk
    refine (added_deliverToAccount stamp.id mail flagTokens d).files k ?_
    rintro rfl
    cases hk
  · rw [filesAt_congr (hothers path hpath)] at hfiles
    exact origin_createDirAll target path hfiles

/-! ## Runs -/

/-- What an open has shown: a message under the name of the mailbox, its UIDVALIDITY and a UID. -/
structure Report where
  path : Path
  validity : UInt32
  uid : UInt32
  id : Uuid
  deriving DecidableEq

/-- The account, the time and all that opens have shown so far. -/
structure World where
  account : Account
  clock : SystemTime
  reports : List Report

inductive Action
  | create (mailbox : Text)
  | delete (mailbox : Text)
  | rename (source target : Text)
  | openMailbox (crypto : MessageCrypto) (mailbox : Text) (retentionDays : ℕ)
  | deliver (crypto : MessageCrypto) (mailbox : Option Text) (data : List UInt8)
      (flagTokens : List Text) (stamp : Stamp)

structure Event where
  clock : SystemTime
  action : Action

def reportsOf (mailbox : Text) (snapshot : Option Snapshot) : List Report :=
  (mailboxDir mailbox).elim [] fun path ↦ snapshot.elim [] fun snapshot ↦
    snapshot.messages.map fun message ↦ ⟨path, snapshot.uidValidity, message.uid, message.id⟩

def accountAfter (a : Account) (clock : SystemTime) : Action → Account
  | .create mailbox => ((create mailbox).run Account.exec a).2
  | .delete mailbox => ((delete mailbox).run Account.exec a).2
  | .rename source target => ((rename source target).run Account.exec a).2
  | .openMailbox crypto mailbox retentionDays =>
    ((openMailbox crypto mailbox retentionDays clock).run Account.exec a).2
  | .deliver crypto mailbox data flagTokens stamp =>
    ((deliverTo crypto mailbox data flagTokens stamp).run Account.exec a).2

def reportsAfter (a : Account) (clock : SystemTime) : Action → List Report
  | .openMailbox crypto mailbox retentionDays =>
    reportsOf mailbox ((openMailbox crypto mailbox retentionDays clock).run Account.exec a).1
  | _ => []

/-- The clock does not go back. -/
def NotBefore (t t' : SystemTime) : Prop := t.secs < t'.secs ∨ t.secs = t'.secs ∧ t.nanos ≤ t'.nanos

instance (t t' : SystemTime) : Decidable (NotBefore t t') :=
  inferInstanceAs (Decidable (t.secs < t'.secs ∨ t.secs = t'.secs ∧ t.nanos ≤ t'.nanos))

def machine : Machine World Event where
  enabled := fun w e ↦ NotBefore w.clock e.clock
  step := fun w e ↦
    ⟨accountAfter w.account e.clock e.action, e.clock,
      w.reports ++ reportsAfter w.account e.clock e.action⟩

/-- Whatever was shown under this name and UIDVALIDITY has its UID in these files. -/
def Agrees (reports : List Report) (path : Path) (validity : UInt32) (files : Files) : Prop :=
  ∀ r ∈ reports, r.path = path → r.validity = validity → files (.uid r.id) = some r.uid

/-- The condition on an event. A name and a UIDVALIDITY come together in two ways: by the first open
of a directory, and by a rename. Where messages have been shown under both before, they are those of
this directory. And an open does not exhaust the UIDs. -/
def Distinct (w : World) (e : Event) : Prop :=
  match e.action with
  | .openMailbox _ mailbox _ => ∀ path ∈ mailboxDir mailbox, ∀ d ∈ w.account.dirAt path,
      HasRoom d ∧ ((d.files .uidvalidity).filter (0 < ·) = none →
        Agrees w.reports path (UidValidity.ofClock e.clock) d.files)
  | .rename source target => Renames w.account source target →
      ∀ files ∈ filesAt w.account (.folder source), ∀ validity ∈ files .uidvalidity,
        Agrees w.reports (.folder target) validity files
  | _ => True

/-- A triple denotes one message. -/
def Unambiguous (reports : List Report) : Prop :=
  ∀ r ∈ reports, ∀ r' ∈ reports, r.path = r'.path → r.validity = r'.validity → r.uid = r'.uid →
    r.id = r'.id

/-- The files of a mailbox are consistent, and have the UIDs of what was shown under the mailbox's
name and UIDVALIDITY. -/
structure Sound (reports : List Report) (path : Path) (files : Files) : Prop where
  consistent : Consistent files
  agrees : ∀ validity, files .uidvalidity = some validity → Agrees reports path validity files

structure Inv (w : World) : Prop where
  sound : ∀ path files, filesAt w.account path = some files → Sound w.reports path files
  unambiguous : Unambiguous w.reports

theorem Agrees.congr {reports : List Report} {validity : UInt32}
    (h : Agrees reports path validity files) (hkeeps : Keeps files files') :
    Agrees reports path validity files' :=
  fun r hr hpath hvalidity ↦ hkeeps _ _ (h r hr hpath hvalidity)

variable {w : World}

section

variable (hw : Inv w)
include hw

theorem Inv.sound_of_origin (h : Origin w.account path files') : Sound w.reports path files' := by
  rcases h with ⟨files, hbefore, hsame⟩ | hcreated
  · obtain ⟨hconsistent, hagrees⟩ := hw.sound path files hbefore
    have huids : SameUids files files' := fun id ↦ hsame (.uid id) rfl
    refine ⟨hconsistent.congr hsame, fun validity hvalidity ↦ ?_⟩
    rw [hsame .uidvalidity rfl] at hvalidity
    exact (hagrees validity hvalidity).congr huids.keeps
  · refine ⟨consistent_none.congr hcreated, fun validity hvalidity ↦ ?_⟩
    rw [hcreated .uidvalidity rfl] at hvalidity
    cases hvalidity

theorem Inv.of_origin (clock : SystemTime)
    (h : ∀ path files', filesAt a path = some files' → Origin w.account path files') :
    Inv ⟨a, clock, w.reports ++ []⟩ := by
  rw [List.append_nil]
  exact ⟨fun path files' hfiles ↦ hw.sound_of_origin (h path files' hfiles), hw.unambiguous⟩

/-- A rename to a name under which the directory's UIDVALIDITY has not been shown for others. -/
theorem Inv.of_rename (clock : SystemTime) {source target : Text} (hdistinct : Renames w.account
    source target → ∀ files ∈ filesAt w.account (.folder source), ∀ validity ∈ files .uidvalidity,
    Agrees w.reports (.folder target) validity files) :
    Inv ⟨((rename source target).run Account.exec w.account).2, clock, w.reports ++ []⟩ := by
  rw [List.append_nil]
  refine ⟨fun path files' hfiles ↦ ?_, hw.unambiguous⟩
  rcases origin_rename source target w.account hfiles with horigin | ⟨hrenames, rfl, hsource⟩
  · exact hw.sound_of_origin horigin
  · exact ⟨(hw.sound _ files' hsource).consistent, hdistinct hrenames files' hsource⟩

/-- An open shows each message under the UID that the directory then has for it. -/
theorem Inv.of_opened {messages : List MessageRef} {validity : UInt32}
    (hopened : Opened files validity messages files')
    (hagrees : Agrees w.reports path validity files) (hpath : filesAt a path = some files')
    (hothers : ∀ other ≠ path, filesAt a other = filesAt w.account other) (clock : SystemTime) :
    Inv ⟨a, clock, w.reports ++ messages.map fun message ↦
      ⟨path, validity, message.uid, message.id⟩⟩ := by
  have hnew : Agrees (w.reports ++ messages.map fun message ↦
      ⟨path, validity, message.uid, message.id⟩) path validity files' := by
    intro r hr hr' hvalidity
    rcases List.mem_append.1 hr with hold | hnew
    · exact hopened.keeps _ _ (hagrees r hold hr' hvalidity)
    · obtain ⟨message, hmessage, rfl⟩ := List.mem_map.1 hnew
      exact hopened.records _ (List.mem_map.2 ⟨message, hmessage, rfl⟩)
  refine ⟨fun other files'' hfiles ↦ ?_, fun r hr r' hr' hrpath hrvalidity hruid ↦ ?_⟩
  · by_cases hother : other = path
    · obtain rfl := hother
      obtain rfl : files' = files'' := Option.some.inj (hpath.symm.trans hfiles)
      refine ⟨hopened.consistent, fun value hvalue ↦ ?_⟩
      obtain rfl : validity = value := Option.some.inj (hopened.validity.symm.trans hvalue)
      exact hnew
    · -- the new reports are about another mailbox
      rw [hothers other hother] at hfiles
      obtain ⟨hconsistent, hold⟩ := hw.sound other files'' hfiles
      refine ⟨hconsistent, fun value hvalue r hr hrpath hrvalue ↦ ?_⟩
      rcases List.mem_append.1 hr with hr | hr
      · exact hold value hvalue r hr hrpath hrvalue
      · obtain ⟨message, -, rfl⟩ := List.mem_map.1 hr
        exact absurd hrpath.symm hother
  · by_cases hkey : r.path = path ∧ r.validity = validity
    · -- both messages have the same UID in one directory
      have hfile := hnew r hr hkey.1 hkey.2
      have hfile' := hnew r' hr' (hrpath.symm.trans hkey.1) (hrvalidity.symm.trans hkey.2)
      rw [← hruid] at hfile'
      exact hopened.consistent.numbering.injective _ _ _ hfile hfile'
    · have hold : ∀ q ∈ w.reports ++ messages.map fun message ↦
          ⟨path, validity, message.uid, message.id⟩,
          ¬(q.path = path ∧ q.validity = validity) → q ∈ w.reports := by
        intro q hq hne
        rcases List.mem_append.1 hq with hq | hq
        · exact hq
        · obtain ⟨message, -, rfl⟩ := List.mem_map.1 hq
          exact absurd ⟨rfl, rfl⟩ hne
      have hkey' : ¬(r'.path = path ∧ r'.validity = validity) := by
        rw [← hrpath, ← hrvalidity]
        exact hkey
      exact hw.unambiguous r (hold r hr hkey) r' (hold r' hr' hkey') hrpath hrvalidity hruid

/-- Before an open, what was shown under the UIDVALIDITY it will show agrees with the directory. -/
theorem Inv.agrees_validity (hd : w.account.dirAt path = some d) {clock : SystemTime} (hfirst :
    (d.files .uidvalidity).filter (0 < ·) = none → Agrees w.reports path (UidValidity.ofClock clock)
    d.files) : Agrees w.reports path (d.validity clock) d.files := by
  cases h : (d.files .uidvalidity).filter (0 < ·) with
  | none =>
    rw [Dir.validity, h, Option.getD_none]
    exact hfirst h
  | some value =>
    rw [Dir.validity, h, Option.getD_some]
    have hvalue : d.files .uidvalidity = some value := (Option.filter_eq_some_iff.1 h).1
    exact (hw.sound path d.files (filesAt_of_dirAt hd)).agrees value hvalue

theorem Inv.of_open (clock : SystemTime) (crypto : MessageCrypto) (mailbox : Text)
    (retentionDays : ℕ) (hdistinct : ∀ path ∈ mailboxDir mailbox, ∀ d ∈ w.account.dirAt path,
    HasRoom d ∧ ((d.files .uidvalidity).filter (0 < ·) = none → Agrees w.reports path
    (UidValidity.ofClock clock) d.files)) :
    Inv ⟨((openMailbox crypto mailbox retentionDays clock).run Account.exec w.account).2, clock,
      w.reports ++ reportsOf mailbox
        ((openMailbox crypto mailbox retentionDays clock).run Account.exec w.account).1⟩ := by
  have hnothing : Inv ⟨w.account, clock, w.reports ++ []⟩ :=
    hw.of_origin clock fun path files hfiles ↦ .kept files hfiles (.refl files)
  cases hpath : mailboxDir mailbox with
  | none =>
    have hrun : (openMailbox crypto mailbox retentionDays clock).run Account.exec w.account =
        (none, w.account) := by
      rw [openMailbox, hpath]
      rfl
    rw [hrun, reportsOf, hpath]
    exact hnothing
  | some path =>
    cases hd : w.account.dirAt path with
    | none =>
      have hfolder : w.account.folder path = none := by
        rw [Account.dirAt, Option.map_eq_none_iff] at hd
        exact hd
      obtain ⟨snapshot, hrun, -, hids, -⟩ := run_openAt_missing hfolder crypto mailbox retentionDays
        clock.secs.toNat clock
      have hmessages : snapshot.messages = [] := List.map_eq_nil_iff.1 hids
      have hopen : (openMailbox crypto mailbox retentionDays clock).run Account.exec w.account =
          (some snapshot, w.account) := by
        rw [openMailbox, hpath]
        exact hrun
      rw [hopen, reportsOf, hpath, Option.elim_some, Option.elim_some, hmessages]
      exact hnothing
    | some d =>
      obtain ⟨hroom, hfirst⟩ := hdistinct path hpath d hd
      obtain ⟨snapshot, a, hrun, -, hmessages, hvalidity, hdir, hothers⟩ :=
        run_openMailbox_of_dirAt hpath hd crypto retentionDays clock
      have hconsistent := (hw.sound path d.files (filesAt_of_dirAt hd)).consistent
      rw [hrun, reportsOf, hpath, Option.elim_some, Option.elim_some, hmessages, hvalidity]
      exact hw.of_opened (hconsistent.opened hroom crypto clock) (hw.agrees_validity hd hfirst)
        (filesAt_of_dirAt hdir) (fun other hother ↦ filesAt_congr (hothers other hother)) clock

theorem Inv.step {e : Event} (hdistinct : Distinct w e) : Inv (machine.step w e) := by
  obtain ⟨clock, action⟩ := e
  cases action with
  | create mailbox => exact hw.of_origin clock fun _ _ ↦ origin_create mailbox w.account
  | delete mailbox => exact hw.of_origin clock fun _ _ ↦ origin_delete mailbox w.account
  | rename source target => exact hw.of_rename clock hdistinct
  | openMailbox crypto mailbox retentionDays =>
    exact hw.of_open clock crypto mailbox retentionDays hdistinct
  | deliver crypto mailbox data flagTokens stamp =>
    exact hw.of_origin clock fun _ _ ↦
      origin_deliverTo crypto mailbox data flagTokens stamp w.account

end

/-- In every run of an account, from its beginning on, whose events all meet the condition, the name
of a mailbox, a UIDVALIDITY and a UID shown together denote one message. -/
theorem triple_denotes_one_message {clock : SystemTime} {w : World}
    (h : machine.Reach Distinct ⟨.empty, clock, []⟩ w) : Unambiguous w.reports := by
  refine (h.invariant (I := Inv) ?_ fun _ _ hw _ hdistinct ↦ hw.step hdistinct).unambiguous
  refine ⟨fun path files hfiles ↦ ?_, fun r hr ↦ absurd hr List.not_mem_nil⟩
  cases path with
  | inbox | folder name => cases hfiles

/-! ## Runs of one account -/

instance (reports : List Report) (path : Path) (validity : UInt32) (files : Files) :
    Decidable (Agrees reports path validity files) :=
  by delta Agrees; infer_instance

instance (reports : List Report) : Decidable (Unambiguous reports) :=
  by delta Unambiguous; infer_instance

instance (w : World) (e : Event) : Decidable (machine.enabled w e) :=
  inferInstanceAs (Decidable (NotBefore w.clock e.clock))

instance (w : World) : (e : Event) → Decidable (Distinct w e)
  | ⟨_, .openMailbox _ _ _⟩ => by dsimp only [Distinct]; infer_instance
  | ⟨_, .rename source target⟩ =>
    -- the instance for options by name: the one for finite types would enumerate the values
    have (files : Files) : Decidable (∀ validity ∈ files .uidvalidity,
        Agrees w.reports (.folder target) validity files) :=
      Option.decidableForallMem (files .uidvalidity)
    inferInstanceAs (Decidable (Renames w.account source target →
      ∀ files ∈ filesAt w.account (.folder source), ∀ validity ∈ files .uidvalidity,
        Agrees w.reports (.folder target) validity files))
  | ⟨_, .create _⟩ | ⟨_, .delete _⟩ | ⟨_, .deliver _ _ _ _ _⟩ => isTrue trivial

def atSecond (t : ℕ) (action : Action) : Event := ⟨⟨t, 0⟩, action⟩

def delivery (t n : ℕ) (mailbox : String) : Event :=
  atSecond t (.deliver .disabled (some mailbox.toList) [65] [] ⟨.ofNat n, [], ⟨t, 0⟩⟩)

def opening (t : ℕ) (mailbox : String) : Event :=
  atSecond t (.openMailbox .disabled mailbox.toList 0)

def start : World := ⟨.empty, ⟨100, 0⟩, []⟩

/-- A folder is shown, renamed, and created again some seconds later; the new one then takes the
name of the old one, which has been deleted. -/
def distinctRun : List Event :=
  [atSecond 100 (.create "a".toList), delivery 100 1 "a", opening 100 "a",
    atSecond 102 (.rename "a".toList "b".toList), atSecond 103 (.create "a".toList),
    delivery 103 2 "a", opening 104 "a", opening 105 "b", atSecond 106 (.delete "b".toList),
    atSecond 107 (.rename "a".toList "b".toList), opening 108 "b"]

theorem unambiguous_distinctRun :
    machine.Reach Distinct start (distinctRun.foldl machine.step start) ∧
      (distinctRun.foldl machine.step start).reports =
        [⟨.folder "a".toList, 101, 1, .ofNat 1⟩, ⟨.folder "a".toList, 105, 1, .ofNat 2⟩,
          ⟨.folder "b".toList, 101, 1, .ofNat 1⟩, ⟨.folder "b".toList, 105, 1, .ofNat 2⟩] ∧
      Unambiguous (distinctRun.foldl machine.step start).reports := by
  have hreach : machine.Reach Distinct start (distinctRun.foldl machine.step start) :=
    .of_passes (by decide)
  exact ⟨hreach, by decide, triple_denotes_one_message hreach⟩

/-- A folder is deleted and created again, and opened before the UIDVALIDITY changes. -/
def recreateRun : List Event :=
  [atSecond 100 (.create "a".toList), delivery 100 1 "a", opening 100 "a",
    atSecond 100 (.delete "a".toList), atSecond 101 (.create "a".toList), delivery 101 2 "a",
    opening 101 "a"]

/-- Two folders are first opened in the same second, and one takes the other's name much later. -/
def renameRun : List Event :=
  [atSecond 100 (.create "a".toList), atSecond 100 (.create "b".toList), delivery 100 1 "a",
    delivery 100 2 "b", opening 100 "a", opening 100 "b", atSecond 200 (.delete "b".toList),
    atSecond 200 (.rename "a".toList "b".toList), opening 200 "b"]

theorem recreate_rename_ambiguous :
    (machine.Reach (fun _ _ ↦ True) start (recreateRun.foldl machine.step start) ∧
      ¬Unambiguous (recreateRun.foldl machine.step start).reports) ∧
    machine.Reach (fun _ _ ↦ True) start (renameRun.foldl machine.step start) ∧
      ¬Unambiguous (renameRun.foldl machine.step start).reports := by
  refine ⟨⟨.of_passes (by decide), ?_⟩,
    .of_passes (by decide), ?_⟩
  · decide
  · decide

end MailboxTriples

end Epistle.Imap
