import Epistle.Imap.Snapshot

/-!
# The mailboxes of an account

An account is a directory with its INBOX, its other mailboxes as folders, and an archive that all of
them share. A mailbox is found by its name; the name of the INBOX may be written in any case, the
name of a folder is its directory's name. The programs of `Epistle.Imap.Snapshot` work in the
directory of one mailbox. Here they are placed in an account (`inMailbox`), together with what can
be done to mailboxes as a whole.

## A mailbox that is not there

The INBOX of an account that never received mail has no directory, and a folder can be deleted while
a session has it selected. Reading such a mailbox finds nothing, which is not an error; writing to
it fails. Both ways of putting a message into a mailbox create its directory first.
-/

namespace Epistle.Imap

open TextFormat Interleaving

/-! ## Names -/

inductive Path
  /-- `new/` -/
  | inbox
  /-- `folders/<name>/new/` -/
  | folder (name : Text)
  deriving DecidableEq

def isInbox (name : Text) : Bool := eqIgnoreAsciiCase name "INBOX".toList

/-- Whether a client-supplied mailbox name is safe and supported. -/
def validName (name : Text) : Bool :=
  !name.isEmpty && name.length ≤ 128 && !isInbox name &&
    (name.all fun c ↦ c.isAlphanum || [' ', '-', '_', '.'].contains c) &&
    name.head? != some '.' && name.getLast? != some ' '

def mailboxDir (mailbox : Text) : Option Path :=
  if isInbox mailbox then some .inbox
  else if validName mailbox then some (.folder mailbox)
  else none

variable {mailbox name : Text} {α : Type} {d : Dir} {path : Path}

/-- Different paths are reached by different names only; the INBOX has several. -/
theorem eq_of_mailboxDir_folder (h : mailboxDir mailbox = some (.folder name)) :
    mailbox = name ∧ validName name = true := by
  rw [mailboxDir] at h
  split at h
  · exact absurd h (by simp)
  · split at h
    next hvalid =>
      obtain rfl : mailbox = name := by simpa using h
      exact ⟨rfl, hvalid⟩
    next => exact absurd h (by simp)

theorem validName_not_isInbox (h : validName name = true) : isInbox name = false := by
  simp only [validName, Bool.and_eq_true, Bool.not_eq_true'] at h
  exact h.1.1.1.2

theorem mailboxDir_of_validName (h : validName name = true) :
    mailboxDir name = some (.folder name) := by
  rw [mailboxDir, validName_not_isInbox h, h]
  rfl

/-! ## The account -/

structure Folder where
  mails : Mails
  files : Files
  temps : Files

/-- A folder that has just been created. -/
def Folder.empty : Folder := ⟨∅, fun _ ↦ none, fun _ ↦ none⟩

structure Account where
  inbox : Option Folder
  folders : AList fun _ : Text ↦ Folder
  /-- `tmp/<id>.eml` -/
  staged : Uuid → Option Mail
  archive : Archive

namespace Account

def empty : Account := ⟨none, ∅, fun _ ↦ none, ⟨∅, fun _ ↦ none, fun _ ↦ none⟩⟩

/-- The contents of a mailbox, if its directory is there. -/
def folder (a : Account) : Path → Option Folder
  | .inbox => a.inbox
  | .folder name => a.folders.lookup name

/-- Replace the contents of a mailbox. -/
def setFolder (a : Account) : Path → Folder → Account
  | .inbox, f => { a with inbox := some f }
  | .folder name, f => { a with folders := a.folders.insert name f }

@[simp] theorem folder_setFolder_self (a : Account) (path : Path) (f : Folder) :
    (a.setFolder path f).folder path = some f := by
  cases path with
  | inbox => rfl
  | folder name => exact AList.lookup_insert _

variable {other path : Path}

theorem folder_setFolder_of_ne (a : Account) (f : Folder) (h : other ≠ path) :
    (a.setFolder path f).folder other = a.folder other := by
  cases path with
  | inbox =>
    cases other with
    | inbox => exact absurd rfl h
    | folder name => rfl
  | folder name =>
    cases other with
    | inbox => rfl
    | folder other =>
      have hne : other ≠ name := fun heq ↦ h (by rw [heq])
      exact AList.lookup_insert_ne hne

/-- A mailbox with the files of the account that its messages pass through. -/
def dir (a : Account) (f : Folder) : Dir := ⟨f.mails, f.files, f.temps, a.staged, a.archive⟩

/-- The directory of a mailbox, if it is there. -/
def dirAt (a : Account) (path : Path) : Option Dir := (a.folder path).map a.dir

/-- Write back what a program in one mailbox has changed. -/
def setDir (a : Account) (path : Path) (d : Dir) : Account :=
  { a.setFolder path ⟨d.mails, d.files, d.temps⟩ with staged := d.staged, archive := d.archive }

theorem folder_setDir_of_ne (a : Account) (d : Dir) (h : other ≠ path) :
    (a.setDir path d).folder other = a.folder other := by
  rw [← folder_setFolder_of_ne a ⟨d.mails, d.files, d.temps⟩ h]
  cases other <;> rfl

@[simp] theorem dirAt_setDir_self (a : Account) (path : Path) (d : Dir) :
    (a.setDir path d).dirAt path = some d := by
  have hfolder : (a.setDir path d).folder path = some ⟨d.mails, d.files, d.temps⟩ := by
    rw [← folder_setFolder_self a path ⟨d.mails, d.files, d.temps⟩]
    cases path <;> rfl
  rw [dirAt, hfolder]
  rfl

/-- A call in a mailbox whose directory is not there. Both programs that list a directory take one
that is missing for an empty one. -/
def execMissing : (o : Op) → Account → Ans o × Account
  | .read _, a => (none, a)
  | .readDir, a => (some [], a)
  | .stat _, a => (none, a)
  | .readMail _, a => (none, a)
  | .fileHasMagic _, a => (false, a)
  -- the account's own directories are there all the same
  | .stage id mail, a => (true, { a with staged := Function.update a.staged id (some mail) })
  | .archiveMark id now mailbox, a =>
    (true, { a with archive := { a.archive with
      deleted := Function.update a.archive.deleted id (some (now, mailbox)) } })
  | .archiveFile _, a => (true, a)
  | .archiveMail _, a => (true, a)
  | .writeTmp _ _, a => (false, a)
  | .rename _, a => (false, a)
  | .write _ _, a => (false, a)
  | .remove _, a => (false, a)
  | .appendVanished _ _, a => (false, a)
  | .publish _, a => (false, a)
  | .removeMail _, a => (false, a)

/-- A call in a mailbox. -/
def execAt (path : Path) (o : Op) (a : Account) : Ans o × Account :=
  match a.folder path with
  | some f => ((Dir.exec o (a.dir f)).1, a.setDir path (Dir.exec o (a.dir f)).2)
  | none => execMissing o a

end Account

/-! ## Calls on mailboxes as a whole -/

inductive AccountOp
  /-- A call in the directory of a mailbox. -/
  | file (path : Path) (o : Op)
  /-- `Path::is_dir` of a mailbox. -/
  | isDir (path : Path)
  /-- `fs::create_dir_all` of a mailbox. -/
  | createDirAll (path : Path)
  /-- `fs::remove_dir_all` of a folder. -/
  | removeDirAll (name : Text)
  /-- `fs::rename` of a folder. -/
  | renameDir (source target : Text)
  /-- `fs::read_dir` of the folders. -/
  | readFolders
  /-- `fs::read_dir` of the archive, for the message files. -/
  | readArchive
  /-- `fs::metadata` of an archived message file. -/
  | statArchived (id : Uuid)
  /-- Compare the first bytes of an archived message file with the encryption mark. -/
  | archivedHasMagic (id : Uuid)

@[reducible] def AccountAns : AccountOp → Type
  | .file _ o => Ans o
  | .readFolders => List Text
  | .readArchive => List Uuid
  | .statArchived _ => Option Stat
  | _ => Bool

abbrev AccountM : Type → Type := Prog AccountAns

/-- The effect of a call, and its answer. -/
def Account.exec : (o : AccountOp) → Account → AccountAns o × Account
  | .file path o, a => a.execAt path o
  | .isDir path, a => ((a.folder path).isSome, a)
  | .createDirAll path, a =>
    (true, if (a.folder path).isSome then a else a.setFolder path .empty)
  | .removeDirAll name, a =>
    ((a.folders.lookup name).isSome, { a with folders := a.folders.erase name })
  | .renameDir source target, a =>
    match a.folders.lookup source with
    | some f => (true, { a with folders := (a.folders.erase source).insert target f })
    | none => (false, a)
  | .readFolders, a => (a.folders.keys, a)
  | .readArchive, a => (a.archive.mails.keys, a)
  | .statArchived id, a =>
    ((a.archive.mails.lookup id).map fun mail ↦ ⟨mail.stored.length, mail.mtime⟩, a)
  | .archivedHasMagic id, a =>
    ((a.archive.mails.lookup id).elim false fun mail ↦ MessageCrypto.magic.isPrefixOf mail.stored,
      a)

abbrev accountCall (o : AccountOp) : AccountM (AccountAns o) := Prog.op o

theorem Account.exists_dirAt_createDirAll (path : Path) (a : Account) :
    ∃ d, (Account.exec (.createDirAll path) a).2.dirAt path = some d := by
  by_cases h : (a.folder path).isSome = true
  · have hsame : (Account.exec (.createDirAll path) a).2 = a := if_pos h
    obtain ⟨f, hf⟩ := Option.isSome_iff_exists.1 h
    rw [hsame, dirAt, hf]
    exact ⟨_, rfl⟩
  · have hnew : (Account.exec (.createDirAll path) a).2 = a.setFolder path .empty := if_neg h
    rw [hnew, dirAt, folder_setFolder_self]
    exact ⟨_, rfl⟩

theorem run_ifDir (path : Path) (p q : AccountM α) (a : Account) :
    (do if ← accountCall (.isDir path) then p else q : AccountM α).run Account.exec a =
      if (a.folder path).isSome then p.run Account.exec a else q.run Account.exec a := by
  rw [Prog.op_bind, Prog.run_call]
  by_cases h : (a.folder path).isSome = true
  · rw [if_pos h]
    exact congrArg (fun r ↦ Prog.run Account.exec r a) (if_pos h)
  · rw [if_neg h]
    exact congrArg (fun r ↦ Prog.run Account.exec r a) (if_neg h)

def inMailbox {α : Type} (path : Path) (p : FileM α) : AccountM α :=
  p.lift fun o ↦ accountCall (.file path o)

variable {a : Account}

theorem Account.execAt_of_dirAt (h : a.dirAt path = some d)
    (o : Op) : a.execAt path o = ((Dir.exec o d).1, a.setDir path (Dir.exec o d).2) := by
  obtain ⟨f, hf, rfl⟩ := Option.map_eq_some_iff.1 h
  rw [execAt, hf]

/-- A program in a mailbox that is there runs as on its directory, and touches no other mailbox. -/
theorem run_inMailbox (p : FileM α) (h : a.dirAt path = some d) :
    ((inMailbox path p).run Account.exec a).1 = (p.run Dir.exec d).1 ∧
      ((inMailbox path p).run Account.exec a).2.dirAt path = some (p.run Dir.exec d).2 ∧
      ∀ other ≠ path,
        ((inMailbox path p).run Account.exec a).2.folder other = a.folder other := by
  induction p generalizing a d with
  | ret x => exact ⟨rfl, h, fun _ _ ↦ rfl⟩
  | call o k ih =>
    have hexec : Account.exec (.file path o) a = ((Dir.exec o d).1,
      a.setDir path (Dir.exec o d).2) :=
      Account.execAt_of_dirAt h o
    have hstep : (inMailbox path (.call o k)).run Account.exec a =
        (inMailbox path (k (Dir.exec o d).1)).run Account.exec
          (a.setDir path (Dir.exec o d).2) := by
      rw [inMailbox, Prog.lift_call, Prog.op_bind, Prog.run_call, hexec]
      rfl
    obtain ⟨hret, hdir, hothers⟩ := ih (Dir.exec o d).1 (Account.dirAt_setDir_self a path _)
    rw [hstep]
    refine ⟨hret, hdir, fun other hne ↦ ?_⟩
    rw [hothers other hne, Account.folder_setDir_of_ne a _ hne]

theorem returns_inMailbox (path : Path) {p : FileM α} {R : α → Prop} (h : p.Returns R) :
    (inMailbox path p).Returns R :=
  h.lift _

/-! ## Mailboxes by name -/

def mailboxExists (mailbox : Text) : AccountM Bool :=
  if isInbox mailbox then pure true
  else match mailboxDir mailbox with
    | some path => accountCall (.isDir path)
    | none => pure false

/-- Create a mailbox. Fails if invalid or already existing. -/
def create (mailbox : Text) : AccountM (Except Text Unit) :=
  match (mailboxDir mailbox).filter fun _ ↦ !isInbox mailbox with
  | none => pure (.error "invalid mailbox name".toList)
  | some path => do
    if ← accountCall (.isDir path) then pure (.error "mailbox already exists".toList)
    else
      let _ ← accountCall (.createDirAll path)
      pure (.ok ())

def delete (mailbox : Text) : AccountM (Except Text Unit) :=
  if isInbox mailbox || !validName mailbox then pure (.error "cannot delete this mailbox".toList)
  else do
    if ← accountCall (.isDir (.folder mailbox)) then
      let _ ← accountCall (.removeDirAll mailbox)
      pure (.ok ())
    else pure (.error "no such mailbox".toList)

/-- Rename a mailbox. INBOX cannot be renamed. -/
def rename (source target : Text) : AccountM (Except Text Unit) :=
  if isInbox source || !validName source || !validName target then
    pure (.error "cannot rename".toList)
  else do
    if ← mailboxExists target then pure (.error "cannot rename".toList)
    else if ← accountCall (.isDir (.folder source)) then
      let _ ← accountCall (.renameDir source target)
      pure (.ok ())
    else pure (.error "no such mailbox".toList)

/-- A deletion takes a mailbox away and leaves the others. -/
theorem folder_delete (mailbox : Text) (a : Account) (path : Path) :
    ((delete mailbox).run Account.exec a).2.folder path = a.folder path ∨
      ((delete mailbox).run Account.exec a).2.folder path = none := by
  rw [delete]
  split
  · exact .inl rfl
  · rw [run_ifDir]
    split
    · cases path with
      | inbox => exact .inl rfl
      | folder name =>
        change (a.folders.erase mailbox).lookup name = _ ∨
          (a.folders.erase mailbox).lookup name = none
        by_cases hname : name = mailbox
        · rw [hname]
          exact .inr (AList.lookup_erase _ _)
        · exact .inl (AList.lookup_erase_ne hname)
    · exact .inl rfl

/-- A rename moves the whole mailbox, to a name that is free. -/
theorem folder_rename (source target : Text) (a : Account) (path : Path) :
    ((rename source target).run Account.exec a).2.folder path = a.folder path ∨
      ((rename source target).run Account.exec a).2.folder path = none ∨
      (validName source = true ∧ validName target = true ∧ a.folder (.folder target) = none) ∧
        path = .folder target ∧
        ((rename source target).run Account.exec a).2.folder path = a.folder (.folder source) := by
  rw [rename]
  split
  · exact .inl rfl
  next hvalid =>
    simp only [Bool.or_eq_true, Bool.not_eq_true', not_or, Bool.not_eq_false] at hvalid
    obtain ⟨⟨-, hsource⟩, htarget⟩ := hvalid
    have hexists : mailboxExists target = accountCall (.isDir (.folder target)) := by
      rw [mailboxExists, mailboxDir, validName_not_isInbox htarget, htarget]
      rfl
    rw [hexists, run_ifDir]
    split
    · exact .inl rfl
    next hfree =>
      rw [run_ifDir]
      split
      next hthere =>
        obtain ⟨f, hf⟩ := Option.isSome_iff_exists.1 hthere
        have hlookup : a.folders.lookup source = some f := hf
        rw [Prog.op_bind, Prog.run_call]
        dsimp only [Account.exec]
        rw [hlookup, hf]
        cases path with
        | inbox => exact .inl rfl
        | folder name =>
          change ((a.folders.erase source).insert target f).lookup name = a.folders.lookup name ∨
            ((a.folders.erase source).insert target f).lookup name = none ∨ _ ∧ _ ∧
              ((a.folders.erase source).insert target f).lookup name = some f
          by_cases hname : name = target
          · rw [hname, AList.lookup_insert]
            exact .inr (.inr ⟨⟨hsource, htarget, Option.not_isSome_iff_eq_none.1 hfree⟩, rfl, rfl⟩)
          · rw [AList.lookup_insert_ne hname]
            by_cases hold : name = source
            · rw [hold, AList.lookup_erase]
              exact .inr (.inl rfl)
            · exact .inl (AList.lookup_erase_ne hold)
      · exact .inl rfl

/-- Existing mailbox names: INBOX plus folders, sorted. -/
def list : AccountM (List Text) := do
  let folders : List Text ← accountCall .readFolders
  pure ("INBOX".toList :: (folders.filter validName).insertionSort (· ≤ ·))

structure Stamp where
  /-- `Uuid::now_v7` -/
  id : Uuid
  nonce : List UInt8
  mtime : SystemTime

def appendTo (crypto : MessageCrypto) (mailbox : Text) (flags : List Flag) (data : List UInt8)
    (stamp : Stamp) : AccountM (Option Uuid) :=
  match mailboxDir mailbox with
  | none => pure none
  | some path => do
    if ← accountCall (.createDirAll path) then
      inMailbox path (append stamp.id ⟨crypto.encode stamp.nonce data, stamp.mtime⟩ flags)
    else pure none

theorem run_appendTo {target : Path} (htarget : mailboxDir mailbox = some target)
    (crypto : MessageCrypto) (flags : List Flag) (data : List UInt8) (stamp : Stamp) (a : Account) :
    (appendTo crypto mailbox flags data stamp).run Account.exec a =
      (inMailbox target (append stamp.id ⟨crypto.encode stamp.nonce data, stamp.mtime⟩ flags)).run
        Account.exec (Account.exec (.createDirAll target) a).2 := by
  rw [appendTo, htarget]
  rfl

/-- Deliver a message to a folder, or to the INBOX, creating the directory if need be. -/
def deliverTo (crypto : MessageCrypto) (mailbox : Option Text) (data : List UInt8)
    (flagTokens : List Text) (stamp : Stamp) : AccountM (Option Uuid) := do
  let path := mailbox.elim .inbox .folder
  let _ ← accountCall (.createDirAll path)
  inMailbox path
    (deliverToAccount stamp.id ⟨crypto.encode stamp.nonce data, stamp.mtime⟩ flagTokens)

theorem mem_list :
    name ∈ (list.run Account.exec a).1 ↔
      name = "INBOX".toList ∨ (a.folder (.folder name)).isSome = true ∧ validName name = true := by
  change name ∈ "INBOX".toList :: (a.folders.keys.filter validName).insertionSort (· ≤ ·) ↔ _
  rw [List.mem_cons, List.mem_insertionSort, List.mem_filter]
  refine or_congr Iff.rfl (and_congr ?_ Iff.rfl)
  exact AList.lookup_isSome.symm

/-- A delivery makes sure that the mailbox is there, and removes none. -/
theorem folder_deliverTo (crypto : MessageCrypto) (mailbox : Option Text) (data : List UInt8)
    (flagTokens : List Text) (stamp : Stamp) (a : Account) (path : Path) :
    (((deliverTo crypto mailbox data flagTokens stamp).run Account.exec a).2.folder path).isSome =
      (decide (path = mailbox.elim .inbox .folder) || (a.folder path).isSome) := by
  set target : Path := mailbox.elim .inbox .folder with htarget
  set mail : Mail := ⟨crypto.encode stamp.nonce data, stamp.mtime⟩ with hmail
  have hrun : ((deliverTo crypto mailbox data flagTokens stamp).run Account.exec a).2 =
      ((inMailbox target (deliverToAccount stamp.id mail flagTokens)).run Account.exec
        (Account.exec (.createDirAll target) a).2).2 := by
    rw [deliverTo, Prog.op_bind, Prog.run_call]
  obtain ⟨d, hd⟩ := a.exists_dirAt_createDirAll target
  obtain ⟨-, hdir, hothers⟩ := run_inMailbox (deliverToAccount stamp.id mail flagTokens) hd
  rw [hrun]
  by_cases hpath : path = target
  · subst hpath
    obtain ⟨f, hf, -⟩ := Option.map_eq_some_iff.mp hdir
    rw [hf]
    simp
  · rw [hothers path hpath, Account.exec]
    simp only [hpath, decide_false, Bool.false_or]
    split
    · rfl
    · rw [Account.folder_setFolder_of_ne a _ hpath]

def openMailbox (crypto : MessageCrypto) (mailbox : Text) (retentionDays : ℕ) (clock : SystemTime) :
    AccountM (Option Snapshot) :=
  match mailboxDir mailbox with
  | none => pure none
  | some path =>
    inMailbox path (Snapshot.openAt crypto mailbox retentionDays clock.secs.toNat clock)

/-- The UIDVALIDITY and UID assigned to an appended message. Only UIDs are read here, so no key is
needed; the index that the open may leave behind is written all the same. -/
def appenduid (mailbox : Text) (id : Uuid) (clock : SystemTime) :
    AccountM (Option (UInt32 × UInt32)) := do
  match ← openMailbox .disabled mailbox 0 clock with
  | none => pure none
  | some snapshot =>
    pure ((snapshot.messages.find? fun message ↦ message.id == id).map fun message ↦
      (snapshot.uidValidity, message.uid))

/-! ## Usage -/

def archivedPlaintextLen (crypto : MessageCrypto) (id : Uuid) (fileLen : ℕ) : AccountM ℕ :=
  if crypto.key.isNone then pure fileLen
  else if fileLen < MessageCrypto.overhead then pure fileLen
  else do
    if ← accountCall (.archivedHasMagic id) then pure (fileLen - MessageCrypto.overhead)
    else pure fileLen

/-- The plaintext size of the messages of a mailbox. -/
def mailboxUsage (crypto : MessageCrypto) : List Uuid → FileM ℕ
  | [] => pure 0
  | id :: ids => do
    let stat : Option Stat ← call (.stat id)
    let size ← scanSize crypto id stat
    let rest ← mailboxUsage crypto ids
    pure (size + rest)

/-- The plaintext size of the messages of several mailboxes. -/
def mailboxesUsage (crypto : MessageCrypto) : List Text → AccountM ℕ
  | [] => pure 0
  | mailbox :: mailboxes =>
    match mailboxDir mailbox with
    | none => mailboxesUsage crypto mailboxes
    | some path => do
      let usage ← inMailbox path do
        let entries : Option (List Uuid) ← call .readDir
        mailboxUsage crypto (entries.getD [])
      let rest ← mailboxesUsage crypto mailboxes
      pure (usage + rest)

/-- The plaintext size of archived messages. -/
def archiveUsage (crypto : MessageCrypto) : List Uuid → AccountM ℕ
  | [] => pure 0
  | id :: ids => do
    let stat : Option Stat ← accountCall (.statArchived id)
    let size ← match stat with
      | some stat => archivedPlaintextLen crypto id stat.len
      | none => pure 0
    let rest ← archiveUsage crypto ids
    pure (size + rest)

/-- Total bytes stored for an account, archived messages included. -/
def accountUsage (crypto : MessageCrypto) : AccountM ℕ := do
  let mailboxes ← list
  let usage ← mailboxesUsage crypto mailboxes
  let archived : List Uuid ← accountCall .readArchive
  let rest ← archiveUsage crypto archived
  pure (usage + rest)

end Epistle.Imap
