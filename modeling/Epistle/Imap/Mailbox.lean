import Epistle.Interleaving.Program
import Epistle.Text.Uuid

/-!
# A mailbox directory

A mailbox is a directory with one `<id>.eml` file per message and small files next to it. Some
belong to one message: its flags, its UID, its mod-sequence. Some belong to the mailbox: the two
counters, the metadata index, the UIDVALIDITY, the log of vanished UIDs. The server keeps nothing
else. What it does to a mailbox is a sequence of single file-system calls, and between two of them
any other session may make its own.

## What a file holds

A file other than the index is modelled by the value it is read as: a number instead of its digits,
a list of flags instead of its JSON form. A file that is missing and a file that does not parse are
treated alike by every reader, so both are `none`. The index is kept as text, because its own format
is part of what is verified.

Each of these files is replaced by writing a sibling `.tmp` file and renaming it. The `.tmp` name
is the same for every session, so it is part of the state.
-/

namespace Epistle.Imap

open TextFormat Interleaving
open Function (update_of_ne update_self)

/-! ## Messages -/

inductive Flag
  | seen
  | answered
  | flagged
  | deleted
  | draft
  deriving DecidableEq, Repr

instance instNeZeroNanos : NeZero 1000000000 := ⟨by decide⟩

/-- A point in time, as a number of seconds from the Unix epoch and a fraction. -/
structure SystemTime where
  secs : ℤ
  nanos : Fin 1000000000
  deriving DecidableEq

def SystemTime.unixEpoch : SystemTime := ⟨0, 0⟩

structure MessageRef where
  uid : UInt32
  id : Uuid
  size : ℕ
  flags : List Flag
  internalDate : SystemTime
  modseq : ℕ
  deriving DecidableEq

/-- A stored message file: its bytes and when it was last written. -/
structure Mail where
  stored : List UInt8
  mtime : SystemTime
  deriving DecidableEq

/-! ## Encryption at rest -/

/-- An authenticated cipher under a fixed key. -/
structure Aead where
  sealAppendTag : List UInt8 → List UInt8 → List UInt8
  /-- From a nonce and a ciphertext with its tag, the plaintext if the tag is right. -/
  openInPlace : List UInt8 → List UInt8 → Option (List UInt8)

/-- What the server encodes message files with: a key may be loaded without being used for new
files. -/
structure MessageCrypto where
  key : Option Aead
  enabled : Bool

namespace MessageCrypto

/-- Encryption off, no key. -/
def disabled : MessageCrypto := ⟨none, false⟩

/-- The bytes that mark an encrypted file: `EPENC1` and a NUL. -/
def magic : List UInt8 := [69, 80, 69, 78, 67, 49, 0]

def nonceLen : ℕ := 12

/-- What encryption adds to the length of a file: the mark, a nonce and a tag. -/
def overhead : ℕ := magic.length + nonceLen + 16

/-- The bytes to store for a message, given the nonce drawn for it. -/
def encode (crypto : MessageCrypto) (nonce plaintext : List UInt8) : List UInt8 :=
  match crypto.key with
  | some key =>
    if crypto.enabled then magic ++ nonce ++ key.sealAppendTag nonce plaintext else plaintext
  | none => plaintext

/-- The message of a stored file. A file without the mark is its own plaintext. -/
def decode (crypto : MessageCrypto) (stored : List UInt8) : Option (List UInt8) :=
  if magic.isPrefixOf stored then
    match crypto.key with
    | none => none
    | some key =>
      let rest := stored.drop magic.length
      if rest.length < nonceLen then none
      else key.openInPlace (rest.take nonceLen) (rest.drop nonceLen)
  else some stored

end MessageCrypto

/-! ## The message files of a directory -/

/-- The `<id>.eml` files of a directory, by name. A name occurs once. -/
abbrev Mails : Type := AList fun _ : Uuid ↦ Mail

/-! ## The other files -/

/-- A file of a mailbox directory that is not a message. -/
inductive Sidecar
  /-- `<id>.flags` -/
  | flags (id : Uuid)
  /-- `<id>.uid` -/
  | uid (id : Uuid)
  /-- `<id>.modseq` -/
  | modseq (id : Uuid)
  /-- `.uidnext` -/
  | uidnext
  /-- `.modseqctr` -/
  | modseqctr
  /-- `.index` -/
  | index
  /-- `.uidvalidity` -/
  | uidvalidity
  /-- `.vanished` -/
  | vanished
  deriving DecidableEq

/-- What a file is read as. -/
@[reducible] def Content : Sidecar → Type
  | .flags _ => List Flag
  | .uid _ => UInt32
  | .modseq _ => ℕ
  | .uidnext => UInt32
  | .modseqctr => ℕ
  | .index => Text
  | .uidvalidity => UInt32
  | .vanished => List (UInt32 × ℕ)

abbrev Files : Type := (k : Sidecar) → Option (Content k)

structure Archive where
  mails : Mails
  files : Files
  /-- `<id>.deleted`: when the message was archived and from which mailbox. -/
  deleted : Uuid → Option (ℕ × Text)

/-- A mailbox directory, the temporary message files on their way into it and the archive its
messages may be moved to. -/
structure Dir where
  mails : Mails
  files : Files
  /-- The `.tmp` sibling of each file. -/
  temps : Files
  /-- `tmp/<id>.eml` -/
  staged : Uuid → Option Mail
  archive : Archive

namespace Dir

/-- A mailbox that has just been created. -/
def empty : Dir where
  mails := ∅
  files := fun _ ↦ none
  temps := fun _ ↦ none
  staged := fun _ ↦ none
  archive := ⟨∅, fun _ ↦ none, fun _ ↦ none⟩

def setFile (d : Dir) (k : Sidecar) (c : Option (Content k)) : Dir :=
  { d with files := Function.update d.files k c }

def setTemp (d : Dir) (k : Sidecar) (c : Option (Content k)) : Dir :=
  { d with temps := Function.update d.temps k c }

section

variable (d : Dir) (k : Sidecar) (c : Option (Content k))

@[simp] theorem setFile_files :
    (d.setFile k c).files = Function.update d.files k c := rfl

@[simp] theorem setFile_temps :
    (d.setFile k c).temps = d.temps := rfl

@[simp] theorem setFile_mails :
    (d.setFile k c).mails = d.mails := rfl

@[simp] theorem setTemp_files :
    (d.setTemp k c).files = d.files := rfl

@[simp] theorem setTemp_temps :
    (d.setTemp k c).temps = Function.update d.temps k c := rfl

@[simp] theorem setTemp_mails :
    (d.setTemp k c).mails = d.mails := rfl

end

end Dir

/-! ## File-system calls -/

structure Stat where
  len : ℕ
  modified : SystemTime

inductive Op
  /-- `fs::read` and parse. -/
  | read (k : Sidecar)
  /-- `fs::write` of the `.tmp` sibling. -/
  | writeTmp (k : Sidecar) (c : Content k)
  /-- `fs::rename` of the `.tmp` sibling into place. -/
  | rename (k : Sidecar)
  /-- `fs::write` in place. -/
  | write (k : Sidecar) (c : Content k)
  /-- `fs::remove_file` -/
  | remove (k : Sidecar)
  | appendVanished (uid : UInt32) (modseq : ℕ)
  /-- `fs::read_dir`, for the message files. -/
  | readDir
  /-- `fs::metadata` of a message file. -/
  | stat (id : Uuid)
  /-- Compare the first bytes of a message file with the encryption mark. -/
  | fileHasMagic (id : Uuid)
  /-- `fs::read` of a message file. -/
  | readMail (id : Uuid)
  /-- `fs::write` of `tmp/<id>.eml`. -/
  | stage (id : Uuid) (mail : Mail)
  /-- `fs::rename` of `tmp/<id>.eml` into the directory. -/
  | publish (id : Uuid)
  /-- `fs::remove_file` of a message file. -/
  | removeMail (id : Uuid)
  /-- `fs::write` of `<id>.deleted` in the archive. -/
  | archiveMark (id : Uuid) (now : ℕ) (mailbox : Text)
  /-- `fs::rename` of a file into the archive. -/
  | archiveFile (k : Sidecar)
  /-- `fs::rename` of a message file into the archive. -/
  | archiveMail (id : Uuid)

/-- What a call answers. For a call made for its effect this is whether it succeeded; moving a file
that is not there counts as success only when it is moved to the archive. -/
@[reducible] def Ans : Op → Type
  | .read k => Option (Content k)
  | .readDir => Option (List Uuid)
  | .stat _ => Option Stat
  | .readMail _ => Option (List UInt8)
  | _ => Bool

abbrev FileM : Type → Type := Prog Ans

abbrev call (o : Op) : FileM (Ans o) := Prog.op o

namespace Dir

/-- The effect of a call on a disk that reports no error, and its answer. -/
def exec : (o : Op) → Dir → Ans o × Dir
  | .read k, d => (d.files k, d)
  | .writeTmp k c, d => (true, d.setTemp k (some c))
  | .rename k, d =>
    match d.temps k with
    | some c => (true, (d.setTemp k none).setFile k (some c))
    | none => (false, d)
  | .write k c, d => (true, d.setFile k (some c))
  | .remove k, d => ((d.files k).isSome, d.setFile k none)
  | .appendVanished uid modseq, d =>
    (true, d.setFile .vanished (some ((d.files .vanished).getD [] ++ [(uid, modseq)])))
  | .readDir, d => (some d.mails.keys, d)
  | .stat id, d => ((d.mails.lookup id).map fun mail ↦ ⟨mail.stored.length, mail.mtime⟩, d)
  | .fileHasMagic id, d =>
    ((d.mails.lookup id).elim false fun mail ↦ MessageCrypto.magic.isPrefixOf mail.stored, d)
  | .readMail id, d => ((d.mails.lookup id).map Mail.stored, d)
  | .stage id mail, d => (true, { d with staged := Function.update d.staged id (some mail) })
  | .publish id, d =>
    match d.staged id with
    | some mail =>
      (true, { d with
        mails := d.mails.insert id mail
        staged := Function.update d.staged id none })
    | none => (false, d)
  | .removeMail id, d => ((d.mails.lookup id).isSome, { d with mails := d.mails.erase id })
  | .archiveMark id now mailbox, d =>
    (true, { d with archive := { d.archive with
      deleted := Function.update d.archive.deleted id (some (now, mailbox)) } })
  | .archiveFile k, d =>
    match d.files k with
    | some c =>
      (true, { d.setFile k none with archive := { d.archive with
        files := Function.update d.archive.files k (some c) } })
    | none => (true, d)
  | .archiveMail id, d =>
    match d.mails.lookup id with
    | some mail =>
      (true, { d with
        mails := d.mails.erase id
        archive := { d.archive with mails := d.archive.mails.insert id mail } })
    | none => (true, d)

/-! ### What a call leaves behind -/

variable {o : Op} {id : Uuid} {mail : Mail}

private theorem of_update_eq_some {f : (k : Sidecar) → Option (Content k)} {j k : Sidecar}
    {b : Option (Content j)} {c : Content k} (h : Function.update f j b k = some c) :
    f k = some c ∨ ∃ hjk : j = k, hjk ▸ b = some c := by
  by_cases hjk : j = k
  · subst hjk
    rw [update_self] at h
    exact .inr ⟨rfl, h⟩
  · rw [update_of_ne (Ne.symm hjk)] at h
    exact .inl h

/-- A file was there before, or the call renamed or wrote it. -/
theorem exec_files {d : Dir} {k : Sidecar} {c : Content k}
    (h : (exec o d).2.files k = some c) (hk : k ≠ .vanished) :
    d.files k = some c ∨ o = .rename k ∧ d.temps k = some c ∨ o = .write k c := by
  cases o with
  | rename j =>
    rw [exec] at h
    split at h
    next b hb =>
      rcases of_update_eq_some h with hold | ⟨rfl, hnew⟩
      · exact .inl hold
      · exact .inr (.inl ⟨rfl, hb.trans hnew⟩)
    next => exact .inl h
  | write j b =>
    rcases of_update_eq_some h with hold | ⟨rfl, hnew⟩
    · exact .inl hold
    · exact .inr (.inr (congrArg _ (Option.some.inj hnew)))
  | remove j =>
    rcases of_update_eq_some h with hold | ⟨rfl, hnew⟩
    · exact .inl hold
    · cases hnew
  | appendVanished uid modseq =>
    rw [exec, setFile_files, update_of_ne hk] at h
    exact .inl h
  | archiveFile j =>
    rw [exec] at h
    split at h
    next b hb =>
      rcases of_update_eq_some h with hold | ⟨rfl, hnew⟩
      · exact .inl hold
      · cases hnew
    next => exact .inl h
  | publish id | archiveMail id =>
    rw [exec] at h
    split at h <;> exact .inl h
  | _ => exact .inl h

/-- A temporary file was there before, or the call wrote it. -/
theorem exec_temps {d : Dir} {k : Sidecar} {c : Content k}
    (h : (exec o d).2.temps k = some c) : d.temps k = some c ∨ o = .writeTmp k c := by
  cases o with
  | writeTmp j b =>
    rcases of_update_eq_some h with hold | ⟨rfl, hnew⟩
    · exact .inl hold
    · exact .inr (congrArg _ (Option.some.inj hnew))
  | rename j =>
    rw [exec] at h
    split at h
    next b hb =>
      rcases of_update_eq_some h with hold | ⟨rfl, hnew⟩
      · exact .inl hold
      · cases hnew
    next => exact .inl h
  | archiveFile j | publish id | archiveMail id =>
    rw [exec] at h
    split at h <;> exact .inl h
  | _ => exact .inl h

private theorem lookup_of_lookup_erase {m : Mails} {j : Uuid}
    (h : (m.erase j).lookup id = some mail) : m.lookup id = some mail := by
  by_cases hj : id = j
  · subst hj
    rw [AList.lookup_erase] at h
    cases h
  · rwa [AList.lookup_erase_ne hj] at h

/-- A message file was there before, or the call published it. -/
theorem exec_mails {d : Dir} (h : (exec o d).2.mails.lookup id = some mail) :
    d.mails.lookup id = some mail ∨ o = .publish id ∧ d.staged id = some mail := by
  cases o with
  | rename j =>
    rw [exec] at h
    split at h <;> exact .inl h
  | publish j =>
    rw [exec] at h
    split at h
    next b hb =>
      by_cases hj : id = j
      · subst hj
        rw [AList.lookup_insert, Option.some.injEq] at h
        exact .inr ⟨rfl, hb.trans (by rw [h])⟩
      · rw [AList.lookup_insert_ne hj] at h
        exact .inl h
    next => exact .inl h
  | removeMail j => exact .inl (lookup_of_lookup_erase h)
  | archiveFile j =>
    rw [exec] at h
    split at h <;> exact .inl h
  | archiveMail j =>
    rw [exec] at h
    split at h
    · exact .inl (lookup_of_lookup_erase h)
    · exact .inl h
  | _ => exact .inl h

end Dir

end Epistle.Imap
