import Epistle.Imap.Replacing
import Epistle.Interleaving.Faults

/-!
# COPY and MOVE on a disk that fails

A COPY reads each message it matches and appends it to the target. A MOVE does the same and then
removes the messages from the selected mailbox. Any file-system call may fail, and then the command
gives up: it answers NO, and leaves everything as it is at that moment.

So a MOVE loses nothing. As long as it copies it removes nothing, and once it removes everything has
been copied; and the messages it takes out of the live snapshot are announced. But what had been
copied before a failure stays in the target. A refused command leaves the target as it was if and
only if it did not get to put the first message there (`copy_all_or_nothing_iff`).
-/

namespace Epistle.Imap

open TextFormat Interleaving
open Account (execAt_of_dirAt execAt)
open Prog (run_bind run_call_of_works run_call_of_fails only_op)
open Session (copyLoop matching moveLoop)

/-! ## Calls and message files -/

/-- The call does not add, remove or replace the file of a message in `ids`. -/
def Op.Spares (ids : Uuid → Prop) : Op → Prop
  | .publish id | .removeMail id | .archiveMail id => ¬ ids id
  | _ => True

/-- The same for a call in an account, in whatever mailbox. -/
def AccountOp.Spares (ids : Uuid → Prop) : AccountOp → Prop
  | .file _ o => o.Spares ids
  | .removeDirAll _ | .renameDir _ _ => False
  | _ => True

section

variable {ids : Uuid → Prop} {id : Uuid}

theorem Dir.lookup_exec_of_spares (hid : ids id) {o : Op} (ho : o.Spares ids) (d : Dir) :
    (Dir.exec o d).2.mails.lookup id = d.mails.lookup id := by
  cases o with
  | rename k | archiveFile k =>
    rw [Dir.exec]
    split <;> rfl
  | publish other =>
    rw [Dir.exec]
    split
    · refine AList.lookup_insert_ne ?_
      rintro rfl
      exact ho hid
    · rfl
  | removeMail other =>
    refine AList.lookup_erase_ne ?_
    rintro rfl
    exact ho hid
  | archiveMail other =>
    rw [Dir.exec]
    split
    · refine AList.lookup_erase_ne ?_
      rintro rfl
      exact ho hid
    · rfl
  | _ => rfl

theorem Account.folder_execMissing (o : Op) (a : Account) (path : Path) :
    (a.execMissing o).2.folder path = a.folder path := by
  cases o <;> cases path <;> rfl

theorem Account.mailsAt_setDir (a : Account) (path : Path) (d : Dir) (other : Path) :
    (a.setDir path d).mailsAt other = if other = path then d.mails else a.mailsAt other := by
  split
  next heq =>
    subst heq
    exact mailsAt_of_dirAt (a.dirAt_setDir_self other d)
  next hne => exact mailsAt_congr (a.folder_setDir_of_ne d hne)

theorem Account.lookup_exec_of_spares (hid : ids id) {o : AccountOp} (ho : o.Spares ids)
    (a : Account) (path : Path) :
    ((Account.exec o a).2.mailsAt path).lookup id = (a.mailsAt path).lookup id := by
  cases o with
  | file at' o =>
    change ((a.execAt at' o).2.mailsAt path).lookup id = _
    cases hd : a.dirAt at' with
    | none =>
      rw [execAt, Option.map_eq_none_iff.1 hd]
      exact congrArg (AList.lookup id) (mailsAt_congr (a.folder_execMissing o path))
    | some d =>
      rw [execAt_of_dirAt hd, mailsAt_setDir]
      split
      next heq =>
        subst heq
        rw [Dir.lookup_exec_of_spares hid ho, mailsAt_of_dirAt hd]
      next => rfl
  | createDirAll created => rw [mailsAt_createDirAll]
  | removeDirAll name | renameDir source target => cases ho
  | _ => rfl

/-! ### Programs -/

theorem spares_inMailbox {α : Type} {p : FileM α} (hp : p.Only (Op.Spares ids)) (path : Path) :
    (inMailbox path p).Only (AccountOp.Spares ids) := by
  induction p with
  | ret x => trivial
  | call o k ih => exact ⟨hp.1, fun r ↦ ih r (hp.2 r)⟩

theorem spares_of_looks {α : Type} {p : AccountM α} (hp : Looks p) :
    p.Only (AccountOp.Spares ids) := by
  refine hp.mono fun o ho ↦ ?_
  cases o with
  | file path o => cases o <;> trivial
  | _ => trivial

theorem spares_replaceFile (k : Sidecar) (c : Content k) : (replaceFile k c).Only (Op.Spares ids) :=
  only_replaceFile trivial trivial

theorem spares_openAt (crypto : MessageCrypto) (mailbox : Text) (retentionDays now : ℕ)
    (clock : SystemTime) : (Snapshot.openAt crypto mailbox retentionDays now clock).Only
      (Op.Spares ids) := by
  have hvalidity : (UidValidity.readOrInit clock).Only (Op.Spares ids) := by
    refine .bind ((only_op _).2 trivial) fun stored ↦ ?_
    split
    · trivial
    · exact ⟨trivial, fun _ ↦ trivial⟩
  have hscan : (scanMailbox crypto).Only (Op.Spares ids) := by
    refine (onlyUids_scanMailbox crypto).mono fun o ho ↦ ?_
    cases o <;> trivial
  have hgeneration : Index.currentGeneration.Only (Op.Spares ids) :=
    ⟨trivial, fun _ ↦ ⟨trivial, fun _ ↦ trivial⟩⟩
  have hload : ∀ generation, (Index.load generation).Only (Op.Spares ids) :=
    fun _ ↦ ⟨trivial, fun _ ↦ trivial⟩
  refine .bind hgeneration fun generation ↦ ?_
  refine .bind (hload generation) fun loaded ↦ ?_
  cases loaded with
  | some loaded => exact .bind hvalidity fun _ ↦ ⟨trivial, fun _ ↦ trivial⟩
  | none =>
    refine .bind hscan fun scanned ↦ ?_
    cases scanned with
    | none => trivial
    | some scanned =>
      refine ⟨trivial, fun _ ↦ ⟨trivial, fun _ ↦ ?_⟩⟩
      exact .bind (spares_replaceFile _ _) fun _ ↦ .bind hvalidity fun _ ↦ trivial

theorem spares_appenduid (mailbox : Text) (new : Uuid) (clock : SystemTime) :
    (appenduid mailbox new clock).Only (AccountOp.Spares ids) := by
  refine .bind ?_ fun opened ↦ ?_
  · rw [openMailbox]
    split
    · trivial
    · exact spares_inMailbox (spares_openAt _ _ _ _ _) _
  · cases opened <;> trivial

theorem spares_destUids (target : Text) (clock : SystemTime) (new : List Uuid) (validity : UInt32) :
    (destUids target clock new validity).Only (AccountOp.Spares ids) := by
  induction new generalizing validity with
  | nil => trivial
  | cons first new ih =>
    refine .bind (spares_appenduid target first clock) fun found ↦ ?_
    cases found with
    | none => trivial
    | some entry =>
      refine .bind (ih entry.1) fun rest ↦ ?_
      cases rest <;> trivial

theorem spares_copyuidCode (target : Text) (clock : SystemTime) (sourceUids : List UInt32)
    (destIds : List Uuid) :
    (copyuidCode target clock sourceUids destIds).Only (AccountOp.Spares ids) := by
  rw [copyuidCode]
  split
  · trivial
  · refine .bind (spares_destUids target clock destIds 0) fun found ↦ ?_
    cases found with
    | none => trivial
    | some entry =>
      dsimp only
      split <;> trivial

/-- An append touches the file of the new message only. -/
theorem spares_appendTo (crypto : MessageCrypto) (mailbox : Text) (flags : List Flag)
    (data : List UInt8) {stamp : Stamp} (hstamp : ¬ ids stamp.id) :
    (appendTo crypto mailbox flags data stamp).Only (AccountOp.Spares ids) := by
  rw [appendTo]
  split
  · trivial
  · refine .bind ((only_op _).2 trivial) fun created ↦ ?_
    split
    · exact spares_inMailbox (only_append trivial hstamp trivial trivial) _
    · trivial

theorem spares_copyLoop (crypto : MessageCrypto) {env : Env} (snapshot : Snapshot) (target : Text)
    {k : ℕ} {messages : List MessageRef} (hnew : ∀ new ∈ env.drawn k messages.length, ¬ ids new) :
    (copyLoop crypto env.stamp snapshot target k messages).Only (AccountOp.Spares ids) := by
  induction messages generalizing k with
  | nil => trivial
  | cons message messages ih =>
    rw [List.length_cons, Env.drawn_succ] at hnew
    refine .bind (spares_of_looks (looks_read snapshot message)) fun data ↦ ?_
    cases data with
    | none => trivial
    | some data =>
      refine .bind (spares_appendTo _ _ _ _ (hnew _ List.mem_cons_self)) fun stored ↦ ?_
      cases stored with
      | none => trivial
      | some new =>
        refine .bind (ih fun other hother ↦ hnew other (List.mem_cons_of_mem _ hother)) ?_
        intro rest
        cases rest <;> trivial

theorem spares_removeAt {snapshot : Snapshot} (hids : ∀ shown ∈ snapshot.ids, ¬ ids shown)
    (sequence : ℕ) : (snapshot.removeAt sequence).Only (Op.Spares ids) := by
  rw [Snapshot.removeAt]
  split
  · trivial
  · split
    · trivial
    next message hmessage =>
      have hshown : ¬ ids message.id := hids _ (List.mem_map_of_mem (List.mem_of_getElem? hmessage))
      refine .bind ((only_removeFiles snapshot _).mono fun o ho ↦ ?_) fun _ ↦
        Prog.Only.bind ((only_recordAdvancing _).mono fun o ho ↦ ?_) fun _ ↦ trivial
      · cases ho <;> first | exact hshown | trivial
      · cases ho <;> trivial

theorem returns_removeAt_subset (snapshot : Snapshot) (sequence : ℕ) :
    (snapshot.removeAt sequence).Returns fun r ↦ r.2.ids ⊆ snapshot.ids := by
  refine (SequenceSync.returns_removeAt_spec snapshot sequence).mono fun r hr ↦ ?_
  split at hr
  · rw [SequenceSync.ids_of_eraseIdx hr.2]
    exact List.eraseIdx_subset
  · rw [hr]
    exact .refl _

theorem spares_moveLoop {snapshot : Snapshot} (hids : ∀ shown ∈ snapshot.ids, ¬ ids shown)
    (offset : ℕ) (numbers : List ℕ) :
    (moveLoop offset numbers snapshot).Only (Op.Spares ids) := by
  induction numbers generalizing offset snapshot with
  | nil => trivial
  | cons n numbers ih =>
    refine Prog.Only.bind_of_returns (spares_removeAt hids _) (returns_removeAt_subset snapshot _)
      fun r hr ↦ ?_
    dsimp only
    split
    · exact .bind (ih (fun shown hshown ↦ hids shown (hr hshown)) _) fun _ ↦ trivial
    · trivial

end

/-! ## A disk that fails -/

/-- What a call answers that fails. -/
def Ans.failed : (o : Op) → Ans o
  | .read _ => none
  | .readDir => none
  | .stat _ => none
  | .readMail _ => none
  | .writeTmp _ _ => false
  | .rename _ => false
  | .write _ _ => false
  | .remove _ => false
  | .appendVanished _ _ => false
  | .fileHasMagic _ => false
  | .stage _ _ => false
  | .publish _ => false
  | .removeMail _ => false
  | .archiveMark _ _ _ => false
  | .archiveFile _ => false
  | .archiveMail _ => false

def AccountAns.failed : (o : AccountOp) → AccountAns o
  | .file _ o => Ans.failed o
  | .isDir _ => false
  | .createDirAll _ => false
  | .removeDirAll _ => false
  | .renameDir _ _ => false
  | .readFolders => []
  | .readArchive => []
  | .statArchived _ => none
  | .archivedHasMagic _ => false

namespace Copying

/-- The account on a disk whose `n`-th call fails if `fails n`. -/
abbrev disk (fails : ℕ → Bool) : (o : AccountOp) → Account × ℕ → AccountAns o × (Account × ℕ) :=
  faulty Account.exec AccountAns.failed fails

/-- Messages in `ids` stay as they are while the calls spare them. -/
def Stays (ids : Uuid → Prop) (a : Account) (state : Account × ℕ) : Prop :=
  ∀ path id, ids id → (state.1.mailsAt path).lookup id = (a.mailsAt path).lookup id

section

variable {fails : ℕ → Bool} {ids : Uuid → Prop} {a : Account}

theorem Stays.refl (n : ℕ) : Stays ids a (a, n) := fun _ _ _ ↦ rfl

variable {a' : Account} {o : AccountOp}

theorem Stays.exec {n : ℕ} (ho : o.Spares ids)
    (h : Stays ids a (a', n)) (m : ℕ) : Stays ids a ((Account.exec o a').2, m) :=
  fun path id hid ↦ (Account.lookup_exec_of_spares hid ho a' path).trans (h path id hid)

theorem Stays.call {state : Account × ℕ} (ho : o.Spares ids)
    (h : Stays ids a state) : Stays ids a (disk fails o state).2 := by
  exact Prog.preserves_faulty (I := fun a' ↦ Stays ids a (a', 0)) (fun a' ha' ↦ ha'.exec ho 0) h

section

variable {state : Account × ℕ} {α : Type} {p : AccountM α} (hp : p.Only (AccountOp.Spares ids))
  (h : Stays ids a state)
include hp h

theorem Stays.run : Stays ids a (p.run (disk fails) state).2 :=
  Prog.run_preserves (disk fails) (fun _ _ ho hs ↦ Stays.call ho hs) hp h

theorem Stays.throughout : p.Throughout (disk fails) (Stays ids a) state :=
  hp.throughout (fun _ _ ho hs ↦ Stays.call ho hs) h

end

/-! ### Reading and appending -/

def body (a : Account) (snapshot : Snapshot) (message : MessageRef) : Option (List UInt8) :=
  ((a.mailsAt snapshot.path).lookup message.id).bind fun mail ↦ snapshot.crypto.decode mail.stored

theorem run_read (fails : ℕ → Bool) (a : Account) (snapshot : Snapshot) (message : MessageRef)
    (n : ℕ) :
    ∃ a₁, (snapshot.read message).run (disk fails) (a, n) =
        (if fails n then none else body a snapshot message, (a₁, n + 1)) ∧
      Stays (fun _ ↦ True) a (a₁, n + 1) := by
  have hcall : snapshot.read message = .call (.file snapshot.path (.readMail message.id))
      fun stored ↦ .ret (stored.bind snapshot.crypto.decode) := rfl
  rw [hcall]
  cases hfails : fails n with
  | true =>
    rw [run_call_of_fails hfails]
    exact ⟨a, rfl, .refl _⟩
  | false =>
    rw [run_call_of_works hfails]
    refine ⟨_, Prod.ext ?_ rfl,
      (Stays.refl n).exec (o := .file snapshot.path (.readMail message.id)) trivial _⟩
    change ((a.execAt snapshot.path (.readMail message.id)).1).bind snapshot.crypto.decode =
      body a snapshot message
    cases hd : a.dirAt snapshot.path with
    | none =>
      have hfolder := Option.map_eq_none_iff.1 hd
      rw [execAt, hfolder, body, Account.mailsAt_of_folder_none hfolder]
      rfl
    | some d =>
      rw [execAt_of_dirAt hd, body, Account.mailsAt_of_dirAt hd]
      change ((d.mails.lookup message.id).map Mail.stored).bind _ = _
      cases d.mails.lookup message.id <;> rfl

/-- The program of an append once the message is in its mailbox. -/
def flagsWritten (target : Path) (id : Uuid) (flags : List Flag) : AccountM (Option Uuid) :=
  if flags.isEmpty then .ret (some id) else
  .call (.file target (.writeTmp (.flags id) flags)) fun written ↦ if written then
    .call (.file target (.rename (.flags id))) fun renamed ↦
      if renamed then .ret (some id) else .ret none
  else .ret none

section

variable {mailbox : Text} {target : Path} (htarget : mailboxDir mailbox = some target)
  (crypto : MessageCrypto) (flags : List Flag) (data : List UInt8) (stamp : Stamp)
include htarget

theorem appendTo_eq :
    appendTo crypto mailbox flags data stamp =
      .call (.createDirAll target) fun created ↦ if created then
        .call (.file target (.stage stamp.id ⟨crypto.encode stamp.nonce data, stamp.mtime⟩))
          fun staged ↦ if staged then
            .call (.file target (.publish stamp.id)) fun published ↦
              if published then flagsWritten target stamp.id flags else .ret none
          else .ret none
      else .ret none := by
  rw [appendTo, htarget]
  refine congrArg (Prog.call _) (funext fun created ↦ ?_)
  cases created with
  | false => rfl
  | true =>
    refine congrArg (Prog.call _) (funext fun staged ↦ ?_)
    cases staged with
    | false => rfl
    | true =>
      refine congrArg (Prog.call _) (funext fun published ↦ ?_)
      cases published with
      | false => rfl
      | true =>
        cases flags with
        | nil => rfl
        | cons flag flags =>
          refine congrArg (Prog.call _) (funext fun written ↦ ?_)
          cases written with
          | false => rfl
          | true =>
            refine congrArg (Prog.call _) (funext fun renamed ↦ ?_)
            cases renamed <;> rfl

theorem run_appendTo_of_fails {n : ℕ} (h : ∃ i < 3, fails (n + i) = true) :
    ((appendTo crypto mailbox flags data stamp).run (disk fails) (a, n)).1 = none ∧
      Stays (fun _ ↦ True) a
        ((appendTo crypto mailbox flags data stamp).run (disk fails) (a, n)).2 := by
  rw [appendTo_eq htarget]
  cases h₀ : fails n with
  | true =>
    rw [run_call_of_fails h₀]
    exact ⟨rfl, .refl _⟩
  | false =>
    have hcreated := (Stays.refl n : Stays (fun _ ↦ True) a (a, n)).exec (o := .createDirAll target)
      trivial (n + 1)
    rw [run_call_of_works h₀]
    split
    · cases h₁ : fails (n + 1) with
      | true =>
        rw [run_call_of_fails h₁]
        exact ⟨rfl, hcreated⟩
      | false =>
        have hstaged := hcreated.exec (o := .file target (.stage stamp.id
          ⟨crypto.encode stamp.nonce data, stamp.mtime⟩)) trivial (n + 2)
        have h₂ : fails (n + 2) = true := by
          obtain ⟨i, hi, hfails⟩ := h
          interval_cases i
          · exact absurd hfails (by simp [h₀])
          · exact absurd hfails (by simp [h₁])
          · exact hfails
        rw [run_call_of_works h₁]
        split
        · rw [run_call_of_fails h₂]
          exact ⟨rfl, hstaged⟩
        · exact ⟨rfl, hstaged⟩
    · exact ⟨rfl, hcreated⟩

/-- An append gets the message into the mailbox if its first three calls work. -/
theorem exists_run_appendTo {n : ℕ} (h : ∀ i < 3, fails (n + i) = false) :
    ∃ a' d', (appendTo crypto mailbox flags data stamp).run (disk fails) (a, n) =
        (flagsWritten target stamp.id flags).run (disk fails) (a', n + 3) ∧
      a'.dirAt target = some d' ∧
      d'.mails.lookup stamp.id = some ⟨crypto.encode stamp.nonce data, stamp.mtime⟩ := by
  obtain ⟨d, hd⟩ := a.exists_dirAt_createDirAll target
  set mail : Mail := ⟨crypto.encode stamp.nonce data, stamp.mtime⟩
  set a₁ := (Account.exec (.createDirAll target) a).2 with ha₁
  have hcreate : Account.exec (.createDirAll target) a = (true, a₁) := rfl
  set d₂ := (Dir.exec (.stage stamp.id mail) d).2 with hd₂
  have hstage : Account.exec (.file target (.stage stamp.id mail)) a₁ =
      (true, a₁.setDir target d₂) := execAt_of_dirAt hd _
  obtain ⟨d₃, hpublish, hmail⟩ : ∃ d₃, Dir.exec (.publish stamp.id) d₂ = (true, d₃) ∧
      d₃.mails.lookup stamp.id = some mail := by
    have hstaged : d₂.staged stamp.id = some mail := Function.update_self _ _ _
    rw [Dir.exec, hstaged]
    exact ⟨_, rfl, AList.lookup_insert _⟩
  have hpublished : Account.exec (.file target (.publish stamp.id)) (a₁.setDir target d₂) =
      (true, (a₁.setDir target d₂).setDir target d₃) := by
    change execAt target (.publish stamp.id) (a₁.setDir target d₂) = _
    rw [execAt_of_dirAt (a₁.dirAt_setDir_self target d₂), hpublish]
  refine ⟨_, d₃, ?_, Account.dirAt_setDir_self (a₁.setDir target d₂) target d₃, hmail⟩
  have h₀ : fails n = false := h 0 (by omega)
  rw [appendTo_eq htarget, run_call_of_works h₀, hcreate]
  dsimp only
  rw [if_pos rfl, run_call_of_works (h 1 (by omega)), hstage]
  dsimp only
  rw [if_pos rfl, run_call_of_works (h 2 (by omega)), hpublished]
  rfl

omit htarget in
theorem run_flagsWritten (fails : ℕ → Bool) {d : Dir} (hd : a.dirAt target = some d)
    (id : Uuid) (n : ℕ) :
    ((flagsWritten target id flags).run (disk fails) (a, n)).1 =
        (if flags.isEmpty ∨ fails n = false ∧ fails (n + 1) = false then some id else none) ∧
      (((flagsWritten target id flags).run (disk fails) (a, n)).1 = some id →
        ((flagsWritten target id flags).run (disk fails) (a, n)).2.2 =
          if flags.isEmpty then n else n + 2) := by
  rw [flagsWritten]
  by_cases hempty : flags.isEmpty = true
  · rw [if_pos hempty, if_pos (.inl hempty), if_pos hempty]
    exact ⟨rfl, fun _ ↦ rfl⟩
  · have hwrite : Account.exec (.file target (.writeTmp (.flags id) flags)) a =
        (true, a.setDir target (d.setTemp (.flags id) (some flags))) := execAt_of_dirAt hd _
    have hrename : (Account.exec (.file target (.rename (.flags id)))
        (a.setDir target (d.setTemp (.flags id) (some flags)))).1 = true := by
      change (execAt target (.rename (.flags id)) _).1 = true
      have htemp : (d.setTemp (.flags id) (some flags)).temps (.flags id) = some flags :=
        Function.update_self _ _ _
      rw [execAt_of_dirAt (a.dirAt_setDir_self target _), Dir.exec, htemp]
    rw [if_neg hempty]
    cases h₀ : fails n with
    | true =>
      rw [run_call_of_fails h₀]
      exact ⟨(if_neg (by simpa using hempty)).symm, fun h ↦ by cases h⟩
    | false =>
      rw [run_call_of_works h₀, hwrite]
      dsimp only
      rw [if_pos rfl]
      cases h₁ : fails (n + 1) with
      | true =>
        rw [run_call_of_fails h₁]
        exact ⟨(if_neg (by simpa using hempty)).symm, fun h ↦ by cases h⟩
      | false =>
        rw [run_call_of_works h₁, hrename, if_pos rfl, if_pos (.inr ⟨rfl, rfl⟩), if_neg hempty]
        exact ⟨rfl, fun _ ↦ rfl⟩

/-- An append that puts the message into the mailbox. It may still fail to write the flags. -/
theorem run_appendTo_of_works {n : ℕ} (h : ∀ i < 3, fails (n + i) = false) :
    (((appendTo crypto mailbox flags data stamp).run (disk fails) (a, n)).2.1.mailsAt target).lookup
        stamp.id = some ⟨crypto.encode stamp.nonce data, stamp.mtime⟩ ∧
      ((appendTo crypto mailbox flags data stamp).run (disk fails) (a, n)).1 =
        (if flags.isEmpty ∨ fails (n + 3) = false ∧ fails (n + 4) = false then some stamp.id
          else none) ∧
      (((appendTo crypto mailbox flags data stamp).run (disk fails) (a, n)).1 = some stamp.id →
        ((appendTo crypto mailbox flags data stamp).run (disk fails) (a, n)).2.2 =
          if flags.isEmpty then n + 3 else n + 5) := by
  obtain ⟨a', d', hrun, hd', hmail⟩ :=
    exists_run_appendTo (a := a) htarget crypto flags data stamp h
  obtain ⟨hfst, hcount⟩ := run_flagsWritten flags fails hd' stamp.id (n + 3)
  rw [hrun]
  refine ⟨?_, hfst, hcount⟩
  have hstays : Stays (fun _ ↦ True) a' ((flagsWritten target stamp.id flags).run (disk fails)
      (a', n + 3)).2 := by
    refine Stays.run ?_ (.refl _)
    rw [flagsWritten]
    split
    · trivial
    · refine ⟨trivial, fun written ↦ ?_⟩
      cases written with
      | false => trivial
      | true =>
        refine ⟨trivial, fun renamed ↦ ?_⟩
        cases renamed <;> trivial
  rw [hstays target stamp.id trivial, Account.mailsAt_of_dirAt hd', hmail]

end

/-! ### Copying -/

/-- The number of calls that it takes to copy a message. -/
def calls (message : MessageRef) : ℕ := if message.flags.isEmpty then 4 else 6

/-- The message can be read, and no call of copying it fails, the first of them being the `n`-th. -/
def Copied (fails : ℕ → Bool) (a : Account) (snapshot : Snapshot) (n : ℕ) (message : MessageRef) :
    Prop :=
  (body a snapshot message).isSome ∧ ∀ i < calls message, fails (n + i) = false

/-- This is so for all the messages, one after the other. -/
def AllCopied (fails : ℕ → Bool) (a : Account) (snapshot : Snapshot) : ℕ → List MessageRef → Prop
  | _, [] => True
  | n, message :: rest =>
    Copied fails a snapshot n message ∧ AllCopied fails a snapshot (n + calls message) rest

/-- The message does not get into the target: it cannot be read, or one of the calls up to the one
that puts it there fails. -/
def KeptOut (fails : ℕ → Bool) (a : Account) (snapshot : Snapshot) (n : ℕ) (message : MessageRef) :
    Prop :=
  body a snapshot message = none ∨ ∃ i < 4, fails (n + i) = true

theorem AllCopied.congr {snapshot : Snapshot} {n : ℕ} {messages : List MessageRef}
    (h : ∀ message ∈ messages, body a' snapshot message = body a snapshot message) :
    AllCopied fails a' snapshot n messages ↔ AllCopied fails a snapshot n messages := by
  induction messages generalizing n with
  | nil => rfl
  | cons message rest ih =>
    rw [AllCopied, AllCopied, Copied, Copied, h message List.mem_cons_self,
      ih fun other hother ↦ h other (List.mem_cons_of_mem _ hother)]

section

variable (crypto : MessageCrypto) (env : Env) {snapshot : Snapshot} {target : Text} {path : Path}
  (k : ℕ) {n : ℕ} {message : MessageRef} (rest : List MessageRef)

theorem run_copyLoop_of_keptOut (htarget : mailboxDir target = some path)
    (h : KeptOut fails a snapshot n message) :
    ∃ error, ((copyLoop crypto env.stamp snapshot target k (message :: rest)).run
        (disk fails) (a, n)).1 = .error error ∧
      Stays (fun _ ↦ True) a ((copyLoop crypto env.stamp snapshot target k
        (message :: rest)).run (disk fails) (a, n)).2 := by
  obtain ⟨a₁, hread, hstays⟩ := run_read fails a snapshot message n
  rw [copyLoop, run_bind, hread]
  cases hfails : fails n with
  | true => exact ⟨_, rfl, hstays⟩
  | false =>
    rw [if_neg Bool.false_ne_true]
    cases hbody : body a snapshot message with
    | none => exact ⟨_, rfl, hstays⟩
    | some data =>
      have hlater : ∃ i < 3, fails (n + 1 + i) = true := by
        rcases h with hnone | ⟨i, hi, hi'⟩
        · rw [hbody] at hnone
          cases hnone
        · cases i with
          | zero => exact absurd hi' (by simp [hfails])
          | succ i => exact ⟨i, by omega, by rwa [Nat.add_assoc, Nat.add_comm 1]⟩
      obtain ⟨hnone, hafter⟩ := run_appendTo_of_fails (a := a₁) htarget crypto message.flags data
        (env.stamp k) hlater
      dsimp only
      rw [run_bind, hnone]
      refine ⟨_, rfl, fun path id hid ↦ ?_⟩
      exact (hafter path id hid).trans (hstays path id hid)

theorem not_keptOut_iff : ¬ KeptOut fails a snapshot n message ↔
    (∃ data, body a snapshot message = some data) ∧ ∀ i < 4, fails (n + i) = false := by
  rw [KeptOut, not_or, ← Option.ne_none_iff_exists']
  simp

theorem copied_iff {data : List UInt8} (hbody : body a snapshot message = some data)
    (h : ∀ i < 4, fails (n + i) = false) : Copied fails a snapshot n message ↔
      message.flags.isEmpty ∨ fails (n + 4) = false ∧ fails (n + 5) = false := by
  rw [Copied, calls, hbody]
  by_cases hempty : message.flags.isEmpty = true
  · rw [if_pos hempty]
    exact iff_of_true ⟨rfl, h⟩ (.inl hempty)
  · rw [if_neg hempty]
    constructor
    · intro hcopied
      exact .inr ⟨hcopied.2 4 (by omega), hcopied.2 5 (by omega)⟩
    · rintro (hcontra | ⟨h₄, h₅⟩)
      · exact absurd hcontra hempty
      · refine ⟨rfl, fun i hi ↦ ?_⟩
        by_cases hi' : i < 4
        · exact h i hi'
        · obtain rfl | rfl : i = 4 ∨ i = 5 := by omega
          · exact h₄
          · exact h₅

/-- The first message is put into the target. If its flags are written too, the others follow. -/
theorem run_copyLoop_of_put (htarget : mailboxDir target = some path) {data : List UInt8}
    (hbody : body a snapshot message = some data) (h : ∀ i < 4, fails (n + i) = false) :
    ∃ state, Stays (· ≠ (env.stamp k).id) a state ∧
      (state.1.mailsAt path).lookup (env.stamp k).id =
        some ⟨crypto.encode (env.stamp k).nonce data, (env.stamp k).mtime⟩ ∧
      (Copied fails a snapshot n message → state.2 = n + calls message ∧
        (copyLoop crypto env.stamp snapshot target k (message :: rest)).run (disk fails)
            (a, n) =
          (((copyLoop crypto env.stamp snapshot target (k + 1) rest).run (disk fails)
              state).1.map ((env.stamp k).id :: ·),
            ((copyLoop crypto env.stamp snapshot target (k + 1) rest).run (disk fails)
              state).2)) ∧
      (¬ Copied fails a snapshot n message →
        (copyLoop crypto env.stamp snapshot target k (message :: rest)).run (disk fails)
            (a, n) = (.error "copy failed", state)) := by
  obtain ⟨a₁, hread, hstays⟩ := run_read fails a snapshot message n
  have h₀ : ¬ fails n = true := by simpa using h 0 (by omega)
  have hlater : ∀ i < 3, fails (n + 1 + i) = false := by
    intro i hi
    rw [Nat.add_assoc, Nat.add_comm 1]
    exact h (i + 1) (by omega)
  obtain ⟨hmail, hfst, hcount⟩ := run_appendTo_of_works (a := a₁) htarget crypto message.flags data
    (env.stamp k) hlater
  have hafter : Stays (· ≠ (env.stamp k).id) a₁ ((appendTo crypto target message.flags data
      (env.stamp k)).run (disk fails) (a₁, n + 1)).2 :=
    Stays.run (spares_appendTo _ _ _ _ fun hne ↦ hne rfl) (.refl _)
  have hcopied := copied_iff hbody h
  rw [copyLoop, run_bind, hread, if_neg h₀, hbody]
  dsimp only
  rw [run_bind]
  generalize (appendTo crypto target message.flags data (env.stamp k)).run (disk fails)
    (a₁, n + 1) = r at hmail hfst hcount hafter ⊢
  obtain ⟨stored, state⟩ := r
  dsimp only at hmail hfst hcount hafter ⊢
  refine ⟨state, fun path id hid ↦ ?_, hmail, fun hyes ↦ ?_, fun hno ↦ ?_⟩
  · exact (hafter path id hid).trans (hstays path id trivial)
  · rw [if_pos (hcopied.1 hyes)] at hfst
    subst hfst
    refine ⟨?_, ?_⟩
    · rw [hcount rfl, calls]
      split <;> omega
    · dsimp only
      rw [run_bind]
      cases ((copyLoop crypto env.stamp snapshot target (k + 1) rest).run (disk fails)
        state).1 <;> rfl
  · rw [if_neg fun hyes ↦ hno (hcopied.2 hyes)] at hfst
    subst hfst
    rfl

variable {env k rest}

/-- What was put there first stays there to the end. -/
theorem lookup_copyLoop_of_put (htarget : mailboxDir target = some path) {data : List UInt8}
    (hbody : body a snapshot message = some data) (h : ∀ i < 4, fails (n + i) = false)
    (hnodup : (env.drawn k (message :: rest).length).Nodup) :
    (((copyLoop crypto env.stamp snapshot target k (message :: rest)).run (disk fails)
        (a, n)).2.1.mailsAt path).lookup (env.stamp k).id =
      some ⟨crypto.encode (env.stamp k).nonce data, (env.stamp k).mtime⟩ := by
  obtain ⟨state, -, hmail, hyes, hno⟩ := run_copyLoop_of_put crypto env k rest htarget hbody h
  rw [List.length_cons, Env.drawn_succ, List.nodup_cons] at hnodup
  by_cases hcopied : Copied fails a snapshot n message
  · have hstays : Stays (· = (env.stamp k).id) state.1 ((copyLoop crypto env.stamp snapshot
        target (k + 1) rest).run (disk fails) state).2 := by
      refine Stays.run (spares_copyLoop crypto snapshot target fun new hnew heq ↦ ?_) (.refl _)
      rw [heq] at hnew
      exact hnodup.1 hnew
    rw [(hyes hcopied).2, hstays path _ rfl, hmail]
  · rw [hno hcopied, hmail]

theorem Stays.body {new : Uuid} {state : Account × ℕ} (h : Stays (· ≠ new) a state)
    (hmessage : message.id ≠ new) : body state.1 snapshot message = body a snapshot message := by
  rw [Copying.body, h snapshot.path message.id hmessage, Copying.body]

/-- **The copying succeeds if and only if every message is copied**, and then all of them are in the
target. -/
theorem copyLoop_iff (fails : ℕ → Bool) (a : Account) (snapshot : Snapshot) (n : ℕ)
    (htarget : mailboxDir target = some path) {messages : List MessageRef}
    (hnodup : (env.drawn k messages.length).Nodup)
    (hfresh : ∀ message ∈ messages, message.id ∉ env.drawn k messages.length) :
    (AllCopied fails a snapshot n messages →
      (∃ ids, ((copyLoop crypto env.stamp snapshot target k messages).run (disk fails)
        (a, n)).1 = .ok ids) ∧
      ∀ message ∈ messages, ∃ data id nonce mtime, body a snapshot message = some data ∧
        id ∈ env.drawn k messages.length ∧
        (((copyLoop crypto env.stamp snapshot target k messages).run (disk fails)
          (a, n)).2.1.mailsAt path).lookup id = some ⟨crypto.encode nonce data, mtime⟩) ∧
    (¬ AllCopied fails a snapshot n messages →
      ∃ error, ((copyLoop crypto env.stamp snapshot target k messages).run (disk fails)
        (a, n)).1 = .error error) := by
  induction messages generalizing a n k with
  | nil => exact ⟨fun _ ↦ ⟨⟨[], rfl⟩, fun _ h ↦ by cases h⟩, fun h ↦ absurd trivial h⟩
  | cons message rest ih =>
    by_cases hkept : KeptOut fails a snapshot n message
    · obtain ⟨error, herror, -⟩ := run_copyLoop_of_keptOut crypto env k rest htarget hkept
      refine ⟨fun hall ↦ ?_, fun _ ↦ ⟨error, herror⟩⟩
      rcases hkept with hnone | ⟨i, hi, hfails⟩
      · have hread := hall.1.1
        rw [hnone] at hread
        cases hread
      · have hworks := hall.1.2 i (by rw [calls]; split <;> omega)
        rw [hfails] at hworks
        cases hworks
    · obtain ⟨⟨data, hbody⟩, hworks⟩ := not_keptOut_iff.1 hkept
      obtain ⟨⟨a₁, m⟩, hstays, hmail, hyes, hno⟩ :=
        run_copyLoop_of_put crypto env k rest htarget hbody hworks
      have hput := lookup_copyLoop_of_put crypto htarget hbody hworks hnodup
      rw [List.length_cons, Env.drawn_succ] at hnodup hfresh ⊢
      by_cases hcopied : Copied fails a snapshot n message
      · obtain ⟨hcount, hrun⟩ := hyes hcopied
        obtain rfl : m = n + calls message := hcount
        have hothers : ∀ other ∈ rest, body a₁ snapshot other = body a snapshot other := by
          intro other hother
          refine hstays.body fun heq ↦ hfresh other (List.mem_cons_of_mem _ hother) ?_
          rw [heq]
          exact List.mem_cons_self
        obtain ⟨hall, herror⟩ := ih a₁ (n + calls message) (List.nodup_cons.1 hnodup).2
          fun other hother hmem ↦ hfresh other (List.mem_cons_of_mem _ hother)
            (List.mem_cons_of_mem _ hmem)
        rw [AllCopied.congr hothers] at hall herror
        rw [hrun] at hput ⊢
        refine ⟨fun h ↦ ?_, fun h ↦ ?_⟩
        · obtain ⟨⟨ids, hids⟩, hcopies⟩ := hall h.2
          refine ⟨⟨(env.stamp k).id :: ids, congrArg (Except.map _) hids⟩, fun other hother ↦ ?_⟩
          rcases List.mem_cons.1 hother with rfl | hother
          · exact ⟨data, _, _, _, hbody, List.mem_cons_self, hput⟩
          · obtain ⟨data', id, nonce, mtime, hbody', hid, hlookup⟩ := hcopies other hother
            exact ⟨data', id, nonce, mtime, (hothers other hother).symm.trans hbody',
              List.mem_cons_of_mem _ hid, hlookup⟩
        · obtain ⟨error, hrest⟩ := herror fun hrest ↦ h ⟨hcopied, hrest⟩
          exact ⟨error, congrArg (Except.map _) hrest⟩
      · exact ⟨fun h ↦ absurd h.1 hcopied, fun _ ↦ ⟨_, by rw [hno hcopied]⟩⟩

end

end

/-! ## The commands -/

def refuses : Response → Bool
  | .tagged _ .no _ | .tagged _ .bad _ => true
  | _ => false

structure Announced (s : Session) (responses : List Response) (s' : Session) : Prop where
  /-- A client that follows the EXPUNGE responses arrives at the live snapshot. -/
  expunged : s.uidonly = false →
    responses.foldl (SequenceSync.receive s'.ids) s.ids = s'.ids
  /-- The UIDs of the messages that are gone are in a VANISHED response. -/
  vanished : s.uidonly = true → ∀ snapshot left, s.snapshot? = some snapshot →
    s'.snapshot? = some left → ∀ message ∈ snapshot.messages, message ∉ left.messages →
      ∃ uids, Response.vanished false uids ∈ responses ∧ message.uid ∈ uids

section

variable (fails : ℕ → Bool) (env : Env) (tag : Text) (sequence : SequenceSet) (target : Text)
  (uid removeSource : Bool) (s : Session) (a : Account)

/-- The messages that the command matches. -/
def matched : List MessageRef :=
  s.snapshot?.elim [] fun snapshot ↦
    (matching snapshot sequence uid (s.savedSeqnosFor uid)).map Prod.snd

def after : (Output × Session) × (Account × ℕ) :=
  (s.copy env tag sequence target uid removeSource).run (disk fails) (a, 0)

/-- The message is in the selected mailbox, or its text is in the target. -/
def Somewhere (snapshot : Snapshot) (message : MessageRef) (mail : Mail) (state : Account × ℕ) :
    Prop :=
  (state.1.mailsAt snapshot.path).lookup message.id = some mail ∨
    ∃ path data id nonce mtime, mailboxDir target = some path ∧
      snapshot.crypto.decode mail.stored = some data ∧
      (state.1.mailsAt path).lookup id = some ⟨s.crypto.encode nonce data, mtime⟩

/-- A COPY or MOVE is all or nothing, and a MOVE is lossless. -/
structure AllOrNothing : Prop where
  nothing : (after fails env tag sequence target uid removeSource s a).1.1.responses.any refuses =
      true → ∀ path, mailboxDir target = some path → ∀ id,
    ((after fails env tag sequence target uid removeSource s a).2.1.mailsAt path).lookup id =
      (a.mailsAt path).lookup id
  /-- At every point a message that was there is somewhere. -/
  lossless : removeSource = true → ∀ snapshot, s.snapshot? = some snapshot →
    ∀ message ∈ matched sequence uid s, ∀ mail,
      (a.mailsAt snapshot.path).lookup message.id = some mail →
      (s.copy env tag sequence target uid removeSource).Throughout (disk fails)
        (Somewhere target s snapshot message mail) (a, 0)
  announced : removeSource = true →
    Announced s (after fails env tag sequence target uid removeSource s a).1.1.responses
      (after fails env tag sequence target uid removeSource s a).1.2

def found : Bool :=
  isInbox target ||
    (!fails 0 && (mailboxDir target).any fun path ↦ (a.folder path).isSome)

/-- The number of the first call of the copying. -/
def first : ℕ := if isInbox target then 0 else 1

/-- The command does not get to copy anything, or it copies all the messages, or the first of them
does not get into the target. -/
def Whole : Prop :=
  match s.state with
  | .selected _ snapshot readOnly =>
    (removeSource && readOnly) = true ∨ found fails target a = false ∨
      AllCopied fails a snapshot (first target) (matched sequence uid s) ∨
      ∃ message ∈ (matched sequence uid s).head?, KeptOut fails a snapshot (first target) message
  | _ => True

variable {fails env tag sequence target uid removeSource s a} {mailbox : Text} {snapshot : Snapshot}
  {readOnly : Bool}

/-! ### How a command goes on -/

theorem run_mailboxExists (fails : ℕ → Bool) (target : Text) (a : Account) : ∃ m,
    (mailboxExists target).run (disk fails) (a, 0) = (found fails target a, (a, m)) ∧
      (found fails target a = true → m = first target ∧ ∃ path, mailboxDir target = some path) := by
  rw [mailboxExists, found, first]
  by_cases hinbox : isInbox target = true
  · rw [if_pos hinbox, if_pos hinbox, hinbox]
    refine ⟨0, rfl, fun _ ↦ ⟨rfl, .inbox, ?_⟩⟩
    rw [mailboxDir, if_pos hinbox]
  · rw [if_neg hinbox, if_neg hinbox]
    cases hpath : mailboxDir target with
    | none => exact ⟨0, by simp [hinbox], fun h ↦ by simp [hinbox] at h⟩
    | some path =>
      cases hfails : fails 0 with
      | true =>
        refine ⟨1, ?_, fun h ↦ by simp [hinbox] at h⟩
        change (Prog.call (.isDir path) Prog.ret).run (disk fails) (a, 0) = _
        rw [run_call_of_fails hfails]
        simp [hinbox, AccountAns.failed]
      | false =>
        refine ⟨1, ?_, fun _ ↦ ⟨rfl, path, rfl⟩⟩
        change (Prog.call (.isDir path) Prog.ret).run (disk fails) (a, 0) = _
        rw [run_call_of_works hfails]
        simp [hinbox, Account.exec]

/-- What is done once the copying is over. -/
def finish (env : Env) (tag target : Text) (removeSource : Bool) (mailbox : Text)
    (snapshot : Snapshot) (readOnly : Bool) (matched : List (ℕ × MessageRef)) (s : Session) :
    Except String (List Uuid) → Handler
  | .error error => pure (.tagged tag .no error, s)
  | .ok destIds => do
    let code ← copyuidCode target env.clock (matched.map fun m ↦ m.2.uid) destIds
    if removeSource then
      let (done, sent, left) ← inMailbox snapshot.path
        (moveLoop 0 (matched.map Prod.fst) snapshot)
      let s := { s with state := .selected mailbox left readOnly }
      if done then
        pure (.text (expungeResponse s.uidonly sent (matched.map fun m ↦ m.2.uid) ++
          [.tagged tag .ok (code ++ "MOVE completed".toList)]), s)
      else pure (.tagged tag .no "move failed", s)
    else pure (.text [.tagged tag .ok (code ++ "COPY completed".toList)], s)

theorem copy_of_selected
    (hstate : s.state = .selected mailbox snapshot readOnly)
    (hwritable : ¬ (removeSource && readOnly) = true) :
    s.copy env tag sequence target uid removeSource = mailboxExists target >>= fun there ↦
      if there then
        copyLoop s.crypto env.stamp snapshot target 0
            ((matching snapshot sequence uid (s.savedSeqnosFor uid)).map Prod.snd) >>=
          finish env tag target removeSource mailbox snapshot readOnly
            (matching snapshot sequence uid (s.savedSeqnosFor uid)) s
      else pure (.tagged tag .no "[TRYCREATE] no such mailbox", s) := by
  unfold Session.copy
  rw [hstate]
  dsimp only
  rw [if_neg hwritable]
  refine congrArg (mailboxExists target >>= ·) (funext fun there ↦ ?_)
  cases there with
  | false => rfl
  | true =>
    refine congrArg (copyLoop _ _ _ _ _ _ >>= ·) (funext fun copied ↦ ?_)
    cases copied <;> rfl

/-! ### What is removed is announced -/

theorem Announced.same (s : Session) (tag : Text) (status : Status) (text : Text) :
    Announced s [.tagged tag status text] s := by
  refine ⟨fun _ ↦ rfl, fun _ snapshot left hsnapshot hleft message hmessage hgone ↦ ?_⟩
  obtain rfl := Option.some.inj (hsnapshot.symm.trans hleft)
  exact absurd hmessage hgone

variable {saved : List ℕ}

theorem bySequence_of_mem_matching {n : ℕ}
    {message : MessageRef} (h : (n, message) ∈ matching snapshot sequence uid saved) :
    snapshot.bySequence n = some message := by
  obtain ⟨m, -, hm⟩ := List.mem_filterMap.1 h
  obtain ⟨found, hfound, hif⟩ := Option.bind_eq_some_iff.1 hm
  split at hif
  · obtain ⟨rfl, rfl⟩ := Prod.mk.inj (Option.some.inj hif)
    exact hfound
  · cases hif

theorem any_refuses_expungeResponse (uidonly : Bool) (sent : List ℕ) (uids : List UInt32) :
    (expungeResponse uidonly sent uids).any refuses = false := by
  rw [expungeResponse]
  split
  · split <;> rfl
  · rw [List.any_map, List.any_eq_false]
    exact fun _ _ ↦ Bool.false_ne_true

theorem vanished_of_gone {left : Snapshot} {sent : List ℕ}
    (hstay : ∀ i message, snapshot.messages[i]? = some message →
      i + 1 + 0 ∉ (matching snapshot sequence uid saved).map Prod.fst →
        message ∈ left.messages)
    {message : MessageRef} (hmessage : message ∈ snapshot.messages)
    (hgone : message ∉ left.messages) :
    ∃ uids, Response.vanished false uids ∈ expungeResponse true sent
        ((matching snapshot sequence uid saved).map fun m ↦ m.2.uid) ∧
      message.uid ∈ uids := by
  obtain ⟨i, hi⟩ := List.getElem?_of_mem hmessage
  have hnumber : i + 1 ∈ (matching snapshot sequence uid saved).map Prod.fst := by
    by_contra hnot
    exact hgone (hstay i message hi hnot)
  obtain ⟨⟨n, other⟩, hmem, hn⟩ := List.mem_map.1 hnumber
  obtain rfl : n = i + 1 := hn
  have hother := bySequence_of_mem_matching hmem
  rw [Snapshot.bySequence, if_pos (Nat.succ_pos i), Nat.add_sub_cancel, hi] at hother
  obtain rfl := Option.some.inj hother
  have huid : message.uid ∈
      (matching snapshot sequence uid saved).map fun m ↦ m.2.uid :=
    List.mem_map.2 ⟨_, hmem, rfl⟩
  refine ⟨_, ?_, huid⟩
  rw [expungeResponse, if_pos rfl, if_neg fun hempty ↦ ?_]
  · exact List.mem_singleton_self _
  · rw [List.isEmpty_iff] at hempty
    rw [hempty] at huid
    cases huid

theorem returns_finish_ok
    (hstate : s.state = .selected mailbox snapshot readOnly) (destIds : List Uuid) :
    (finish env tag target removeSource mailbox snapshot readOnly
        (matching snapshot sequence uid (s.savedSeqnosFor uid)) s (.ok destIds)).Returns
      fun r ↦ r.1.responses.any refuses = false ∧ Announced s r.1.responses r.2 := by
  have hbefore : s.snapshot? = some snapshot := by rw [Session.snapshot?, hstate]
  refine .bind (.trivial _) fun code _ ↦ ?_
  split
  · have hmove := SequenceSync.returns_moveLoop_matching snapshot sequence uid
      (s.savedSeqnosFor uid)
    refine .bind (returns_inMailbox _ hmove) fun r hr ↦ ?_
    obtain ⟨done, sent, left⟩ := r
    obtain ⟨⟨rfl, hids⟩, hstay⟩ := hr
    dsimp only
    rw [if_pos rfl]
    refine ⟨?_, fun huid ↦ ?_, fun huid found left' hfound hleft' message hmessage hgone ↦ ?_⟩
    · change List.any (_ ++ [_]) refuses = false
      rw [List.any_append, any_refuses_expungeResponse]
      rfl
    · change List.foldl _ _ (_ ++ [_]) = _
      rw [SequenceSync.receive_append_tagged, expungeResponse, huid, if_neg Bool.false_ne_true,
        SequenceSync.foldl_receive_expunge, Session.ids, hbefore]
      exact hids
    · obtain rfl := Option.some.inj (hbefore.symm.trans hfound)
      obtain rfl : left = left' := Option.some.inj hleft'
      obtain ⟨uids, hline, huids⟩ := vanished_of_gone hstay hmessage hgone
      refine ⟨uids, List.mem_append_left _ ?_, huids⟩
      rw [huid]
      exact hline
  · exact ⟨rfl, .same s tag .ok _⟩

/-! ### All or nothing -/

theorem spares_finish {ids : Uuid → Prop}
    (hids : ∀ shown ∈ snapshot.ids, ¬ ids shown) (matched : List (ℕ × MessageRef))
    (result : Except String (List Uuid)) :
    (finish env tag target removeSource mailbox snapshot readOnly matched s result).Only
      (AccountOp.Spares ids) := by
  cases result with
  | error error => trivial
  | ok destIds =>
    refine .bind (spares_copyuidCode _ _ _ _) fun code ↦ ?_
    split
    · refine .bind (spares_inMailbox (spares_moveLoop hids 0 _) _) fun r ↦ ?_
      dsimp only
      split <;> trivial
    · trivial

theorem allOrNothing_of_unchanged (status : Status) (text : String)
    (hrun : (after fails env tag sequence target uid removeSource s a).1 =
      (.tagged tag status text, s))
    (hstays : Stays (fun _ ↦ True) a (after fails env tag sequence target uid removeSource s a).2)
    (hthroughout : (s.copy env tag sequence target uid removeSource).Throughout (disk fails)
      (Stays (fun _ ↦ True) a) (a, 0)) :
    AllOrNothing fails env tag sequence target uid removeSource s a where
  nothing := fun _ path _ id ↦ hstays path id trivial
  lossless := by
    intro _ snapshot _ message _ mail hmail
    refine hthroughout.mono fun state hstate ↦ .inl ?_
    rw [hstate snapshot.path message.id trivial, hmail]
  announced := by
    intro _
    rw [hrun]
    exact .same s tag status _

theorem matched_of_selected
    (hstate : s.state = .selected mailbox snapshot readOnly) : matched sequence uid s =
      (matching snapshot sequence uid (s.savedSeqnosFor uid)).map Prod.snd := by
  rw [matched, Session.snapshot?, hstate]
  rfl

section Found

/-- The copying of a command that finds its target. -/
def copying (fails : ℕ → Bool) (env : Env) (sequence : SequenceSet) (target : Text) (uid : Bool)
    (s : Session) (snapshot : Snapshot) (a : Account) :
    Except String (List Uuid) × (Account × ℕ) :=
  (copyLoop s.crypto env.stamp snapshot target 0 (matched sequence uid s)).run (disk fails)
    (a, first target)

section

variable (hstate : s.state = .selected mailbox snapshot readOnly)
  (hwritable : ¬ (removeSource && readOnly) = true) (hfound : found fails target a = true)
include hstate hwritable hfound

theorem after_of_found :
    after fails env tag sequence target uid removeSource s a =
      (finish env tag target removeSource mailbox snapshot readOnly
          (matching snapshot sequence uid (s.savedSeqnosFor uid)) s
          (copying fails env sequence target uid s snapshot a).1).run (disk fails)
        (copying fails env sequence target uid s snapshot a).2 := by
  obtain ⟨m, hrun, hfirst⟩ := run_mailboxExists fails target a
  obtain ⟨rfl, -⟩ := hfirst hfound
  rw [after, copy_of_selected hstate hwritable, run_bind, hrun, hfound]
  dsimp only
  rw [if_pos rfl, run_bind, copying, matched_of_selected hstate]

theorem throughout_of_found {I : Account × ℕ → Prop}
    (hlooking : (mailboxExists target).Throughout (disk fails) I (a, 0))
    (hcopying : (copyLoop s.crypto env.stamp snapshot target 0 (matched sequence uid s)).Throughout
      (disk fails) I (a, first target))
    (hfinish : (finish env tag target removeSource mailbox snapshot readOnly
        (matching snapshot sequence uid (s.savedSeqnosFor uid)) s
        (copying fails env sequence target uid s snapshot a).1).Throughout
      (disk fails) I (copying fails env sequence target uid s snapshot a).2) :
    (s.copy env tag sequence target uid removeSource).Throughout (disk fails) I (a, 0) := by
  obtain ⟨m, hrun, hfirst⟩ := run_mailboxExists fails target a
  obtain ⟨rfl, -⟩ := hfirst hfound
  rw [copy_of_selected hstate hwritable]
  refine hlooking.bind ?_
  rw [hrun, hfound]
  dsimp only
  rw [if_pos rfl, ← matched_of_selected hstate]
  exact hcopying.bind hfinish

end

theorem mem_ids_of_mem_matched (hstate : s.state = .selected mailbox snapshot readOnly)
    {message : MessageRef} (hmessage : message ∈ matched sequence uid s) :
    message.id ∈ snapshot.ids := by
  rw [matched_of_selected hstate] at hmessage
  obtain ⟨⟨n, message⟩, hmem, rfl⟩ := List.mem_map.1 hmessage
  have hsequence := bySequence_of_mem_matching hmem
  rw [Snapshot.bySequence] at hsequence
  split at hsequence
  · exact List.mem_map_of_mem (List.mem_of_getElem? hsequence)
  · cases hsequence

/-- The ids that are drawn for the copies are new. -/
structure Fresh (env : Env) (sequence : SequenceSet) (uid : Bool) (s : Session)
    (snapshot : Snapshot) (a : Account) : Prop where
  nodup : (env.drawn 0 (matched sequence uid s).length).Nodup
  unshown : ∀ id ∈ env.drawn 0 (matched sequence uid s).length, id ∉ snapshot.ids
  unused : ∀ id ∈ env.drawn 0 (matched sequence uid s).length, ∀ path,
    (a.mailsAt path).lookup id = none
  others : ∀ message ∈ matched sequence uid s,
    message.id ∉ env.drawn 0 (matched sequence uid s).length

section

variable (hstate : s.state = .selected mailbox snapshot readOnly)
include hstate

theorem fresh_of_selected
    (hnew : NewIds (env.drawn 0 s.ids.length) (a.messages.map Prod.snd ++ s.ids)) :
    Fresh env sequence uid s snapshot a := by
  have hids : s.ids = snapshot.ids := by
    rw [Session.ids, Session.snapshot?, hstate]
    rfl
  have hlength : (matched sequence uid s).length ≤ s.ids.length := by
    rw [matched_of_selected hstate, hids, List.length_map, Snapshot.ids, List.length_map]
    exact length_matching_le _ _ _ _
  have hmono := hnew.mono ((List.range'_sublist_right.2 hlength).map fun j ↦ (env.stamp j).id)
  have hunused : ∀ id ∈ env.drawn 0 (matched sequence uid s).length,
      id ∉ a.messages.map Prod.snd ∧ id ∉ snapshot.ids := by
    intro id hid
    have hunused := hmono.unused id hid
    rwa [List.mem_append, not_or, hids] at hunused
  refine ⟨hmono.nodup, fun id hid ↦ (hunused id hid).2, fun id hid path ↦ ?_,
    fun message hmessage hmem ↦ (hunused _ hmem).2 (mem_ids_of_mem_matched hstate hmessage)⟩
  by_contra hsome
  have hmem := Account.mem_messages.2 (Option.isSome_iff_ne_none.2 hsome)
  exact (hunused id hid).1 (List.mem_map.2 ⟨_, hmem, rfl⟩)

section

variable (hwritable : ¬ (removeSource && readOnly) = true) (hfound : found fails target a = true)
include hwritable hfound

theorem somewhere_of_found (hfresh : Fresh env sequence uid s snapshot a) {message : MessageRef}
    (hmessage : message ∈ matched sequence uid s) {mail : Mail}
    (hmail : (a.mailsAt snapshot.path).lookup message.id = some mail) :
    (s.copy env tag sequence target uid removeSource).Throughout (disk fails)
      (Somewhere target s snapshot message mail) (a, 0) := by
  obtain ⟨m, -, htarget⟩ := run_mailboxExists fails target a
  obtain ⟨-, path, hpath⟩ := htarget hfound
  set drawn := env.drawn 0 (matched sequence uid s).length
  -- until the copying is over no message file that was there is touched
  have hold : ∀ state, Stays (· ∉ drawn) a state →
    Somewhere target s snapshot message mail state := by
    intro state hstays
    refine .inl ?_
    rw [hstays snapshot.path message.id (hfresh.others message hmessage), hmail]
  have hspares : (copyLoop s.crypto env.stamp snapshot target 0
      (matched sequence uid s)).Only (AccountOp.Spares (· ∉ drawn)) :=
    spares_copyLoop s.crypto snapshot target fun id hid hnot ↦ hnot hid
  refine throughout_of_found hstate hwritable hfound ?_ ?_ ?_
  · exact (Stays.throughout (spares_of_looks (looks_mailboxExists target)) (.refl 0)).mono hold
  · exact (Stays.throughout hspares (.refl _)).mono hold
  · obtain ⟨hcopied, hfailed⟩ := copyLoop_iff s.crypto fails a snapshot (first target) hpath
      hfresh.nodup hfresh.others
    have hafter : Stays (· ∉ drawn) a (copying fails env sequence target uid s snapshot a).2 :=
      Stays.run hspares (.refl _)
    by_cases hall : AllCopied fails a snapshot (first target) (matched sequence uid s)
    · -- from now on the copies are not touched
      obtain ⟨-, hcopies⟩ := hcopied hall
      obtain ⟨data, id, nonce, mtime, hbody, hid, hcopy⟩ := hcopies message hmessage
      have hdecode : snapshot.crypto.decode mail.stored = some data := by
        rwa [body, hmail, Option.bind_some] at hbody
      have hkeeps : ∀ result, (finish env tag target removeSource mailbox snapshot readOnly
          (matching snapshot sequence uid (s.savedSeqnosFor uid)) s result).Only
          (AccountOp.Spares (· ∈ drawn)) :=
        spares_finish (fun shown hmem hdrawn ↦ hfresh.unshown shown hdrawn hmem) _
      refine (Stays.throughout (hkeeps _) (.refl _)).mono fun state hstays ↦ ?_
      refine .inr ⟨path, data, id, nonce, mtime, hpath, hdecode, ?_⟩
      rw [hstays path id hid]
      exact hcopy
    · obtain ⟨error, herror⟩ := hfailed hall
      have hresult : (copying fails env sequence target uid s snapshot a).1 = .error error := herror
      rw [hresult]
      exact hold _ hafter

theorem announced_of_found :
    Announced s (after fails env tag sequence target uid removeSource s a).1.1.responses
      (after fails env tag sequence target uid removeSource s a).1.2 := by
  rw [after_of_found hstate hwritable hfound]
  cases (copying fails env sequence target uid s snapshot a).1 with
  | error error => exact .same s tag .no _
  | ok destIds => exact ((returns_finish_ok hstate destIds).run (disk fails) _).2

/-- A refused command has copied nothing if and only if the first message was kept out. -/
theorem nothing_iff_of_found (hfresh : Fresh env sequence uid s snapshot a) :
    ((after fails env tag sequence target uid removeSource s a).1.1.responses.any refuses =
        true → ∀ path, mailboxDir target = some path → ∀ id,
      ((after fails env tag sequence target uid removeSource s a).2.1.mailsAt path).lookup id =
        (a.mailsAt path).lookup id) ↔
      AllCopied fails a snapshot (first target) (matched sequence uid s) ∨
        ∃ message ∈ (matched sequence uid s).head?,
          KeptOut fails a snapshot (first target) message := by
  obtain ⟨m, -, htarget⟩ := run_mailboxExists fails target a
  obtain ⟨-, path, hpath⟩ := htarget hfound
  obtain ⟨hcopied, hfailed⟩ := copyLoop_iff s.crypto fails a snapshot (first target) hpath
    hfresh.nodup hfresh.others
  rw [after_of_found hstate hwritable hfound]
  by_cases hall : AllCopied fails a snapshot (first target) (matched sequence uid s)
  · -- the command is not refused
    obtain ⟨⟨destIds, hok⟩, -⟩ := hcopied hall
    have hresult : (copying fails env sequence target uid s snapshot a).1 = .ok destIds := hok
    refine iff_of_true (fun hrefused ↦ ?_) (.inl hall)
    rw [hresult, ((returns_finish_ok hstate destIds).run (disk fails) _).1] at hrefused
    cases hrefused
  · obtain ⟨error, herror⟩ := hfailed hall
    have hresult : (copying fails env sequence target uid s snapshot a).1 = .error error := herror
    rw [hresult, or_iff_right hall]
    change (_ → ∀ path, _ → ∀ id, ((copying fails env sequence target uid s snapshot
      a).2.1.mailsAt path).lookup id = _) ↔ _
    rw [copying]
    have hnodup := hfresh.nodup
    have hunused := hfresh.unused
    cases hmatched : matched sequence uid s with
    | nil =>
      rw [hmatched] at hall
      exact absurd trivial hall
    | cons message rest =>
      rw [hmatched] at hnodup hunused
      simp only [List.head?_cons, Option.mem_some_iff, exists_eq_left']
      constructor
      · intro hsame
        by_contra hput
        obtain ⟨⟨data, hbody⟩, hworks⟩ := not_keptOut_iff.1 hput
        have hthere := lookup_copyLoop_of_put s.crypto hpath hbody hworks hnodup
        rw [hsame rfl path hpath, hunused _ (by simp [Env.drawn_succ])] at hthere
        cases hthere
      · intro hkept _ path' hpath' id
        obtain ⟨-, -, hstays⟩ := run_copyLoop_of_keptOut s.crypto env 0 rest hpath hkept
        exact hstays path' id trivial

end

end

end Found

theorem allOrNothing_of_pure (status : Status) (text : String)
    (h : s.copy env tag sequence target uid removeSource = pure (.tagged tag status text, s)) :
    AllOrNothing fails env tag sequence target uid removeSource s a := by
  refine allOrNothing_of_unchanged status text ?_ ?_ ?_
  · rw [after, h]
    rfl
  · rw [after, h]
    exact .refl 0
  · rw [h]
    exact .refl 0

theorem allOrNothing_of_missing
    (hstate : s.state = .selected mailbox snapshot readOnly)
    (hwritable : ¬ (removeSource && readOnly) = true) (hmissing : found fails target a = false) :
    AllOrNothing fails env tag sequence target uid removeSource s a := by
  obtain ⟨m, hrun, -⟩ := run_mailboxExists fails target a
  have hafter : after fails env tag sequence target uid removeSource s a =
      ((.tagged tag .no "[TRYCREATE] no such mailbox", s), (a, m)) := by
    rw [after, copy_of_selected hstate hwritable, run_bind, hrun, hmissing]
    rfl
  refine allOrNothing_of_unchanged _ _ (congrArg Prod.fst hafter) ?_ ?_
  · rw [hafter]
    exact .refl m
  · rw [copy_of_selected hstate hwritable]
    refine (Stays.throughout (spares_of_looks (looks_mailboxExists target)) (.refl 0)).bind ?_
    rw [hrun, hmissing]
    exact .refl m

/-- **When COPY and MOVE are all or nothing.** Whatever calls fail, a MOVE loses no message and
announces what it takes out of the live snapshot. A refused command leaves the target as it was if
and only if it did not get to put its first message there. -/
theorem copy_all_or_nothing_iff (fails : ℕ → Bool) (env : Env) (tag : Text) (sequence : SequenceSet)
    (target : Text) (uid removeSource : Bool) (s : Session) (a : Account)
    (hnew : NewIds (env.drawn 0 s.ids.length) (a.messages.map Prod.snd ++ s.ids)) :
    AllOrNothing fails env tag sequence target uid removeSource s a ↔
      Whole fails sequence target uid removeSource s a := by
  rw [Whole]
  cases hstate : s.state with
  | notAuthenticated | authenticated =>
    refine iff_of_true (allOrNothing_of_pure .bad "no mailbox selected" ?_) trivial
    unfold Session.copy
    rw [hstate]
  | selected mailbox snapshot readOnly =>
    dsimp only
    by_cases hwritable : (removeSource && readOnly) = true
    · refine iff_of_true (allOrNothing_of_pure .no "mailbox is read-only" ?_) (.inl hwritable)
      unfold Session.copy
      rw [hstate]
      exact if_pos hwritable
    · rw [or_iff_right hwritable]
      cases hfound : found fails target a with
      | false => exact iff_of_true (allOrNothing_of_missing hstate hwritable hfound) (.inl rfl)
      | true =>
        have hfresh : Fresh env sequence uid s snapshot a := fresh_of_selected hstate hnew
        rw [or_iff_right (by simp), ← nothing_iff_of_found hstate hwritable hfound hfresh]
        refine ⟨fun h ↦ h.nothing,
          fun h ↦ ⟨h, fun _ found hsnapshot message hmessage mail hmail ↦ ?_,
          fun _ ↦ announced_of_found hstate hwritable hfound⟩⟩
        obtain rfl : snapshot = found := by
          rw [Session.snapshot?, hstate] at hsnapshot
          exact Option.some.inj hsnapshot
        exact somewhere_of_found hstate hwritable hfound hfresh hmessage hmail

end

def selected : Session :=
  let message := fun n : ℕ ↦
    (⟨.ofNat n, .ofNat n, 1, [], .unixEpoch, 1⟩ : MessageRef)
  ⟨.selected "INBOX".toList
      { Snapshot.empty with mailbox := "INBOX".toList, messages := [message 1, message 2] } false,
    none, false, none, none, 1000, .disabled, 0⟩

/-- The account with those of the messages that are there, and an empty folder. -/
def accountWith (numbers : List ℕ) : Account :=
  { Account.empty with
    inbox := some { Folder.empty with
      mails := numbers.foldr (fun n mails ↦ mails.insert (.ofNat n) ⟨[.ofNat n], .unixEpoch⟩) ∅ }
    folders := (∅ : AList fun _ : Text ↦ Folder).insert "Work".toList .empty }

/-- Ids from ten on. -/
def drawing : Env := ⟨.unixEpoch, fun k ↦ ⟨.ofNat (k + 10), [], .unixEpoch⟩⟩

/-- The new file of the first message cannot be written: the MOVE is refused, and nothing has
happened. -/
theorem copy_all_or_nothing_refused :
    (after (· == 3) drawing "a".toList ⟨[(1, some 2)], false⟩ "Work".toList false true selected
        (accountWith [1, 2])).1.1.responses.any refuses = true ∧
      AllOrNothing (· == 3) drawing "a".toList ⟨[(1, some 2)], false⟩ "Work".toList false true
        selected (accountWith [1, 2]) := by
  refine ⟨by decide, (copy_all_or_nothing_iff _ _ _ _ _ _ _ _ _ (by decide)).2 ?_⟩
  exact .inr (.inr (.inr ⟨_, rfl, .inr ⟨2, by decide, rfl⟩⟩))

/-- The second message is gone, and no call fails: the COPY is refused, and the first message has
been copied. -/
theorem first_copied :
    (after (fun _ ↦ false) drawing "a".toList ⟨[(1, some 2)], false⟩ "Work".toList false false
        selected (accountWith [1])).1.1.responses.any refuses = true ∧
      ((accountWith [1]).mailsAt (.folder "Work".toList)).keys = [] ∧
      ((after (fun _ ↦ false) drawing "a".toList ⟨[(1, some 2)], false⟩ "Work".toList false false
        selected (accountWith [1])).2.1.mailsAt (.folder "Work".toList)).keys = [.ofNat 10] ∧
      ¬ AllOrNothing (fun _ ↦ false) drawing "a".toList ⟨[(1, some 2)], false⟩ "Work".toList false
        false selected (accountWith [1]) := by
  have hrefused : (after (fun _ ↦ false) drawing "a".toList ⟨[(1, some 2)], false⟩ "Work".toList
      false false selected (accountWith [1])).1.1.responses.any refuses = true := by decide
  refine ⟨hrefused, by decide, by decide, fun h ↦ ?_⟩
  have hsame := h.nothing hrefused (.folder "Work".toList) (by decide) (.ofNat 10)
  exact absurd hsame (by decide)

end Copying

end Epistle.Imap
