import Epistle.Imap.Account
import Epistle.Imap.Sessions

/-!
# What an open shows

Opening a mailbox runs some twenty file-system calls per message, but which messages it shows is a
plain function of the directory: those of the index, if it is stamped with the current generation,
and else the message files in the order of their names (`Dir.shown`). An open changes UIDs, the
index and the UIDVALIDITY; the messages it shows it would show again.
-/

namespace Epistle.Imap

open TextFormat Interleaving
open UidValidity (readOrInit ofClock)
open Account (execMissing)
open Prog (run_bind op_bind run_call)

/-! ## Frames -/

/-- Calls that change no file in place but those with UIDs. -/
def Op.onlyUids : Op → Bool
  | .read _ | .readDir | .stat _ | .fileHasMagic _ | .readMail _ | .writeTmp _ _ => true
  | .rename (.uid _) | .rename .uidnext => true
  | _ => false

namespace Dir

/-- The directories differ in UIDs at most. -/
structure SameButUids (d d' : Dir) : Prop where
  mails : d'.mails = d.mails
  files : ∀ k, (∀ id, k ≠ .uid id) → k ≠ .uidnext → d'.files k = d.files k

theorem SameButUids.trans {d d' d'' : Dir} (h : SameButUids d d') (h' : SameButUids d' d'') :
    SameButUids d d'' :=
  ⟨h'.mails.trans h.mails, fun k hu hn ↦ (h'.files k hu hn).trans (h.files k hu hn)⟩

theorem SameButUids.exec {o : Op} (d : Dir) (ho : o.onlyUids = true) :
    SameButUids d (Dir.exec o d).2 := by
  cases o with
  | rename j =>
    rw [Dir.exec]
    split
    next c _ =>
      refine ⟨rfl, fun k hu hn ↦ ?_⟩
      have hkj : k ≠ j := by
        rintro rfl
        cases k with
        | uid id => exact hu id rfl
        | uidnext => exact hn rfl
        | _ => cases ho
      rw [setFile_files, Function.update_of_ne hkj, setTemp_files]
    next => exact ⟨rfl, fun _ _ _ ↦ rfl⟩
  | read k | readDir | stat id | fileHasMagic id | readMail id | writeTmp k c =>
    exact ⟨rfl, fun _ _ _ ↦ rfl⟩
  | _ => cases ho

theorem SameButUids.run {α : Type} {p : FileM α} (hp : p.Only fun o ↦ o.onlyUids = true) (d : Dir) :
    SameButUids d (p.run Dir.exec d).2 :=
  Prog.run_preserves Dir.exec (fun _ d' ho h ↦ h.trans (.exec d' ho)) hp ⟨rfl, fun _ _ _ ↦ rfl⟩

end Dir

/-! ## Scans -/

section

variable (crypto : MessageCrypto)

theorem onlyUids_scanMessage (id : Uuid) (counter : UInt32) :
    (scanMessage crypto id counter).Only fun o ↦ o.onlyUids = true := by
  have hassign : (Uid.assignOrRead id counter).Only fun o ↦ o.onlyUids = true := by
    refine .bind (by simp [Uid.readMessage, Op.onlyUids]) fun uid ↦ ?_
    cases uid with
    | some uid => trivial
    | none => exact .bind (only_replaceFile (by rfl) (by rfl)) fun _ ↦ trivial
  refine ⟨rfl, fun stat ↦ .bind (only_scanSize (by rfl) stat) fun size ↦ .bind hassign fun r ↦ ?_⟩
  exact ⟨rfl, fun flags ↦ ⟨rfl, fun modseq ↦ trivial⟩⟩

theorem onlyUids_scanMessages (ids : List Uuid) (counter : UInt32) :
    (scanMessages crypto ids counter).Only fun o ↦ o.onlyUids = true := by
  induction ids generalizing counter with
  | nil => trivial
  | cons id ids ih =>
    refine .bind (onlyUids_scanMessage crypto id counter) fun r ↦ ?_
    exact .bind (ih r.2) fun _ ↦ trivial

theorem onlyUids_scanMailbox : (scanMailbox crypto).Only fun o ↦ o.onlyUids = true := by
  refine ⟨rfl, fun entries ↦ ?_⟩
  cases entries with
  | none => trivial
  | some entries =>
    refine ⟨rfl, fun counter ↦ .bind (onlyUids_scanMessages crypto _ _) fun r ↦ ?_⟩
    dsimp only
    split
    · exact .bind (only_replaceFile (by rfl) (by rfl)) fun _ ↦ trivial
    · trivial

theorem returns_scanMessages (ids : List Uuid) (counter : UInt32) :
    (scanMessages crypto ids counter).Returns fun r ↦ r.1.map MessageRef.id = ids := by
  induction ids generalizing counter with
  | nil => rfl
  | cons id ids ih =>
    have hhead : (scanMessage crypto id counter).Returns fun r ↦ r.1.id = id := by
      intro stat
      refine .bind (.trivial (scanSize crypto id stat)) fun size _ ↦ ?_
      refine .bind (.trivial (Uid.assignOrRead id counter)) fun r _ ↦ ?_
      exact fun flags modseq ↦ rfl
    refine .bind hhead fun r hr ↦ .bind (ih r.2) fun r' hr' ↦ ?_
    change List.map MessageRef.id (r.1 :: r'.1) = id :: ids
    rw [List.map_cons, hr, hr']

/-- A scan gathers the messages whose files are there, and changes nothing but UIDs. -/
theorem exists_run_scanMailbox (d : Dir) :
    ∃ messages d₁, (scanMailbox crypto).run Dir.exec d = (some messages, d₁) ∧
      messages.map MessageRef.id = sortIds d.mails.keys ∧ Dir.SameButUids d d₁ := by
  have hids := (returns_scanMessages crypto (sortIds d.mails.keys) ((d.files .uidnext).getD 0)).run
    Dir.exec d
  have hsame := Dir.SameButUids.run (onlyUids_scanMailbox crypto) d
  rw [run_scanMailbox_of_scanned rfl] at hsame ⊢
  exact ⟨_, _, rfl, hids, hsame⟩

end

/-! ## Opens -/

namespace Dir

/-- The messages an open shows, in sequence order. -/
def shown (d : Dir) : List Uuid :=
  match (d.files .index).bind fun text ↦ Index.parse text d.core.generation with
  | some messages => messages.map MessageRef.id
  | none => sortIds d.mails.keys

/-- The UIDVALIDITY an open shows at the given time. -/
def validity (d : Dir) (clock : SystemTime) : UInt32 :=
  ((d.files .uidvalidity).filter (0 < ·)).getD (ofClock clock)

theorem shown_setFile_uidvalidity (d : Dir) (value : Option UInt32) :
    (d.setFile .uidvalidity value).shown = d.shown := by
  simp [shown, core]

/-- The index that a scan leaves behind shows what the scan has gathered. -/
theorem shown_of_index {d : Dir} {messages : List MessageRef}
    (hindex : d.files .index = some (Index.render d.core.generation messages))
    (hids : messages.map MessageRef.id = sortIds d.mails.keys) :
    d.shown = messages.map MessageRef.id := by
  have hlen : messages.length = d.core.generation.2 := by
    have hmap := congrArg List.length hids
    rw [List.length_map, sortIds, List.length_insertionSort] at hmap
    exact hmap
  rw [shown, hindex, Option.bind_some, Index.parse_render, if_pos ⟨rfl, hlen⟩]
  simp [Function.comp_def]

end Dir

theorem Index.run_currentGeneration (d : Dir) :
    currentGeneration.run Dir.exec d = (d.core.generation, d) := by
  simp [currentGeneration, Modseq.readCounter, Dir.exec, Core.generation, Dir.core]

theorem run_readOrInit (clock : SystemTime) (d : Dir) :
    (readOrInit clock).run Dir.exec d =
      (d.validity clock, d.setFile .uidvalidity (some (d.validity clock))) := by
  cases h : (d.files .uidvalidity).filter (0 < ·) with
  | some value =>
    have hfile : d.files .uidvalidity = some value := (Option.filter_eq_some_iff.1 h).1
    have hsame : d.setFile .uidvalidity (some value) = d := by
      rw [Dir.setFile, ← hfile, Function.update_eq_self]
    simp [readOrInit, Dir.exec, h, Dir.validity, hsame]
  | none => simp [readOrInit, Dir.exec, h, Dir.validity]

namespace Dir

/-- The messages an open gathers, and the directory it leaves behind. -/
def opened (crypto : MessageCrypto) (clock : SystemTime) (d : Dir) : List MessageRef × Dir :=
  match (d.files .index).bind fun text ↦ Index.parse text d.core.generation with
  | some loaded => (loaded, d.setFile .uidvalidity (some (d.validity clock)))
  | none =>
    let scanned := (scanMailbox crypto).run Dir.exec d
    let messages := scanned.1.getD []
    let indexed := (scanned.2.setTemp .index none).setFile .index
      (some (Index.render d.core.generation messages))
    (messages, indexed.setFile .uidvalidity (some (d.validity clock)))

end Dir

section

variable (crypto : MessageCrypto)

theorem run_openAt (mailbox : Text) (retentionDays now : ℕ) (clock : SystemTime) (d : Dir) :
    ∃ snapshot, (Snapshot.openAt crypto mailbox retentionDays now clock).run Dir.exec d =
        (some snapshot, (d.opened crypto clock).2) ∧
      snapshot.mailbox = mailbox ∧ snapshot.messages = (d.opened crypto clock).1 ∧
      snapshot.uidValidity = d.validity clock ∧
      ((∀ message ∈ (d.opened crypto clock).1, message.modseq ≤ d.core.generation.1) →
        snapshot.highestModseq = d.core.generation.1) := by
  rw [Snapshot.openAt, run_bind, Index.run_currentGeneration, run_bind]
  have hload : (Index.load d.core.generation).run Dir.exec d =
      ((d.files .index).bind fun text ↦ Index.parse text d.core.generation, d) := rfl
  rw [hload, Dir.opened]
  cases (d.files .index).bind fun text ↦ Index.parse text d.core.generation with
  | some loaded =>
    rw [run_bind, run_readOrInit]
    exact ⟨_, rfl, rfl, rfl, rfl, fun _ ↦ rfl⟩
  | none =>
    obtain ⟨messages, d₁, hd₁, -, hsame⟩ := exists_run_scanMailbox crypto d
    have hwrite : (Index.write d.core.generation messages).run Dir.exec d₁ =
        (true, (d₁.setTemp .index none).setFile .index
          (some (Index.render d.core.generation messages))) := run_replaceFile _ _ _
    have hclock : ((d₁.setTemp .index none).setFile .index
        (some (Index.render d.core.generation messages))).validity clock = d.validity clock := by
      have hfile : d₁.files .uidvalidity = d.files .uidvalidity :=
        hsame.files .uidvalidity (by simp) (by simp)
      rw [Dir.validity, Dir.validity, ← hfile]
      rfl
    rw [run_bind, hd₁]
    simp only [Modseq.readCounter, Uid.readCounter, op_bind, Prog.call_bind, run_call,
      Dir.exec, Prog.pure_eq_ret, Prog.ret_bind, run_bind, hwrite, run_readOrInit, hclock,
      Prog.run_ret]
    refine ⟨_, rfl, rfl, rfl, rfl, fun hbound ↦ ?_⟩
    -- the counter is read after the scan, which leaves it alone
    have hcounter : d₁.files .modseqctr = d.files .modseqctr :=
      hsame.files .modseqctr (by simp) (by simp)
    have hmax : (messages.map MessageRef.modseq).max?.getD 1 ≤ d.core.generation.1 := by
      cases hmax : (messages.map MessageRef.modseq).max? with
      | none => exact le_max_right _ _
      | some modseq =>
        obtain ⟨message, hmessage, rfl⟩ := List.mem_map.1 (List.max?_mem hmax)
        exact hbound message hmessage
    rw [hcounter]
    refine le_antisymm (max_le (max_le (le_max_left _ _) hmax) (le_max_right _ _)) ?_
    exact max_le ((le_max_left _ _).trans (le_max_left _ _)) (le_max_right _ _)

theorem Dir.ids_opened (clock : SystemTime) (d : Dir) :
    (d.opened crypto clock).1.map MessageRef.id = d.shown := by
  rw [opened, shown]
  split
  · rfl
  · obtain ⟨messages, d₁, hd₁, hids, -⟩ := exists_run_scanMailbox crypto d
    dsimp only
    rw [hd₁, Option.getD_some, hids]

/-- A directory shows the same after an open. -/
theorem Dir.shown_opened (clock : SystemTime) (d : Dir) :
    (d.opened crypto clock).2.shown = d.shown := by
  rw [opened]
  cases hindex : (d.files .index).bind fun text ↦ Index.parse text d.core.generation with
  | some loaded => exact d.shown_setFile_uidvalidity _
  | none =>
    -- the directory after the scan, and after the index is written
    obtain ⟨messages, d₁, hd₁, hids, hsame⟩ := exists_run_scanMailbox crypto d
    let d₂ :=
      (d₁.setTemp .index none).setFile .index (some (Index.render d.core.generation messages))
    have hgeneration : d₂.core.generation = d.core.generation := by
      have hmails : d₂.mails = d.mails := hsame.mails
      have hctr : d₂.files .modseqctr = d.files .modseqctr := hsame.files .modseqctr nofun nofun
      simp only [Core.generation, Dir.core, hmails, hctr]
    have hshown : d₂.shown = messages.map MessageRef.id := by
      refine Dir.shown_of_index ?_ ?_
      · rw [hgeneration]
        simp [d₂]
      · rw [hids, ← hsame.mails]
        rfl
    rw [hd₁]
    change (d₂.setFile .uidvalidity _).shown = _
    rw [shown_setFile_uidvalidity, hshown, hids, shown, hindex]

end

/-! ## Opens in an account -/

namespace Account

/-- The messages that opening a mailbox shows. -/
def shown (a : Account) (path : Path) : List Uuid := (a.dirAt path).elim [] Dir.shown

/-- The UIDVALIDITY that opening a mailbox shows. -/
def validity (a : Account) (path : Path) (clock : SystemTime) : UInt32 :=
  (a.dirAt path).elim (ofClock clock) fun d ↦ d.validity clock

variable {a : Account} {path : Path}

theorem shown_of_dirAt {d : Dir} (h : a.dirAt path = some d) :
    a.shown path = d.shown := by
  rw [shown, h, Option.elim_some]

/-- What is shown depends on the mailbox's own files only. -/
theorem shown_congr {a' : Account} (h : a'.folder path = a.folder path) :
    a'.shown path = a.shown path := by
  rw [shown, shown, dirAt, dirAt, h]
  cases a.folder path <;> rfl

end Account

variable {a : Account} {path : Path} {mailbox : Text}

theorem run_openAt_missing (h : a.folder path = none)
    (crypto : MessageCrypto) (mailbox : Text) (retentionDays now : ℕ) (clock : SystemTime) :
    ∃ snapshot, (inMailbox path (Snapshot.openAt crypto mailbox retentionDays now clock)).run
        Account.exec a = (some snapshot, a) ∧
      snapshot.mailbox = mailbox ∧ snapshot.ids = [] ∧
      snapshot.uidValidity = ofClock clock := by
  set exec : (o : Op) → Account → Ans o × Account := fun o ↦ Account.exec (.file path o)
  have hexec : ∀ o, exec o a = execMissing o a := by
    intro o
    simp only [exec, Account.exec, Account.execAt, h]
  have hgeneration : Index.currentGeneration.run exec a = ((1, 0), a) := by
    simp [Index.currentGeneration, Modseq.readCounter, hexec, execMissing]
  have hload : (Index.load (1, 0)).run exec a = (none, a) := by
    simp [Index.load, hexec, execMissing]
  have hcounter : Uid.readCounter.run exec a = (0, a) := by
    simp [Uid.readCounter, hexec, execMissing]
  have hscan : (scanMailbox crypto).run exec a = (some [], a) := by
    rw [scanMailbox, op_bind, run_call, hexec, execMissing]
    simp [hcounter, sortIds, scanMessages]
  have hmodseq : Modseq.readCounter.run exec a = (1, a) := by
    simp [Modseq.readCounter, hexec, execMissing]
  have hwrite : (Index.write (1, 0) []).run exec a = (false, a) := by
    rw [Index.write, replaceFile, op_bind, run_call, hexec, execMissing]
    rfl
  have hvalidity : (readOrInit clock).run exec a = (ofClock clock, a) := by
    rw [readOrInit, op_bind, run_call, hexec, execMissing]
    simp [hexec, execMissing]
  rw [inMailbox, Prog.run_lift]
  change ∃ snapshot, (Snapshot.openAt crypto mailbox retentionDays now clock).run exec a = _ ∧ _
  rw [Snapshot.openAt, run_bind, hgeneration, run_bind, hload]
  simp only [run_bind, hscan, hmodseq, hcounter, hwrite, hvalidity]
  exact ⟨_, rfl, rfl, rfl, rfl⟩

theorem run_openMailbox_of_dirAt
    (hpath : mailboxDir mailbox = some path) {d : Dir} (hd : a.dirAt path = some d)
    (crypto : MessageCrypto) (retentionDays : ℕ) (clock : SystemTime) :
    ∃ snapshot a', (openMailbox crypto mailbox retentionDays clock).run Account.exec a =
        (some snapshot, a') ∧
      snapshot.mailbox = mailbox ∧ snapshot.messages = (d.opened crypto clock).1 ∧
      snapshot.uidValidity = d.validity clock ∧
      a'.dirAt path = some (d.opened crypto clock).2 ∧
      ∀ other ≠ path, a'.folder other = a.folder other := by
  rw [openMailbox, hpath]
  obtain ⟨snapshot, hrun, hmailbox, hmessages, hvalidity, -⟩ :=
    run_openAt crypto mailbox retentionDays clock.secs.toNat clock d
  obtain ⟨hret, hdir, hothers⟩ := run_inMailbox
    (Snapshot.openAt crypto mailbox retentionDays clock.secs.toNat clock) hd
  rw [hrun] at hret hdir
  exact ⟨snapshot, _, Prod.ext hret rfl, hmailbox, hmessages, hvalidity, hdir, hothers⟩

/-- Opening a mailbox succeeds, shows what the account shows and changes nothing that is shown. -/
theorem run_openMailbox (hpath : mailboxDir mailbox = some path)
    (crypto : MessageCrypto) (retentionDays : ℕ) (clock : SystemTime) (a : Account) :
    ∃ snapshot a', (openMailbox crypto mailbox retentionDays clock).run Account.exec a =
        (some snapshot, a') ∧
      snapshot.mailbox = mailbox ∧ snapshot.ids = a.shown path ∧
      snapshot.uidValidity = a.validity path clock ∧ ∀ other, a'.shown other = a.shown other := by
  cases hd : a.dirAt path with
  | none =>
    have hfolder : a.folder path = none := by
      rw [Account.dirAt, Option.map_eq_none_iff] at hd
      exact hd
    obtain ⟨snapshot, hrun, hmailbox, hids, hvalidity⟩ :=
      run_openAt_missing hfolder crypto mailbox retentionDays clock.secs.toNat clock
    rw [openMailbox, hpath]
    refine ⟨snapshot, a, hrun, hmailbox, ?_, ?_, fun _ ↦ rfl⟩
    · rw [hids, Account.shown, hd, Option.elim_none]
    · rw [hvalidity, Account.validity, hd, Option.elim_none]
  | some d =>
    obtain ⟨snapshot, a', hrun, hmailbox, hmessages, hvalidity, hdir, hothers⟩ :=
      run_openMailbox_of_dirAt hpath hd crypto retentionDays clock
    refine ⟨snapshot, a', hrun, hmailbox, ?_, ?_, fun other ↦ ?_⟩
    · rw [Snapshot.ids, hmessages, Dir.ids_opened, Account.shown_of_dirAt hd]
    · rw [hvalidity, Account.validity, hd, Option.elim_some]
    · by_cases hother : other = path
      · subst hother
        rw [Account.shown_of_dirAt hdir, Account.shown_of_dirAt hd, Dir.shown_opened]
      · exact Account.shown_congr (hothers other hother)

end Epistle.Imap
