import Epistle.Imap.Changes

/-!
# The mailboxes of an account under its sessions

What an open shows is right as long as the index of the mailbox is sound (`Epistle.Imap.Changes`).
Here this is carried through all that a session can do to the mailboxes of its account, handler by
handler: every mailbox stays sound, and no message gets an id that has been used, if the ids that
are drawn for new messages are new.

Most handlers add no message and keep `Account.Tidy` for whatever ids are used. Those that append
messages take it from the ids used before to those and the new ones.
-/

namespace Epistle.Imap

open TextFormat Interleaving
open Account (dirAt exec execAt)

/-! ## One mailbox -/

/-- The index is sound, and messages have used ids. -/
structure Dir.Tidy (used : List Uuid) (d : Dir) : Prop where
  sound : Sound d
  unused : ∀ id ∉ used, d.mails.lookup id = none

namespace Dir.Tidy

variable {used used' : List Uuid}

variable {d d' : Dir}

theorem congr (h : d.Tidy used) (hmails : d'.mails = d.mails)
    (hfiles : d'.files = d.files) : d'.Tidy used := by
  obtain ⟨mails, files, temps, staged, archive⟩ := d
  obtain ⟨mails', files', temps', staged', archive'⟩ := d'
  obtain rfl : mails' = mails := hmails
  obtain rfl : files' = files := hfiles
  obtain ⟨⟨hone, hmodseq, hstamp, hlength, hcurrent⟩, hunused⟩ := h
  refine ⟨⟨hone, hmodseq, hstamp, hlength, fun text htext stamp messages hparse hstamp ↦ ?_⟩,
    hunused⟩
  obtain ⟨hids, hagrees⟩ := hcurrent text htext stamp messages hparse hstamp
  exact ⟨hids, fun message hmessage ↦
    ⟨(hagrees message hmessage).uid, (hagrees message hmessage).flags,
      (hagrees message hmessage).modseq⟩⟩

theorem mono (h : d.Tidy used) (hsub : used ⊆ used') : d.Tidy used' :=
  ⟨h.sound, fun id hid ↦ h.unused id fun hmem ↦ hid (hsub hmem)⟩

theorem empty : Dir.empty.Tidy used := ⟨sound_empty, fun _ _ ↦ rfl⟩

theorem of_effect {c : Command} {snapshot : Snapshot} (h : d.Tidy used)
    (heffect : Effect c snapshot d d') (hnew : ∀ id, c.newId = some id → id ∉ used)
    (hsub : used ⊆ used') (hmem : ∀ id, c.newId = some id → id ∈ used') : d'.Tidy used' where
  sound := heffect.sound h.sound fun id hid ↦ h.unused id (hnew id hid)
  unused := by
    intro id hid
    refine heffect.lookup_eq_none ?_ (h.unused id fun hused ↦ hid (hsub hused))
    exact fun heq ↦ hid (hmem id heq)

theorem added (h : d.Tidy used) {id : Uuid} (hid : id ∉ used) {mail : Mail}
    (hadded : d.Added id mail d') : d'.Tidy (id :: used) := by
  have heffect : Effect (.append id [] [] mail.mtime []) .empty d d' :=
    .added id rfl mail hadded.mails hadded.files
  refine h.of_effect heffect ?_ (List.subset_cons_self _ _) ?_
  · rintro other ⟨⟩
    exact hid
  · rintro other ⟨⟩
    exact List.mem_cons_self

end Dir.Tidy

section

variable {used : List Uuid}

/-- From a mailbox that is tidy the program leaves a tidy one, without a new message. -/
abbrev KeepsTidyAt (used : List Uuid) {α : Type} (p : FileM α) : Prop :=
  p.Takes Dir.exec (Dir.Tidy used) (Dir.Tidy used)

variable {α : Type} {id : Uuid}

/-- A command that neither opens the mailbox nor adds a message. -/
theorem takes_of_effect {p : FileM α} (c : Command) (hc : c.newId = none)
    (snapshot : Snapshot) (h : ∀ d, Effect c snapshot d (p.run Dir.exec d).2) :
    KeepsTidyAt used p := by
  intro d hd
  refine hd.of_effect (h d) ?_ (.refl _) ?_ <;>
  · intro id hid
    rw [hc] at hid
    cases hid

theorem takes_storeFlags (snapshot : Snapshot) (sequence : ℕ) (flags : List Flag) :
    KeepsTidyAt used (snapshot.storeFlags sequence flags) :=
  takes_of_effect .expunge rfl snapshot (effect_storeFlags _ snapshot sequence flags)

theorem takes_removeAt (snapshot : Snapshot) (sequence : ℕ) :
    KeepsTidyAt used (snapshot.removeAt sequence) :=
  takes_of_effect .expunge rfl snapshot (effect_removeAt _ snapshot sequence)

theorem takes_expungeWhere (snapshot : Snapshot) (keep : UInt32 → Bool) :
    KeepsTidyAt used (snapshot.expungeWhere keep) :=
  takes_of_effect .expunge rfl snapshot (effect_expungeWhere _ snapshot keep)

theorem takes_moveLoop (offset : ℕ) (ns : List ℕ) (snapshot : Snapshot) :
    KeepsTidyAt used (Session.moveLoop offset ns snapshot) := by
  induction ns generalizing offset snapshot with
  | nil => exact .ret
  | cons n ns ih =>
    refine .bind (takes_removeAt snapshot _) fun r ↦ ?_
    dsimp only
    split
    · exact .bind (ih (offset + 1) r.2) fun _ ↦ .ret
    · exact .ret

theorem takes_openAt (crypto : MessageCrypto) (mailbox : Text) (retentionDays now : ℕ)
    (clock : SystemTime) :
    KeepsTidyAt used (Snapshot.openAt crypto mailbox retentionDays now clock) := by
  intro d hd
  obtain ⟨snapshot, d', hrun, hopened, -⟩ := hd.sound.openAt crypto mailbox retentionDays now clock
  rw [hrun]
  refine ⟨hopened.sound, fun id hid ↦ ?_⟩
  rw [hopened.numbered.mails, hd.unused id hid]

theorem takes_append (hid : id ∉ used) (mail : Mail) (flags : List Flag) :
    (append id mail flags).Takes Dir.exec (Dir.Tidy used) (Dir.Tidy (id :: used)) :=
  fun d hd ↦ hd.added hid (added_append id mail flags d)

theorem takes_deliverToAccount (hid : id ∉ used) (mail : Mail) (flagTokens : List Text) :
    (deliverToAccount id mail flagTokens).Takes Dir.exec (Dir.Tidy used)
      (Dir.Tidy (id :: used)) :=
  fun d hd ↦ hd.added hid (added_deliverToAccount id mail flagTokens d)

theorem takes_body {c : Command} (hnew : ∀ id, c.newId = some id → id ∉ used)
    (crypto : MessageCrypto) (snapshot : Snapshot) :
    (c.body crypto snapshot).Takes Dir.exec (Dir.Tidy used)
      (Dir.Tidy (c.newId.toList ++ used)) := by
  cases c with
  | openMailbox mailbox retentionDays now clock =>
    exact .bind (takes_openAt crypto mailbox retentionDays now clock) fun _ ↦ .ret
  | _ =>
    intro d hd
    refine hd.of_effect (Command.effect crypto (by simp) snapshot d) hnew
      (List.subset_append_right _ _) fun id hid ↦ ?_
    rw [hid]
    exact List.mem_cons_self

/-- Calls that only read. -/
def Op.reads : Op → Bool
  | .read _ | .readDir | .stat _ | .fileHasMagic _ | .readMail _ => true
  | _ => false

abbrev Reads {α : Type} (p : FileM α) : Prop := p.Only fun o ↦ o.reads = true

theorem takes_of_reads {p : FileM α} (hp : Reads p) : KeepsTidyAt used p := by
  refine hp.takes fun o d ho hd ↦ ?_
  have hsame : (Dir.exec o d).2 = d := by
    cases o with
    | _ => first | rfl | cases ho
  rw [hsame]
  exact hd

end

/-! ## All mailboxes -/

/-- Every mailbox is tidy. -/
def Account.Tidy (used : List Uuid) (a : Account) : Prop :=
  ∀ path d, a.dirAt path = some d → d.Tidy used

namespace Account.Tidy

variable {used used' : List Uuid}

variable {a : Account}

theorem mono (h : a.Tidy used) (hsub : used ⊆ used') : a.Tidy used' :=
  fun path d hd ↦ (h path d hd).mono hsub

theorem empty : Account.empty.Tidy used := by
  intro path d hd
  cases path <;> cases hd

theorem of_folder {a' : Account} (h : a.Tidy used) (path : Path) {path' : Path} {d : Dir}
    (hd : a'.dirAt path' = some d) (hfolder : a'.folder path' = a.folder path) : d.Tidy used := by
  obtain ⟨f, hf, rfl⟩ := Option.map_eq_some_iff.1 hd
  rw [hfolder] at hf
  have hdir : a.dirAt path = some (a.dir f) := by rw [dirAt, hf, Option.map_some]
  exact (h path _ hdir).congr rfl rfl

end Account.Tidy

theorem folder_inMailbox_missing {α : Type} {path : Path} (p : FileM α) {a : Account}
    (h : a.folder path = none) (other : Path) :
    ((inMailbox path p).run Account.exec a).2.folder other = a.folder other := by
  rw [inMailbox, Prog.run_lift]
  change (p.run (fun o ↦ exec (.file path o)) a).2.folder other = _
  refine Prog.run_preserves (fun o ↦ exec (.file path o)) (c := fun _ ↦ True)
    (I := fun a' ↦ ∀ other, a'.folder other = a.folder other) ?_ ?_ (fun _ ↦ rfl) other
  · intro o a' _ ha' other
    have hmissing : exec (.file path o) a' = Account.execMissing o a' := by
      simp only [exec, execAt, ha', h]
    rw [hmissing, ← ha' other]
    cases o <;> rfl
  · induction p with
    | ret x => trivial
    | call o k ih => exact ⟨trivial, ih⟩

section

variable {used used' : List Uuid}

variable {α : Type} {stamp : Stamp}
variable (crypto : MessageCrypto) (tag mailbox : Text)

theorem takes_inMailbox {p : FileM α} (hsub : used ⊆ used')
    (hp : p.Takes Dir.exec (Dir.Tidy used) (Dir.Tidy used')) (path : Path) :
    (inMailbox path p).Takes Account.exec (Account.Tidy used) (Account.Tidy used') := by
  intro a ha other d' hd'
  cases hd : a.dirAt path with
  | none =>
    have hfolder : a.folder path = none := by
      rw [dirAt, Option.map_eq_none_iff] at hd
      exact hd
    exact (ha.mono hsub).of_folder other hd' (folder_inMailbox_missing p hfolder other)
  | some d =>
    obtain ⟨-, hafter, hothers⟩ := run_inMailbox p hd
    by_cases hother : other = path
    · subst hother
      rw [hafter] at hd'
      obtain rfl := Option.some.inj hd'
      exact hp d (ha _ d hd)
    · exact (ha.mono hsub).of_folder other hd' (hothers other hother)

/-- The same for an account and its mailboxes. -/
abbrev KeepsTidy (used : List Uuid) {α : Type} (p : AccountM α) : Prop :=
  p.Takes Account.exec (Account.Tidy used) (Account.Tidy used)

theorem takes_createDirAll (path : Path) : KeepsTidy used (accountCall (.createDirAll path)) := by
  intro a ha other d hd
  rw [Prog.run_op, exec] at hd
  split at hd
  · exact ha other d hd
  · by_cases hother : other = path
    · subst hother
      rw [dirAt, Account.folder_setFolder_self] at hd
      obtain rfl := Option.some.inj hd
      exact Dir.Tidy.empty.congr rfl rfl
    · exact ha.of_folder _ hd (Account.folder_setFolder_of_ne a _ hother)

def AccountOp.looks : AccountOp → Bool
  | .file _ o => o.reads
  | .isDir _ | .readFolders | .readArchive | .statArchived _ | .archivedHasMagic _ => true
  | _ => false

abbrev Looks {α : Type} (p : AccountM α) : Prop := p.Only fun o ↦ o.looks = true

theorem takes_of_looks {p : AccountM α} (hp : Looks p) : KeepsTidy used p := by
  refine hp.takes fun o a ho ha ↦ ?_
  cases o with
  | file path o =>
    have hop : Reads (Prog.op o : FileM _) := (Prog.only_op o).2 ho
    exact takes_inMailbox (.refl _) (takes_of_reads hop) path a ha
  | isDir path | readFolders | readArchive | statArchived id | archivedHasMagic id => exact ha
  | _ => cases ho

theorem looks_inMailbox {p : FileM α} (hp : Reads p) (path : Path) :
    Looks (inMailbox path p) := by
  induction p with
  | ret x => trivial
  | call o k ih => exact ⟨hp.1, fun r ↦ ih r (hp.2 r)⟩

/-! ## Programs that only look -/

theorem looks_mailboxExists : Looks (mailboxExists mailbox) := by
  rw [mailboxExists]
  split
  · trivial
  · split
    · exact ⟨rfl, fun _ ↦ trivial⟩
    · trivial

section

variable (crypto : MessageCrypto)

theorem reads_mailboxUsage (ids : List Uuid) : Reads (mailboxUsage crypto ids) := by
  induction ids with
  | nil => trivial
  | cons id ids ih =>
    refine ⟨rfl, fun stat ↦ .bind (only_scanSize (by rfl) stat) fun _ ↦ ?_⟩
    exact .bind ih fun _ ↦ trivial

theorem looks_mailboxesUsage (mailboxes : List Text) : Looks (mailboxesUsage crypto mailboxes) := by
  induction mailboxes with
  | nil => trivial
  | cons mailbox mailboxes ih =>
    rw [mailboxesUsage]
    split
    · exact ih
    · refine .bind (looks_inMailbox ?_ _) fun _ ↦ .bind ih fun _ ↦ trivial
      exact ⟨rfl, fun _ ↦ reads_mailboxUsage crypto _⟩

theorem looks_archiveUsage (ids : List Uuid) : Looks (archiveUsage crypto ids) := by
  induction ids with
  | nil => trivial
  | cons id ids ih =>
    have hlen : ∀ n, Looks (archivedPlaintextLen crypto id n) := by
      intro n
      rw [archivedPlaintextLen]
      split
      · trivial
      · split
        · trivial
        · exact ⟨rfl, fun b ↦ by cases b <;> trivial⟩
    refine ⟨rfl, fun stat ↦ ?_⟩
    cases stat with
    | none => exact .bind ih fun _ ↦ trivial
    | some stat => exact .bind (hlen _) fun _ ↦ .bind ih fun _ ↦ trivial

theorem looks_accountUsage : Looks (accountUsage crypto) :=
  ⟨rfl, fun _ ↦ .bind (looks_mailboxesUsage crypto _) fun _ ↦
    ⟨rfl, fun _ ↦ .bind (looks_archiveUsage crypto _) fun _ ↦ trivial⟩⟩

end

theorem looks_read (snapshot : Snapshot) (message : MessageRef) :
    Looks (snapshot.read message) := by
  refine looks_inMailbox ?_ _
  exact ⟨rfl, fun _ ↦ trivial⟩

theorem looks_vanishedSince (snapshot : Snapshot) (modseq : ℕ) :
    Looks (snapshot.vanishedSince modseq) := by
  refine looks_inMailbox ?_ _
  exact ⟨rfl, fun _ ↦ trivial⟩

section

variable (uidonly : Bool) (snapshot : Snapshot) (message : MessageRef)

theorem looks_fetchItem (item : FetchItem) :
    Looks (Session.fetchItem uidonly snapshot message item) := by
  have hsection : ∀ part, Looks (Session.fetchSection snapshot message part) :=
    fun part ↦ .bind (looks_read snapshot message) fun _ ↦ trivial
  cases item with
  | preview | body | binary | binarySize => exact hsection _
  | _ => trivial

theorem looks_fetchItems (items : List FetchItem) :
    Looks (Session.fetchItems uidonly snapshot message items) := by
  induction items with
  | nil => trivial
  | cons item items ih =>
    refine .bind (looks_fetchItem uidonly snapshot message item) fun parts ↦ ?_
    cases parts with
    | none => trivial
    | some parts =>
      refine .bind ih fun rest ↦ ?_
      cases rest <;> trivial

end

theorem looks_fetchLoop (uidonly uid : Bool) (snapshot : Snapshot) (sequence : SequenceSet)
    (saved : List ℕ) (items : List FetchItem) (changedSince : Option ℕ) (ns : List ℕ) :
    Looks (Session.fetchLoop uidonly uid snapshot sequence saved items changedSince ns) := by
  induction ns with
  | nil => trivial
  | cons n ns ih =>
    rw [Session.fetchLoop]
    split
    · exact ih
    · split
      · exact ih
      · refine .bind (looks_fetchItems uidonly snapshot _ items) fun data ↦ ?_
        cases data with
        | none => trivial
        | some data =>
          refine .bind ih fun responses ↦ ?_
          cases responses <;> trivial

theorem looks_fetch (sequence : SequenceSet) (items : List FetchItem) (uid : Bool)
    (changedSince : Option ℕ) (vanished : Bool) (s : Session) :
    Looks (s.fetch tag sequence items uid changedSince vanished) := by
  have hvanished : ∀ snapshot, Looks (Session.fetchVanished snapshot vanished changedSince) := by
    intro snapshot
    unfold Session.fetchVanished
    split
    · exact .bind (looks_vanishedSince snapshot _) fun _ ↦ trivial
    · trivial
  rw [Session.fetch]
  split
  · trivial
  · refine .bind (hvanished _) fun _ ↦
      Prog.Only.bind (looks_fetchLoop _ _ _ _ _ _ _ _) fun responses ↦ ?_
    cases responses <;> trivial

theorem looks_selectVanished (snapshot : Snapshot) (qresync : Option (UInt32 × ℕ)) :
    Looks (Session.selectVanished snapshot qresync) := by
  unfold Session.selectVanished
  split
  · split
    · exact .bind (looks_vanishedSince snapshot _) fun _ ↦ trivial
    · trivial
  · trivial

theorem looks_beginLiteral (flagTokens : List Text) (size : ℕ)
    (replace : Option (Text × ℕ)) (s : Session) :
    Looks (s.beginLiteral tag mailbox flagTokens size replace) := by
  refine .bind (looks_mailboxExists mailbox) fun found ↦ ?_
  split
  · refine .bind (looks_accountUsage s.crypto) fun usage ↦ ?_
    split
    · trivial
    · split <;> trivial
  · trivial

/-! ## Handlers -/

theorem takes_openMailbox (retentionDays : ℕ)
    (clock : SystemTime) :
    KeepsTidy used (openMailbox crypto mailbox retentionDays clock) := by
  rw [openMailbox]
  split
  · exact .ret
  · exact takes_inMailbox (.refl _) (takes_openAt crypto mailbox retentionDays _ clock) _

theorem takes_appenduid (id : Uuid) (clock : SystemTime) :
    KeepsTidy used (appenduid mailbox id clock) := by
  refine .bind (takes_openMailbox .disabled mailbox 0 clock) fun snapshot ↦ ?_
  cases snapshot <;> exact .ret

theorem takes_appendTo (flags : List Flag)
    (data : List UInt8) (hid : stamp.id ∉ used) :
    (appendTo crypto mailbox flags data stamp).Takes Account.exec (Account.Tidy used)
      (Account.Tidy (stamp.id :: used)) := by
  rw [appendTo]
  split
  · exact fun _ h ↦ h.mono (List.subset_cons_self _ _)
  · refine .bind (takes_createDirAll _) fun created ↦ ?_
    split
    · exact takes_inMailbox (List.subset_cons_self _ _) (takes_append hid _ flags) _
    · exact fun _ h ↦ h.mono (List.subset_cons_self _ _)

theorem takes_deliverTo (mailbox : Option Text) (data : List UInt8)
    (flagTokens : List Text) (hid : stamp.id ∉ used) :
    (deliverTo crypto mailbox data flagTokens stamp).Takes Account.exec (Account.Tidy used)
      (Account.Tidy (stamp.id :: used)) := by
  refine .bind (takes_createDirAll _) fun _ ↦ ?_
  exact takes_inMailbox (List.subset_cons_self _ _) (takes_deliverToAccount hid _ flagTokens) _

theorem takes_create : KeepsTidy used (create mailbox) := by
  rw [create]
  split
  · exact .ret
  · intro a ha
    rw [run_ifDir]
    split
    · exact ha
    · exact takes_createDirAll _ a ha

theorem takes_delete : KeepsTidy used (delete mailbox) := by
  intro a ha path d hd
  rcases folder_delete mailbox a path with hsame | hnone
  · exact ha.of_folder path hd hsame
  · rw [dirAt, hnone] at hd
    cases hd

theorem takes_rename (source target : Text) : KeepsTidy used (rename source target) := by
  intro a ha path d hd
  rcases folder_rename source target a path with hsame | hnone | ⟨-, -, hmoved⟩
  · exact ha.of_folder path hd hsame
  · rw [dirAt, hnone] at hd
    cases hd
  · exact ha.of_folder (.folder source) hd hmoved

theorem takes_mailboxOp {operation : AccountM (Except Text Unit)} (h : KeepsTidy used operation)
    (tag : Text) (verb : String) (s : Session) :
    KeepsTidy used (s.mailboxOp tag verb operation) := by
  unfold Session.mailboxOp
  split
  · exact .ret
  · refine .bind h fun r ↦ ?_
    cases r <;> exact .ret

theorem takes_select (env : Env) (tag mailbox : Text) (readOnly : Bool)
    (qresync : Option (UInt32 × ℕ)) (s : Session) :
    KeepsTidy used (s.select env tag mailbox readOnly qresync) := by
  unfold Session.select
  split
  · exact .ret
  · refine .bind (takes_of_looks (looks_mailboxExists mailbox)) fun found ↦ ?_
    split
    · refine .bind (takes_openMailbox _ mailbox _ _) fun snapshot ↦ ?_
      cases snapshot with
      | none => exact .ret
      | some snapshot =>
        exact .bind (takes_of_looks (looks_selectVanished snapshot qresync)) fun _ ↦ .ret
    · exact .ret

theorem takes_leave (completed : String) (s : Session) :
    KeepsTidy used (s.leave tag completed) := by
  unfold Session.leave
  split <;> exact .ret

theorem takes_idle (s : Session) : KeepsTidy used (s.idle tag) := by
  unfold Session.idle
  split <;> exact .ret

theorem takes_appendBegin (flagTokens : List Text) (size : ℕ) (s : Session) :
    KeepsTidy used (s.appendBegin tag mailbox flagTokens size) := by
  unfold Session.appendBegin
  split
  · exact .ret
  · exact takes_of_looks (looks_beginLiteral tag mailbox flagTokens size none s)

theorem takes_replaceBegin (sequence : ℕ) (mailbox : Text) (flagTokens : List Text)
    (size : ℕ) (uid : Bool) (s : Session) :
    KeepsTidy used (s.replaceBegin tag sequence mailbox flagTokens size uid) := by
  unfold Session.replaceBegin
  split
  · split
    · exact .ret
    · split
      · exact .ret
      · exact takes_of_looks (looks_beginLiteral tag mailbox flagTokens size _ s)
  · exact .ret

theorem takes_expungeWith {operation : Snapshot → FileM (List ℕ × Snapshot)}
    (h : ∀ snapshot, KeepsTidyAt used (operation snapshot)) (tag : Text)
    (deletedUids : Snapshot → List UInt32) (s : Session) :
    KeepsTidy used (s.expungeWith tag operation deletedUids) := by
  unfold Session.expungeWith
  split
  · split
    · exact .ret
    · exact .bind (takes_inMailbox (.refl _) (h _) _) fun _ ↦ .ret
  · exact .ret

theorem takes_storeLoop (uidonly : Bool) (args : Session.StoreArgs) (saved : List ℕ) (total : ℕ)
    (ns : List ℕ) (snapshot : Snapshot) :
    KeepsTidy used (Session.storeLoop uidonly args saved total ns snapshot) := by
  induction ns generalizing snapshot with
  | nil => exact .ret
  | cons n ns ih =>
    rw [Session.storeLoop]
    split
    · exact ih snapshot
    · split
      · exact ih snapshot
      · split
        · exact .bind (ih snapshot) fun _ ↦ .ret
        · refine .bind (takes_inMailbox (.refl _)
            (takes_storeFlags snapshot n _) _) fun r ↦ ?_
          obtain ⟨stored, left⟩ := r
          cases stored with
          | none => exact .ret
          | some stored => exact .bind (ih left) fun _ ↦ .ret

theorem takes_store (sequence : SequenceSet) (mode : StoreMode)
    (flagTokens : List Text) (silent uid : Bool) (unchangedSince : Option ℕ) (s : Session) :
    KeepsTidy used (s.store tag sequence mode flagTokens silent uid unchangedSince) := by
  unfold Session.store
  split
  · split
    · exact .ret
    · split
      · exact .ret
      · refine .bind (takes_storeLoop _ _ _ _ _ _) fun r ↦ ?_
        obtain ⟨result, left⟩ := r
        cases result <;> exact .ret
  · exact .ret

theorem takes_destUids (target : Text) (clock : SystemTime) (ids : List Uuid) (validity : UInt32) :
    KeepsTidy used (destUids target clock ids validity) := by
  induction ids generalizing validity with
  | nil => exact .ret
  | cons id ids ih =>
    refine .bind (takes_appenduid target id clock) fun r ↦ ?_
    cases r with
    | none => exact .ret
    | some r =>
      refine .bind (ih r.1) fun r' ↦ ?_
      cases r' <;> exact .ret

theorem takes_copyuidCode (target : Text) (clock : SystemTime) (sourceUids : List UInt32)
    (destIds : List Uuid) :
    KeepsTidy used (copyuidCode target clock sourceUids destIds) := by
  rw [copyuidCode]
  split
  · exact .ret
  · refine .bind (takes_destUids target clock destIds 0) fun r ↦ ?_
    cases r with
    | none => exact .ret
    | some r =>
      dsimp only
      split <;> exact .ret

end

/-! ## Handlers that add messages -/

/-- The ids that are drawn for new messages, `n` of them from the `k`-th on. -/
def Env.drawn (env : Env) (k n : ℕ) : List Uuid := (List.range' k n).map fun j ↦ (env.stamp j).id

theorem Env.drawn_succ (env : Env) (k n : ℕ) :
    env.drawn k (n + 1) = (env.stamp k).id :: env.drawn (k + 1) n := by
  rw [drawn, List.range'_succ, List.map_cons, ← drawn]

@[mk_iff]
structure NewIds (ids used : List Uuid) : Prop where
  nodup : ids.Nodup
  unused : ∀ id ∈ ids, id ∉ used

variable {ids : List Uuid}

theorem NewIds.mono {ids' used : List Uuid} (h : NewIds ids used) (hsub : ids'.Sublist ids) :
    NewIds ids' used :=
  ⟨h.nodup.sublist hsub, fun id hid ↦ h.unused id (hsub.subset hid)⟩

theorem NewIds.tail {id : Uuid} {used : List Uuid} (h : NewIds (id :: ids) used) :
    NewIds ids (id :: used) := by
  obtain ⟨hhead, htail⟩ := List.nodup_cons.1 h.nodup
  refine ⟨htail, fun other hother hmem ↦ ?_⟩
  rcases List.mem_cons.1 hmem with rfl | hmem
  · exact hhead hother
  · exact h.unused other (List.mem_cons_of_mem _ hother) hmem

instance (ids used : List Uuid) : Decidable (NewIds ids used) :=
  decidable_of_iff' _ (newIds_iff ids used)

section

variable {used : List Uuid} {env : Env}

theorem takes_copyLoop (crypto : MessageCrypto) (snapshot : Snapshot) (target : Text) {k : ℕ}
    {messages : List MessageRef} (hnew : NewIds (env.drawn k messages.length) used) :
    (Session.copyLoop crypto env.stamp snapshot target k messages).Takes Account.exec
      (Account.Tidy used) (Account.Tidy (env.drawn k messages.length ++ used)) := by
  induction messages generalizing k used with
  | nil => exact .ret
  | cons message messages ih =>
    have hlater : ∀ a : Account, a.Tidy used →
        a.Tidy (env.drawn k (message :: messages).length ++ used) :=
      fun a h ↦ h.mono (List.subset_append_right _ _)
    rw [List.length_cons, Env.drawn_succ] at hnew hlater ⊢
    refine .bind (takes_of_looks (looks_read snapshot message)) fun data ↦ ?_
    cases data with
    | none => exact hlater
    | some data =>
      have hid : (env.stamp k).id ∉ used := hnew.unused _ List.mem_cons_self
      have hsub : env.drawn (k + 1) messages.length ++ (env.stamp k).id :: used ⊆
          (env.stamp k).id :: env.drawn (k + 1) messages.length ++ used :=
        List.perm_middle.subset
      refine .bind (takes_appendTo crypto target message.flags data hid) fun stored ↦ ?_
      cases stored with
      | none => exact fun a h ↦ h.mono (List.Subset.trans (List.subset_append_right _ _) hsub)
      | some id =>
        refine .bind (ih hnew.tail) fun r ↦ ?_
        cases r <;> exact fun a h ↦ h.mono hsub

theorem length_matching_le (snapshot : Snapshot) (sequence : SequenceSet) (uid : Bool)
    (saved : List ℕ) :
    (Session.matching snapshot sequence uid saved).length ≤ snapshot.messages.length := by
  refine (List.length_filterMap_le _ _).trans ?_
  rw [Snapshot.sequenceNumbers, List.length_map, List.length_range]
  exact min_le_left _ _

variable {n : ℕ} {s : Session}

theorem takes_copy (hnew : NewIds (env.drawn 0 n) used) (tag : Text)
    (sequence : SequenceSet) (target : Text) (uid removeSource : Bool)
    (hn : ∀ snapshot ∈ s.snapshot?, snapshot.messages.length ≤ n) :
    (s.copy env tag sequence target uid removeSource).Takes Account.exec (Account.Tidy used)
      (Account.Tidy (env.drawn 0 n ++ used)) := by
  have hlater : ∀ a : Account, a.Tidy used → a.Tidy (env.drawn 0 n ++ used) :=
    fun a h ↦ h.mono (List.subset_append_right _ _)
  unfold Session.copy
  split
  next mailbox snapshot readOnly hstate =>
    have hsnapshot : snapshot.messages.length ≤ n := by
      refine hn snapshot ?_
      rw [Session.snapshot?, hstate]
      rfl
    split
    · exact hlater
    · refine .bind (takes_of_looks (looks_mailboxExists target)) fun found ↦ ?_
      split
      · set matched := Session.matching snapshot sequence uid (s.savedSeqnosFor uid)
        have hlen : (matched.map Prod.snd).length ≤ n := by
          rw [List.length_map]
          exact (length_matching_le _ _ _ _).trans hsnapshot
        have hsublist : (env.drawn 0 (matched.map Prod.snd).length).Sublist (env.drawn 0 n) :=
          (List.range'_sublist_right.2 hlen).map _
        have hdrawn : ∀ a : Account, a.Tidy (env.drawn 0 (matched.map Prod.snd).length ++ used) →
            a.Tidy (env.drawn 0 n ++ used) := fun a h ↦
          h.mono (List.append_subset.2 ⟨List.Subset.trans hsublist.subset
            (List.subset_append_left _ _), List.subset_append_right _ _⟩)
        refine .bind (takes_copyLoop s.crypto snapshot target (hnew.mono hsublist))
          fun r ↦ ?_
        cases r with
        | error error => exact hdrawn
        | ok destIds =>
          refine .bind (takes_copyuidCode target env.clock _ destIds) fun code ↦ ?_
          split
          · refine .bind (takes_inMailbox (.refl _)
              (takes_moveLoop 0 _ snapshot) _) fun r ↦ ?_
            dsimp only
            split <;> exact hdrawn
          · exact hdrawn
      · exact hlater
  · exact hlater

theorem takes_replaceExpunge (tag selected : Text) (seq : ℕ) (code : Text) (s : Session) :
    KeepsTidy used (s.replaceExpunge env tag selected seq code) := by
  refine .bind (takes_openMailbox _ selected _ _) fun snapshot ↦ ?_
  cases snapshot with
  | none => exact .ret
  | some snapshot =>
    refine .bind (takes_inMailbox (.refl _) (takes_removeAt snapshot seq) _)
      fun r ↦ ?_
    dsimp only
    split <;> exact .ret

theorem takes_appenduidCode (mailbox : Text) (id : Uuid) (clock : SystemTime) :
    KeepsTidy used (Session.appenduidCode mailbox id clock) := by
  refine .bind (takes_appenduid mailbox id clock) fun r ↦ ?_
  cases r <;> exact .ret

theorem takes_literalDone (hid : (env.stamp 0).id ∉ used) (data : List UInt8) (s : Session) :
    (s.literalDone env data).Takes Account.exec (Account.Tidy used)
      (Account.Tidy ((env.stamp 0).id :: used)) := by
  have hlater : ∀ a : Account, a.Tidy used → a.Tidy ((env.stamp 0).id :: used) :=
    fun a h ↦ h.mono (List.subset_cons_self _ _)
  unfold Session.literalDone
  split
  · exact hlater
  · dsimp only
    split
    · exact hlater
    · refine .bind (takes_appendTo _ _ _ data hid) fun stored ↦ ?_
      cases stored with
      | none => exact .ret
      | some id =>
        refine .bind (takes_appenduidCode _ id env.clock) fun code ↦ ?_
        split
        · exact .ret
        · exact takes_replaceExpunge _ _ _ code _

theorem takes_checkIdle (s : Session) : KeepsTidy used (s.checkIdle env) := by
  unfold Session.checkIdle
  split
  · refine .bind (takes_openMailbox _ _ _ _) fun fresh ↦ ?_
    cases fresh with
    | none => exact .ret
    | some fresh =>
      dsimp only
      split <;> exact .ret
  · exact .ret

/-- **A command of a session leaves every mailbox tidy**, whatever the command. -/
theorem takes_apply (hnew : NewIds (env.drawn 0 n) used) (tag : Text) (command : Session.Command)
    (hn : ∀ snapshot ∈ s.snapshot?, snapshot.messages.length ≤ n) :
    (s.apply env tag command).Takes Account.exec (Account.Tidy used)
      (Account.Tidy (env.drawn 0 n ++ used)) := by
  have hkeep : ∀ {p : Handler}, p.Takes exec (Account.Tidy used) (Account.Tidy used) →
      p.Takes exec (Account.Tidy used) (Account.Tidy (env.drawn 0 n ++ used)) :=
    fun h a ha ↦ (h a ha).mono (List.subset_append_right _ _)
  rw [Session.apply]
  split
  · exact hkeep .ret
  · cases command with
    | noop => exact hkeep .ret
    | select mailbox qresync => exact hkeep (takes_select env tag mailbox false qresync s)
    | examine mailbox qresync => exact hkeep (takes_select env tag mailbox true qresync s)
    | create mailbox => exact hkeep (takes_mailboxOp (takes_create mailbox) tag _ s)
    | delete mailbox => exact hkeep (takes_mailboxOp (takes_delete mailbox) tag _ s)
    | rename source target => exact hkeep (takes_mailboxOp (takes_rename source target) tag _ s)
    | expunge =>
      exact hkeep (takes_expungeWith (fun snapshot ↦ takes_expungeWhere snapshot _) tag _ s)
    | uidExpunge sequence =>
      exact hkeep (takes_expungeWith (fun snapshot ↦ takes_expungeWhere snapshot _) tag _ s)
    | fetch sequence items uid changedSince vanished =>
      exact hkeep (takes_of_looks (looks_fetch tag sequence items uid changedSince vanished s))
    | store sequence mode flags silent uid unchangedSince =>
      exact hkeep (takes_store tag sequence mode flags silent uid unchangedSince s)
    | copy sequence mailbox uid removeSource =>
      exact takes_copy hnew tag sequence mailbox uid removeSource hn
    | close | unselect => exact hkeep (takes_leave tag _ s)
    | idle => exact hkeep (takes_idle tag s)
    | append mailbox flags size => exact hkeep (takes_appendBegin tag mailbox flags size s)
    | replace sequence mailbox flags size uid =>
      exact hkeep (takes_replaceBegin tag sequence mailbox flags size uid s)

end

end Epistle.Imap
