import Epistle.Imap.Sessions

/-!
# When the index agrees with the scan

The index is trusted on its stamp alone: the mod-sequence counter and the number of message files.
The documentation of the index says that a stale index is never used. Across the single file-system
calls of concurrent sessions that is not so. A flag change renames the flags file into place before
it advances the counter, and in between a fresh index shows the old flags under a stamp that is
still current.

This file says which schedules are safe, and proves it. A schedule is *orderly* when

* a call that changes what a scan reads leaves no index behind that is stamped with the generation
  it results in;
* an index that is renamed into place under a current stamp comes from an open during which no
  other session touched the files a scan reads;
* message files are not dated before the Unix epoch.

## Proof outline

The second condition needs history: a session is *calm* when no other session has touched the core
of the directory since it began to open the mailbox. The proof is a rely–guarantee argument. What a
session relies on is that, as long as it is calm, the core has not changed; what it must be sure of
is needed only when it writes the index, and says that the text is right if it is calm.
-/

namespace Epistle.Imap

open TextFormat Interleaving

/-! ## Orderly schedules -/

namespace Index

/-- The generation an index file is stamped with. -/
def stampOf (text : Text) : Option (ℕ × ℕ) :=
  match lines text with
  | _ :: stamp :: _ => parseStamp stamp
  | _ => none

theorem stampOf_of_parse {text : Text} {generation : ℕ × ℕ} {messages : List MessageRef}
    (h : parse text generation = some messages) : stampOf text = some generation := by
  rw [parse] at h
  rw [stampOf]
  revert h
  rcases lines text with _ | ⟨header, _ | ⟨stamp, records⟩⟩
  · intro h
    cases h
  · intro h
    cases h
  · intro h
    dsimp only at h ⊢
    by_contra hne
    rw [if_neg fun hok ↦ hne hok.2] at h
    cases h

end Index

/-- The file a call renames into place. -/
def Op.renames : Op → Option Sidecar
  | .rename k => some k
  | _ => none

/-- The message a call moves into the mailbox. -/
def Op.publishes : Op → Option Uuid
  | .publish id => some id
  | _ => none

/-- Calls that change nothing but read. -/
def Op.isQuery : Op → Bool
  | .read _ | .readDir | .stat _ | .fileHasMagic _ | .readMail _ => true
  | _ => false

namespace IndexFresh

structure History where
  /-- Since the session began to open the mailbox, no other session has made a call that can change
  the core of the directory. -/
  calm : ℕ → Bool
  /-- The author of the temporary index file was calm when it wrote it, and no call that can change
  the core was made since. -/
  tempCalm : Bool

def History.act (g : History) (s : ℕ) (o : Op) : History :=
  if o.disturbs then { calm := fun t ↦ t == s && g.calm t, tempCalm := false }
  else match o with
    | .writeTmp .index _ => { g with tempCalm := g.calm s }
    | _ => g

def History.next (g : History) : Label Op Command → History
  | .start s (.openMailbox ..) => { g with calm := Function.update g.calm s true }
  | .start _ _ => g
  | .act s o => g.act s o
  | .crash => { g with calm := fun _ ↦ false }

/-- The two directories are the same to a scan. -/
structure SameScan (d d' : Dir) : Prop where
  mails : d'.mails = d.mails
  modseqctr : d'.files .modseqctr = d.files .modseqctr
  uid : ∀ id ∈ d.mails.keys, d'.files (.uid id) = d.files (.uid id)
  flags : ∀ id ∈ d.mails.keys, d'.files (.flags id) = d.files (.flags id)
  modseq : ∀ id ∈ d.mails.keys, d'.files (.modseq id) = d.files (.modseq id)

instance (d d' : Dir) : Decidable (SameScan d d') :=
  decidable_of_iff (d'.mails.entries = d.mails.entries ∧ d'.files .modseqctr = d.files .modseqctr ∧
      (∀ id ∈ d.mails.keys, d'.files (.uid id) = d.files (.uid id)) ∧
      (∀ id ∈ d.mails.keys, d'.files (.flags id) = d.files (.flags id)) ∧
      ∀ id ∈ d.mails.keys, d'.files (.modseq id) = d.files (.modseq id))
    ⟨fun ⟨h₁, h₂, h₃, h₄, h₅⟩ ↦ ⟨AList.ext h₁, h₂, h₃, h₄, h₅⟩,
      fun ⟨h₁, h₂, h₃, h₄, h₅⟩ ↦ ⟨congrArg AList.entries h₁, h₂, h₃, h₄, h₅⟩⟩

def Stale (d : Dir) : Prop :=
  ∀ text ∈ d.files .index, Index.stampOf text ≠ some d.core.generation

instance (d : Dir) : Decidable (Stale d) :=
  inferInstanceAs (Decidable (∀ text ∈ d.files .index, Index.stampOf text ≠ some d.core.generation))

@[mk_iff]
structure OrderlyAct (g : History) (d : Dir) (o : Op) : Prop where
  /-- A call that changes what a scan reads leaves no index stamped with the new generation. -/
  stale : SameScan d (Dir.exec o d).2 ∨ Stale (Dir.exec o d).2
  /-- An index renamed into place under a current stamp was written by a calm session. -/
  rename : o.renames = some .index → ∀ text ∈ d.temps .index,
    Index.stampOf text = some d.core.generation → g.tempCalm = true
  /-- Message files are not dated before the epoch. -/
  publish : ∀ id ∈ o.publishes, ∀ mail ∈ d.staged id, 0 ≤ mail.mtime.secs

instance (g : History) (d : Dir) (o : Op) : Decidable (OrderlyAct g d o) :=
  decidable_of_iff' _ (orderlyAct_iff g d o)

/-- The monitor of orderly schedules. -/
def monitor : Monitor Op Command Dir History where
  first := ⟨fun _ ↦ false, false⟩
  next := fun g _ l ↦ g.next l
  guard := fun g d l ↦
    match l with
    | .act _ o => OrderlyAct g d o
    | _ => True

instance (g : History) (d : Dir) (l : Label Op Command) : Decidable (monitor.guard g d l) :=
  match l with
  | .act _ o => inferInstanceAs (Decidable (OrderlyAct g d o))
  | .start _ _ => isTrue trivial
  | .crash => isTrue trivial

/-! ## Texts that are right about a directory -/

variable (crypto : MessageCrypto)

/-- If the text is loaded under the current generation, it is what a scan gathers. -/
def Faithful (text : Text) (κ : Core) : Prop :=
  ∀ messages, Index.parse text κ.generation = some messages →
    messages = κ.view crypto ∧ κ.Assigned

variable {crypto}

variable {text : Text} {κ : Core} {id : Uuid}

/-- What an index file says of a directory depends on no more than a scan reads. -/
theorem Faithful.of_sameScan {d d' : Dir} (h : Faithful crypto text d.core)
    (hd : SameScan d d') : Faithful crypto text d'.core := by
  have hgen : d'.core.generation = d.core.generation := by
    simp only [Core.generation, Dir.core, hd.mails, hd.modseqctr]
  have hview : d'.core.view crypto = d.core.view crypto := by
    simp only [Core.view, Dir.core, hd.mails]
    refine List.map_congr_left fun id hid ↦ ?_
    have hmem : id ∈ d.mails.keys := (List.mem_insertionSort _).1 hid
    simp only [Core.entry, hd.uid id hmem, hd.flags id hmem, hd.modseq id hmem]
  have hassigned : d.core.Assigned → d'.core.Assigned := fun h id hid ↦ by
    have hmem : id ∈ d.mails.keys := by rw [← hd.mails]; exact hid
    have hsome := h id hmem
    simp only [Dir.core, hd.uid id hmem] at hsome ⊢
    exact hsome
  intro messages hparse
  rw [hgen] at hparse
  obtain ⟨hmessages, hall⟩ := h messages hparse
  exact ⟨hmessages.trans hview.symm, hassigned hall⟩

theorem Faithful.of_not_stamped
    (h : Index.stampOf text ≠ some κ.generation) : Faithful crypto text κ :=
  fun _ hparse ↦ absurd (Index.stampOf_of_parse hparse) h

/-! ## The discipline -/

structure Inv (crypto : MessageCrypto) (w : Dir × History) : Prop where
  index : ∀ text, w.1.files .index = some text → Faithful crypto text w.1.core
  temp : w.2.tempCalm = true → ∀ text, w.1.temps .index = some text → Faithful crypto text w.1.core
  dates : ∀ id mail, w.1.mails.lookup id = some mail → 0 ≤ mail.mtime.secs

/-- As long as a session is calm, the core has not changed. -/
def Rely (s : ℕ) (w w' : Dir × History) : Prop :=
  w'.2.calm s = true → w.2.calm s = true ∧ w'.1.core = w.1.core

/-- What a session must be sure of: that it writes an index that is right if it is calm. -/
def Pre (crypto : MessageCrypto) (s : ℕ) (o : Op) (w : Dir × History) : Prop :=
  match o with
  | .writeTmp .index text => w.2.calm s = true → Faithful crypto text w.1.core
  | .write .index _ => False
  | _ => True

variable {g : History} {o : Op} {t : ℕ}

/-- A session that is calm after a call of another session was calm before it, and the call did not
disturb. -/
theorem History.calm_act {s : ℕ} (hst : s ≠ t)
    (h : (g.act s o).calm t = true) : o.disturbs = false ∧ g.calm t = true := by
  unfold History.act at h
  split at h
  next => simp [Ne.symm hst] at h
  next ho =>
    refine ⟨Bool.eq_false_iff.2 ho, ?_⟩
    split at h <;> exact h

theorem History.tempCalm_act {s : ℕ} (h : (g.act s o).tempCalm = true) :
    o.disturbs = false ∧ ((∃ text, o = .writeTmp .index text) ∧ g.calm s = true ∨
      (∀ text, o ≠ .writeTmp .index text) ∧ g.tempCalm = true) := by
  unfold History.act at h
  split at h
  next => cases h
  next ho =>
    refine ⟨Bool.eq_false_iff.2 ho, ?_⟩
    split at h
    next text => exact .inl ⟨⟨text, rfl⟩, h⟩
    next hne => exact .inr ⟨fun text htext ↦ hne text htext, h⟩

theorem Inv.act {s : ℕ} {w : Dir × History} (hw : Inv crypto w)
    (hguard : OrderlyAct w.2 w.1 o) (hpre : Pre crypto s o w) :
    Inv crypto ((Dir.exec o w.1).2, w.2.act s o) := by
  have hwrite : ∀ t, o ≠ .write .index t := by
    rintro t rfl
    exact hpre
  refine ⟨fun text htext ↦ ?_, fun hcalm text htext ↦ ?_, fun id mail hmail ↦ ?_⟩
  · rcases hguard.stale with hsame | hstale
    · refine Faithful.of_sameScan ?_ hsame
      rcases Dir.exec_files htext (by decide) with hold | ⟨ho, htemp⟩ | ho
      · exact hw.index text hold
      · -- An index renamed into place is right unless its stamp is not current.
        by_cases hstamp : Index.stampOf text = some w.1.core.generation
        · exact hw.temp (hguard.rename (by rw [ho]; rfl) text htemp hstamp) text htemp
        · exact .of_not_stamped hstamp
      · exact absurd ho (hwrite text)
    · exact .of_not_stamped (hstale text htext)
  · obtain ⟨hquiet, hcase⟩ := History.tempCalm_act hcalm
    rw [Dir.core_exec w.1 hquiet]
    rcases Dir.exec_temps htext with hold | rfl
    · rcases hcase with ⟨⟨t, rfl⟩, hs⟩ | ⟨-, htemp⟩
      · have ht : t = text := by
          simpa [Dir.exec] using htext
        subst ht
        exact hpre hs
      · exact hw.temp htemp text hold
    · rcases hcase with ⟨-, hs⟩ | ⟨hne, -⟩
      · exact hpre hs
      · exact absurd rfl (hne text)
  · rcases Dir.exec_mails hmail with hold | ⟨ho, hstaged⟩
    · exact hw.dates id mail hold
    · exact hguard.publish id (by rw [ho]; rfl) mail hstaged

theorem Rely.act {s : ℕ} {w : Dir × History} (hst : s ≠ t) :
    Rely t w ((Dir.exec o w.1).2, w.2.act s o) := by
  intro hcalm
  obtain ⟨hquiet, hold⟩ := History.calm_act hst hcalm
  exact ⟨hold, Dir.core_exec w.1 hquiet⟩

theorem Rely.start {s : ℕ} {c : Command} {w : Dir × History} (hst : s ≠ t) :
    Rely t w (w.1, w.2.next (.start s c)) := by
  intro hcalm
  refine ⟨?_, rfl⟩
  cases c with
  | openMailbox mailbox retentionDays now clock =>
    have hupdate : Function.update w.2.calm s true t = true := hcalm
    rwa [Function.update_of_ne (Ne.symm hst)] at hupdate
  | _ => exact hcalm

theorem Inv.next {w : Dir × History} (hw : Inv crypto w)
    (hg : g.tempCalm = w.2.tempCalm) : Inv crypto (w.1, g) :=
  ⟨hw.index, fun h ↦ hw.temp (hg ▸ h), hw.dates⟩

/-- The invariant of the index, with what keeps it. -/
def discipline (crypto : MessageCrypto) : Discipline (system crypto) monitor where
  inv := Inv crypto
  rely := Rely
  pre := Pre crypto
  rest := fun _ _ _ ↦ True
  rely_refl := fun _ _ h ↦ ⟨h, rfl⟩
  rely_trans := fun h h' hcalm ↦ ⟨(h (h' hcalm).1).1, (h' hcalm).2.trans (h (h' hcalm).1).2⟩
  inv_act := fun hw hguard hpre ↦ hw.act hguard hpre
  rely_act := fun hst _ _ _ ↦ Rely.act hst
  inv_start := fun {_ c _} hw _ ↦ hw.next (by cases c <;> rfl)
  rely_start := fun hst _ _ ↦ Rely.start hst
  inv_crash := fun hw _ ↦ hw.next rfl
  rest_idle := fun _ ↦ trivial

/-! ## The programs -/

/-- If the session is calm, `P` holds of the core. -/
def Calm (s : ℕ) (P : Core → Prop) (w : Dir × History) : Prop :=
  w.2.calm s = true → P w.1.core

variable {s : ℕ} {P : Core → Prop} {w w' : Dir × History} {α : Type} {Q : α → Dir × History → Prop}

/-- What a calm session knows of the core, the others do not take away. -/
theorem Calm.rely (h : Calm s P w) (hw : Rely s w w') : Calm s P w' := by
  intro hcalm
  obtain ⟨hold, hcore⟩ := hw hcalm
  rw [hcore]
  exact h hold

theorem Calm.mono (h : Calm s P w) {P' : Core → Prop} (hP : ∀ κ, P κ → P' κ) : Calm s P' w :=
  fun hcalm ↦ hP _ (h hcalm)

theorem safe_ret {R : α → Core → Prop} {a : α} (h : Calm s (R a) w) :
    (discipline crypto).Safe s (fun r ↦ Calm s (R r)) (.ret a) w :=
  Discipline.Safe.ret fun _ hrely _ ↦ h.rely hrely

theorem safe_query {k : Ans o → FileM α} (ho : o.isQuery = true)
    (h : ∀ w', Rely s w w' → Inv crypto w' →
      (discipline crypto).Safe s Q (k (Dir.exec o w'.1).1) w') :
    (discipline crypto).Safe s Q (.call o k) w := by
  refine .call fun w' hrely hinv _ ↦ ⟨?_, ?_⟩
  · cases o <;> trivial
  · have hafter : (system crypto).after monitor w' (.act s o) = w' := by
      cases o <;> first | rfl | cases ho
    rw [hafter]
    exact h w' hrely hinv

theorem pre_of_ne (h : ∀ text, o ≠ .writeTmp .index text ∧ o ≠ .write .index text) :
    Pre crypto s o w := by
  unfold Pre
  split
  next text => exact absurd rfl (h text).1
  next text => exact absurd rfl (h text).2
  next => trivial

theorem History.calm_of_calm_act_self (h : (g.act s o).calm s = true) :
    g.calm s = true := by
  unfold History.act at h
  split at h
  · simpa using h
  · split at h <;> exact h

theorem safe_own {k : Ans o → FileM α} {R : Core → Prop}
    (hindex : ∀ text, o ≠ .writeTmp .index text ∧ o ≠ .write .index text)
    (hstep : ∀ d, P d.core → R (Dir.exec o d).2.core) (hP : Calm s P w)
    (h : ∀ d w', Inv crypto w' → Calm s R w' →
      (discipline crypto).Safe s Q (k (Dir.exec o d).1) w') :
    (discipline crypto).Safe s Q (.call o k) w := by
  refine .call fun w' hrely hinv hguard ↦ ?_
  have hpre : Pre crypto s o w' := pre_of_ne hindex
  refine ⟨hpre, h _ _ (hinv.act hguard hpre) fun hcalm ↦ ?_⟩
  exact hstep w'.1 (hP.rely hrely (History.calm_of_calm_act_self hcalm))

theorem safe_quiet {k : Ans o → FileM α} (ho : o.disturbs = false)
    (hindex : ∀ text, o ≠ .writeTmp .index text ∧ o ≠ .write .index text) (hP : Calm s P w)
    (h : ∀ d w', Inv crypto w' → Calm s P w' →
      (discipline crypto).Safe s Q (k (Dir.exec o d).1) w') :
    (discipline crypto).Safe s Q (.call o k) w :=
  safe_own hindex (fun d hd ↦ (Dir.core_exec d ho).symm ▸ hd) hP h

/-- Programs that do not write the index keep the invariant, whatever else they do. -/
theorem safe_of_only {p : FileM α} (hw : Inv crypto w)
    (hp : p.Only fun o ↦ ∀ text, o ≠ .writeTmp .index text ∧ o ≠ .write .index text) :
    (discipline crypto).Safe s (fun _ _ ↦ True) p w := by
  refine .mono hw (Discipline.Safe.of_only
    (F := fun _ ↦ True) (fun _ _ ↦ trivial) ?_ hp (.trivial p) trivial) fun _ _ _ _ ↦ trivial
  exact fun ho _ _ _ ↦ ⟨pre_of_ne ho, trivial⟩

theorem safe_sparesScan {p : FileM α} (hw : Inv crypto w) (hp : SparesScan p) :
    (discipline crypto).Safe s (fun _ _ ↦ True) p w := by
  refine safe_of_only hw (hp.mono fun o ho text ↦ ⟨?_, ?_⟩) <;>
  · rintro rfl
    cases ho

/-- `P` survives the two calls that give `id` its first UID. -/
structure UidStable (id : Uuid) (P : Core → Prop) : Prop where
  setUidTemp : ∀ {κ : Core} (uid : UInt32), P κ → P (κ.setUidTemp id uid)
  assign : ∀ {κ : Core} (uid : UInt32), κ.uid id = none → P κ → P (κ.assign id uid)

theorem safe_assignOrRead (counter : UInt32) (hP : UidStable id P) (h : Calm s P w) :
    (discipline crypto).Safe s (fun r ↦ Calm s fun κ ↦ P κ ∧ κ.uid id = some r.1)
      (Uid.assignOrRead id counter) w := by
  unfold Uid.assignOrRead Uid.readMessage Uid.writeMessage replaceFile
  simp only [Prog.op_bind]
  refine safe_query rfl fun w₁ h₁ hw₁ ↦ ?_
  split
  next uid huid => exact safe_ret fun hcalm ↦ ⟨h.rely h₁ hcalm, huid⟩
  next hnone =>
    have hnew : Calm s (fun κ ↦ P κ ∧ κ.uid id = none) w₁ := fun hcalm ↦
      ⟨h.rely h₁ hcalm, hnone⟩
    refine safe_own (R := fun κ ↦ P κ ∧ κ.uid id = none ∧ κ.uidTemp id = some (counter + 1))
      (fun _ ↦ ⟨by simp, by simp⟩) (fun d hd ↦ ?_) hnew fun d w₂ hw₂ h₂ ↦ ?_
    · rw [Dir.core_setUidTemp]
      exact ⟨hP.setUidTemp _ hd.1, hd.2, Function.update_self ..⟩
    · refine safe_own (R := fun κ ↦ P κ ∧ κ.uid id = some (counter + 1))
        (fun _ ↦ ⟨by simp, by simp⟩) (fun d hd ↦ ?_) h₂ fun _ w₃ _ h₃ ↦ safe_ret h₃
      rw [Dir.core_rename_uid hd.2.2]
      exact ⟨hP.assign _ hd.2.1 hd.1, Function.update_self ..⟩

/-- The size a scan computes is the message's, if the length it started from was. -/
theorem safe_storedPlaintextLen {len : ℕ}
    (h : Calm s (fun κ ↦ P κ ∧ ∃ mail, κ.mails.lookup id = some mail ∧
      len = mail.stored.length) w) :
    (discipline crypto).Safe s
      (fun size ↦ Calm s fun κ ↦ P κ ∧
        ∃ mail, κ.mails.lookup id = some mail ∧ size = Core.plaintextLen crypto mail)
      (storedPlaintextLen crypto id len) w := by
  unfold storedPlaintextLen
  split
  next hkey =>
    refine safe_ret (h.mono ?_)
    rintro κ ⟨hPκ, mail, hmail, rfl⟩
    exact ⟨hPκ, mail, hmail, by rw [Core.plaintextLen, if_pos hkey]⟩
  next hkey =>
    split
    next hlen =>
      refine safe_ret (h.mono ?_)
      rintro κ ⟨hPκ, mail, hmail, rfl⟩
      exact ⟨hPκ, mail, hmail, by rw [Core.plaintextLen, if_neg hkey, if_pos hlen]⟩
    next hlen =>
      simp only [Prog.op_bind, Prog.pure_eq_ret, ← apply_ite Prog.ret]
      refine safe_query rfl fun w₁ h₁ _ ↦ safe_ret fun hcalm ↦ ?_
      obtain ⟨hPκ, mail, hmail, rfl⟩ := h.rely h₁ hcalm
      have hmagic : (Dir.exec (.fileHasMagic id) w₁.1).1 =
          MessageCrypto.magic.isPrefixOf mail.stored := by
        have hlookup : w₁.1.mails.lookup id = some mail := hmail
        simp [Dir.exec, hlookup]
      refine ⟨hPκ, mail, hmail, ?_⟩
      rw [hmagic, Core.plaintextLen, if_neg hkey, if_neg hlen]

/-- How far a scan has come, for a session that is calm: the listing it started from is that of the
directory, and what it gathered is right. -/
structure Progress (crypto : MessageCrypto) (entries : List Uuid) (done : List MessageRef)
    (κ : Core) : Prop where
  keys_eq : κ.mails.keys = entries
  seen : ∀ message ∈ done, κ.Seen crypto message

variable {entries : List Uuid} {done : List MessageRef}

theorem uidStable_progress (id : Uuid) : UidStable id (Progress crypto entries done) where
  setUidTemp _ h := ⟨h.keys_eq, h.seen⟩
  assign uid hid h := ⟨h.keys_eq, fun m hm ↦ (h.seen m hm).assign hid uid⟩

/-- What is known of one message once its file was looked at. -/
private structure Sized (crypto : MessageCrypto) (id : Uuid) (size : ℕ) (date : SystemTime)
    (κ : Core) : Prop where
  size_eq : size = (κ.mails.lookup id).elim 0 (Core.plaintextLen crypto)
  date_eq : date = (κ.mails.lookup id).elim SystemTime.unixEpoch Mail.mtime

theorem safe_scanMessage (id : Uuid) (counter : UInt32)
    (h : Calm s (Progress crypto entries done) w) :
    (discipline crypto).Safe s
      (fun r w ↦ Calm s (Progress crypto entries (done ++ [r.1])) w ∧ r.1.id = id)
      (scanMessage crypto id counter) w := by
  unfold scanMessage
  refine safe_query rfl fun w₁ h₁ hw₁ ↦ ?_
  generalize hstat : (Dir.exec (.stat id) w₁.1).1 = stat
  have hstat₁ : Calm s (fun κ ↦ Progress crypto entries done κ ∧
      stat = (κ.mails.lookup id).map fun mail ↦ ⟨mail.stored.length, mail.mtime⟩) w₁ :=
    fun hcalm ↦ ⟨h.rely h₁ hcalm, hstat.symm⟩
  refine .bind (R := fun size ↦ Calm s fun κ ↦
    Progress crypto entries done κ ∧
      Sized crypto id size (stat.elim SystemTime.unixEpoch Stat.modified) κ) hw₁ ?_ ?_
  · cases stat with
    | none =>
      refine safe_ret (hstat₁.mono fun κ hκ ↦ ⟨hκ.1, ?_⟩)
      have hnone : κ.mails.lookup id = none := Option.map_eq_none_iff.1 hκ.2.symm
      exact ⟨by rw [hnone]; rfl, by rw [hnone]; rfl⟩
    | some stat =>
      refine .mono hw₁
        (safe_storedPlaintextLen (P := fun κ ↦ Progress crypto entries done κ ∧
          ∃ mail, κ.mails.lookup id = some mail ∧ stat = ⟨mail.stored.length, mail.mtime⟩) ?_) ?_
      · refine hstat₁.mono fun κ hκ ↦ ?_
        obtain ⟨mail, hmail, hmap⟩ := Option.map_eq_some_iff.1 hκ.2.symm
        exact ⟨⟨hκ.1, mail, hmail, hmap.symm⟩, mail, hmail, by rw [← hmap]⟩
      · rintro size w₂ _ h₂
        refine h₂.mono ?_
        rintro κ ⟨⟨hκ, mail, hmail, rfl⟩, mail', hmail', rfl⟩
        rw [hmail, Option.some.injEq] at hmail'
        subst hmail'
        exact ⟨hκ, by rw [hmail]; rfl, by rw [hmail]; rfl⟩
  · intro size w₂ hw₂ h₂
    refine .bind hw₂ (safe_assignOrRead counter ?_ h₂) ?_
    · exact {
        setUidTemp := fun uid hκ ↦ ⟨(uidStable_progress id).setUidTemp uid hκ.1, hκ.2.1, hκ.2.2⟩
        assign := fun uid hid hκ ↦
          ⟨(uidStable_progress id).assign uid hid hκ.1, hκ.2.1, hκ.2.2⟩ }
    · rintro ⟨uid, counter⟩ w₃ hw₃ h₃
      refine safe_query rfl fun w₄ h₄ hw₄ ↦ safe_query rfl fun w₅ h₅ hw₅ ↦ ?_
      have hflags : Calm s (fun κ ↦ (κ.flags id) = w₄.1.files (.flags id)) w₄ := fun _ ↦ rfl
      refine .ret fun w₆ h₆ _ ↦ ⟨Calm.rely (fun hcalm ↦ ?_) h₆, rfl⟩
      obtain ⟨⟨hκ, hsize, hdate⟩, huid⟩ := (h₃.rely h₄).rely h₅ hcalm
      refine ⟨hκ.keys_eq, fun m hm ↦ ?_⟩
      rcases List.mem_append.1 hm with hm | hm
      · exact hκ.seen m hm
      · rw [List.mem_singleton] at hm
        subst hm
        refine ⟨?_, by rw [huid]; rfl⟩
        have hflags₅ := hflags.rely h₅ hcalm
        simp only [Core.entry, huid, hflags₅, hsize, hdate, Option.getD_some]
        rfl

theorem safe_scanMessages (ids : List Uuid) (counter : UInt32) (hw : Inv crypto w)
    (h : Calm s (Progress crypto entries done) w) :
    (discipline crypto).Safe s
      (fun r w ↦ Calm s (Progress crypto entries (done ++ r.1)) w ∧
        r.1.map MessageRef.id = ids)
      (scanMessages crypto ids counter) w := by
  induction ids generalizing counter done w with
  | nil =>
    refine .ret fun w₁ h₁ _ ↦ ⟨?_, rfl⟩
    rw [List.append_nil]
    exact h.rely h₁
  | cons id ids ih =>
    refine .bind hw (safe_scanMessage id counter h) ?_
    rintro ⟨message, counter⟩ w₁ hw₁ ⟨h₁, hid⟩
    refine .bind hw₁ (ih counter hw₁ h₁) ?_
    rintro ⟨messages, counter⟩ w₂ hw₂ ⟨h₂, hids⟩
    refine .ret fun w₃ h₃ _ ↦ ⟨?_, by rw [List.map_cons, hid, hids]⟩
    rw [List.append_assoc, List.singleton_append] at h₂
    exact h₂.rely h₃

/-- A scan that gathered every message rightly gathered the view of the directory. -/
theorem Progress.eq_view {messages : List MessageRef} (h : Progress crypto entries messages κ)
    (hids : messages.map MessageRef.id = sortIds entries) :
    messages = κ.view crypto ∧ κ.Assigned := by
  refine ⟨?_, fun id hid ↦ ?_⟩
  · rw [Core.view, h.keys_eq, ← hids, List.map_map]
    exact (List.map_id' messages).symm.trans (List.map_congr_left fun m hm ↦ (h.seen m hm).1)
  · have hmem : id ∈ messages.map MessageRef.id := by
      rw [hids]
      exact (List.mem_insertionSort _).2 (h.keys_eq ▸ hid)
    obtain ⟨message, hmessage, rfl⟩ := List.mem_map.1 hmem
    exact (h.seen message hmessage).2

/-- A scan by a session that stays calm returns the view of the directory. -/
theorem safe_scanMailbox :
    (discipline crypto).Safe s
      (fun r ↦ Calm s fun κ ↦ ∀ messages, r = some messages →
        messages = κ.view crypto ∧ κ.Assigned)
      (scanMailbox crypto) w := by
  unfold scanMailbox Uid.readCounter
  simp only [Prog.op_bind, Prog.call_bind, Prog.pure_eq_ret, Prog.ret_bind]
  refine safe_query rfl fun w₁ _ _ ↦ ?_
  have hprogress : Calm s (Progress crypto w₁.1.mails.keys []) w₁ := fun _ ↦ ⟨rfl, by simp⟩
  refine safe_query rfl fun w₂ h₂ hw₂ ↦ ?_
  refine .bind hw₂
    (safe_scanMessages _ _ hw₂ (hprogress.rely h₂)) ?_
  rintro ⟨messages, counter⟩ w₃ hw₃ ⟨h₃, hids⟩
  have hdone : Calm s (fun κ ↦ ∀ found, some messages = some found →
      found = κ.view crypto ∧ κ.Assigned) w₃ := by
    refine h₃.mono fun κ hκ found hfound ↦ ?_
    cases hfound
    exact hκ.eq_view hids
  split
  · refine safe_quiet rfl (fun _ ↦ ⟨by simp, by simp⟩) hdone fun _ w₄ _ h₄ ↦ ?_
    exact safe_quiet rfl (fun _ ↦ ⟨by simp, by simp⟩) h₄ fun _ w₅ _ h₅ ↦ safe_ret h₅
  · exact safe_ret hdone

/-- The index of a directory's view is right about it, if no message is dated before the epoch. -/
theorem faithful_render (hw : Inv crypto w) (hassigned : w.1.core.Assigned)
    (generation : ℕ × ℕ) :
    Faithful crypto (Index.render generation (w.1.core.view crypto)) w.1.core := by
  intro messages hparse
  rw [Index.parse_render] at hparse
  split at hparse
  next =>
    cases hparse
    refine ⟨(List.map_congr_left fun m hm ↦ Index.clamp_of_nonneg ?_).trans (List.map_id' _),
      hassigned⟩
    obtain ⟨id, -, rfl⟩ := List.mem_map.1 hm
    cases hmail : w.1.mails.lookup id with
    | none => simp [Core.entry, Dir.core, hmail, SystemTime.unixEpoch]
    | some mail => simpa [Core.entry, Dir.core, hmail] using hw.dates id mail hmail
  next => cases hparse

/-- Opening a mailbox writes an index only if it is right, should the session have stayed calm. -/
theorem safe_openAt (mailbox : Text) (retentionDays now : ℕ) (clock : SystemTime) :
    (discipline crypto).Safe s (fun _ _ ↦ True)
      (Snapshot.openAt crypto mailbox retentionDays now clock) w := by
  unfold Snapshot.openAt Index.currentGeneration Index.load Modseq.readCounter Uid.readCounter
  simp only [Prog.op_bind, Prog.call_bind, Prog.pure_eq_ret, Prog.ret_bind]
  refine safe_query rfl fun w₁ _ _ ↦ safe_query rfl fun w₂ _ _ ↦ safe_query rfl fun w₃ _ hw₃ ↦ ?_
  split
  · refine .bind hw₃ (safe_sparesScan hw₃ (sparesScan_readOrInit clock)) ?_
    intro _ w₄ _ _
    exact safe_query rfl fun w₅ _ _ ↦ .ret fun _ _ _ ↦ trivial
  · refine .bind hw₃ safe_scanMailbox ?_
    intro scanned w₄ _ h₄
    cases scanned with
    | none => exact .ret fun _ _ _ ↦ trivial
    | some scanned =>
      refine safe_query rfl fun w₅ h₅ _ ↦ safe_query rfl fun w₆ h₆ _ ↦ ?_
      unfold Index.write replaceFile
      simp only [Prog.op_bind, Prog.call_bind]
      refine .call fun w₇ h₇ hw₇ hguard ↦ ?_
      have hpre : Pre crypto s (.writeTmp .index
          (Index.render (w₁.1.core.generation.1, w₂.1.core.generation.2) scanned)) w₇ := by
        intro hcalm
        obtain ⟨rfl, hassigned⟩ := ((h₄.rely h₅).rely h₆).rely h₇ hcalm scanned rfl
        exact faithful_render hw₇ hassigned _
      refine ⟨hpre, ?_⟩
      -- The rest renames the index, which needs nothing more, and reads the UIDVALIDITY.
      refine .bind (hw₇.act hguard hpre)
        (R := fun _ _ ↦ True) (safe_of_only (hw₇.act hguard hpre) ?_) fun _ w₈ hw₈ _ ↦ ?_
      · split
        · simp
        · trivial
      · refine .bind hw₈
          (safe_sparesScan hw₈ (sparesScan_readOrInit clock)) fun _ _ _ _ ↦ ?_
        exact .ret fun _ _ _ ↦ trivial

theorem verified (crypto : MessageCrypto) : (discipline crypto).Verified := by
  intro s c snapshot w hw _ _
  by_cases hc : ∃ mailbox retentionDays now clock, c = .openMailbox mailbox retentionDays now clock
  · obtain ⟨mailbox, retentionDays, now, clock, rfl⟩ := hc
    refine .bind (hw.next rfl)
      (safe_openAt mailbox retentionDays now clock) fun _ _ _ _ ↦ ?_
    exact .ret fun _ _ _ ↦ trivial
  · refine safe_sparesScan (hw.next (by cases c <;> rfl))
      (Command.sparesScan crypto (fun mailbox retentionDays now clock h ↦ ?_) _)
    exact hc ⟨mailbox, retentionDays, now, clock, h⟩

/-! ## The index and the scan -/

theorem inv_empty (crypto : MessageCrypto) : Inv crypto (Dir.empty, monitor.first) where
  index _ h := nomatch h
  temp h := nomatch h
  dates _ _ h := nomatch h

/-- **The index refines the scan** in orderly schedules: whenever the index of a reachable directory
is stamped with its current generation, it lists exactly what a scan of that directory returns. -/
theorem index_agrees_of_orderly (crypto : MessageCrypto)
    {c : Config Ans Dir Snapshot} {g : History} (hc : Reach (system crypto) monitor Dir.empty c g)
    {messages : List MessageRef}
    (hload : (Index.loadCurrent.run Dir.exec c.store).1 = some messages) :
    ((scanMailbox crypto).run Dir.exec c.store).1 = some messages := by
  obtain ⟨hinv, -⟩ := (verified crypto).reach (inv_empty crypto) hc
  obtain ⟨text, htext, hparse⟩ := Option.bind_eq_some_iff.1 hload
  obtain ⟨rfl, hassigned⟩ := hinv.index text htext messages hparse
  rw [run_scanMailbox hassigned]

/-- Two sessions: one appends a message with a flag, the other opens the mailbox after the message
file is in place and before its flags are. -/
def appendAroundOpen : List (Event Command) :=
  ([.start 0 (.append (.ofNat 1) [] [65] ⟨100, 0⟩ [.seen]), .run 0, .run 0,
    .start 1 (.openMailbox "INBOX".toList 0 100 ⟨100, 0⟩)] : List (Event Command)) ++
    List.replicate 19 (Event.run 1) ++
  ([.run 0, .run 0] : List (Event Command))

/-- When both sessions of `appendAroundOpen` are done, the index is stamped with the current
generation and shows the message without its flag. -/
theorem appendAroundOpen_index_ne_scan :
    ∃ c messages,
      (system .disabled).runs ((system .disabled).init .empty) appendAroundOpen = some c ∧
      (Index.loadCurrent.run Dir.exec c.store).1 = some messages ∧
      ((scanMailbox .disabled).run Dir.exec c.store).1 ≠ some messages := by
  obtain ⟨c, hc⟩ : ∃ c, (system .disabled).runs ((system .disabled).init .empty)
      appendAroundOpen = some c := Option.isSome_iff_exists.1 (by decide)
  have hload : (((system .disabled).runs ((system .disabled).init .empty) appendAroundOpen).bind
      fun c ↦ (Index.loadCurrent.run Dir.exec c.store).1) =
        some [⟨1, .ofNat 1, 1, [], ⟨100, 0⟩, 1⟩] := by decide
  have hscan : (((system .disabled).runs ((system .disabled).init .empty) appendAroundOpen).bind
      fun c ↦ ((scanMailbox .disabled).run Dir.exec c.store).1) =
        some [⟨1, .ofNat 1, 1, [.seen], ⟨100, 0⟩, 1⟩] := by decide
  rw [hc, Option.bind_some] at hload hscan
  exact ⟨c, _, hc, hload, by rw [hscan]; decide⟩

/-- A delivery, an open, another delivery, a flag change made while the index is out of date, and an
open that rebuilds it. -/
def orderlyRun : List (Event Command) :=
  ([.start 0 (.deliver (.ofNat 1) [] [65] ⟨100, 0⟩ []), .run 0, .run 0,
    .start 1 (.openMailbox "INBOX".toList 0 100 ⟨100, 0⟩)] : List (Event Command)) ++
    List.replicate 19 (Event.run 1) ++
  ([.start 0 (.deliver (.ofNat 2) [] [65, 66] ⟨101, 5⟩ []), .run 0, .run 0,
    .start 1 (.storeFlags 1 [.seen])] : List (Event Command)) ++
    List.replicate 7 (Event.run 1) ++
  ([.start 1 (.openMailbox "INBOX".toList 0 102 ⟨102, 0⟩)] : List (Event Command)) ++
    List.replicate 22 (Event.run 1)

theorem index_agrees_orderlyRun :
    ∃ c g messages, Reach (system .disabled) monitor Dir.empty c g ∧
      (Index.loadCurrent.run Dir.exec c.store).1 = some messages ∧ messages.length = 2 ∧
      ((scanMailbox .disabled).run Dir.exec c.store).1 = some messages := by
  obtain ⟨⟨c, g⟩, hc⟩ : ∃ p, (system .disabled).runsUnder monitor ((system .disabled).init .empty)
      monitor.first orderlyRun = some p := Option.isSome_iff_exists.1 (by decide)
  have hload : (((system .disabled).runsUnder monitor ((system .disabled).init .empty)
      monitor.first orderlyRun).bind fun p ↦ (Index.loadCurrent.run Dir.exec p.1.store).1) =
        some [⟨1, .ofNat 1, 1, [.seen], ⟨100, 0⟩, 2⟩, ⟨2, .ofNat 2, 2, [], ⟨101, 5⟩, 1⟩] := by
    decide
  rw [hc, Option.bind_some] at hload
  have hreach := Reach.init.of_runsUnder hc
  exact ⟨c, g, _, hreach, hload, rfl, index_agrees_of_orderly .disabled hreach hload⟩

end IndexFresh

end Epistle.Imap
