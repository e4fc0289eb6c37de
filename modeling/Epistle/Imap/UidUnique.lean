import Epistle.Imap.Sessions

/-!
# When UIDs are unique

A scan reads the UID counter once, hands out UIDs one by one, each persisted as soon as it is handed
out, and persists the counter once, at the end. The documentation says that UIDs come from a
monotonic counter and are never reused. But a scan that was cut short, by a crash or by the
scheduler, has handed out UIDs that the counter does not show, and the next scan hands them out
again.

This file says which schedules are safe. A scan hands out a UID *currently* when

* the counter it read was not below any UID handed out by then, and
* no other session has handed out a UID since it read the counter,

and the 32-bit counter does not overflow. In every schedule in which UIDs are handed out currently,
no UID is ever shown for two messages: the monitor's history has an owner for each UID that was
handed out, and everything that can be shown, in a file, in the index or by a session, agrees with
it. Crashes are allowed anywhere.
-/

namespace Epistle.Imap

open TextFormat Interleaving
open Snapshot (pairs)

namespace UidUnique

/-! ## Schedules in which UIDs are handed out currently -/

structure History where
  owner : UInt32 → Option Uuid
  highest : ℕ
  /-- The counter was up to date when the session last read it, and no other session has handed out
  a UID since. -/
  current : ℕ → Bool

/-- The history after a step. A UID is handed out when its temporary file is written. -/
def History.next (g : History) (d : Dir) : Label Op Command → History
  | .act s (.read .uidnext) =>
    let upToDate := decide (g.highest ≤ ((d.files .uidnext).getD 0).toNat)
    { g with current := Function.update g.current s upToDate }
  | .act s (.writeTmp (.uid id) uid) =>
    { owner := Function.update g.owner uid (some id)
      highest := max g.highest uid.toNat
      current := fun t ↦ t == s && g.current t }
  | _ => g

def handedOut : Op → Option UInt32
  | .writeTmp (.uid _) uid => some uid
  | _ => none

/-- The condition on a step: UIDs are handed out currently and without overflow. -/
def Guard (g : History) : Label Op Command → Prop
  | .act s o => ∀ uid ∈ handedOut o, g.current s = true ∧ uid ≠ 0
  | _ => True

instance (g : History) : (l : Label Op Command) → Decidable (Guard g l)
  -- the instance for options by name: the one for finite types would enumerate the UIDs
  | .act _ o => Option.decidableForallMem (handedOut o)
  | .start _ _ => isTrue trivial
  | .crash => isTrue trivial

/-- The monitor of schedules in which UIDs are handed out currently. -/
def monitor : Monitor Op Command Dir History where
  first := ⟨fun _ ↦ none, 0, fun _ ↦ false⟩
  next := History.next
  guard := fun g _ l ↦ Guard g l

instance (g : History) (d : Dir) (l : Label Op Command) : Decidable (monitor.guard g d l) :=
  inferInstanceAs (Decidable (Guard g l))

/-! ## Ownership -/

/-- Every message is shown under a UID that was handed out for it, and no message twice. -/
structure Owned (g : History) (l : List (UInt32 × Uuid)) : Prop where
  owner : ∀ p ∈ l, g.owner p.1 = some p.2
  nodup : (l.map Prod.snd).Nodup

variable {g : History} {l done : List (UInt32 × Uuid)} {o : Op} {counter : UInt32}

variable {l' : List (UInt32 × Uuid)} {g' : History}

theorem Owned.sublist (h : Owned g l) (hl : l'.Sublist l) : Owned g l' :=
  ⟨fun p hp ↦ h.owner p (hl.subset hp), h.nodup.sublist (hl.map _)⟩

theorem Owned.eq_of_eq (h : Owned g l) (h' : Owned g l')
    {p p' : UInt32 × Uuid} (hp : p ∈ l) (hp' : p' ∈ l') (heq : p.1 = p'.1) : p.2 = p'.2 := by
  have howner := h.owner p hp
  rw [heq, h'.owner p' hp', Option.some.injEq] at howner
  exact howner.symm

theorem Owned.nodup_uids (h : Owned g l) :
    (l.map Prod.fst).Nodup := by
  refine List.Nodup.map_on (fun p hp p' hp' heq ↦ ?_) (List.Nodup.of_map _ h.nodup)
  exact Prod.ext heq (h.eq_of_eq h hp hp' heq)

/-- Whatever an index file is loaded as is owned. -/
def OwnedText (g : History) (text : Text) : Prop :=
  ∀ generation messages, Index.parse text generation = some messages → Owned g (pairs messages)

theorem ownedText_render {messages : List MessageRef} (h : Owned g (pairs messages))
    (generation : ℕ × ℕ) : OwnedText g (Index.render generation messages) := by
  intro generation' found hfound
  rw [Snapshot.pairs_of_parse_render hfound]
  exact h

/-- The second history has an owner for every UID the first one has, the same one. -/
def Extends (g g' : History) : Prop := ∀ uid id, g.owner uid = some id → g'.owner uid = some id

theorem Owned.extends (h : Owned g l)
    (hg : Extends g g') : Owned g' l := ⟨fun p hp ↦ hg _ _ (h.owner p hp), h.nodup⟩

theorem OwnedText.extends {text : Text} (h : OwnedText g text)
    (hg : Extends g g') : OwnedText g' text := fun generation messages hparse ↦
  (h generation messages hparse).extends hg

/-! ## The discipline -/

structure Inv (w : Dir × History) : Prop where
  uid : ∀ id uid, w.1.files (.uid id) = some uid → w.2.owner uid = some id
  uidTemp : ∀ id uid, w.1.temps (.uid id) = some uid → w.2.owner uid = some id
  index : ∀ text, w.1.files .index = some text → OwnedText w.2 text
  indexTemp : ∀ text, w.1.temps .index = some text → OwnedText w.2 text
  highest : ∀ uid id, w.2.owner uid = some id → uid.toNat ≤ w.2.highest

/-- Other sessions do not take UIDs away, and end a session's currency when they hand one out. -/
structure Rely (s : ℕ) (w w' : Dir × History) : Prop where
  extends_ : Extends w.2 w'.2
  current : w'.2.current s = true → w.2.current s = true ∧ w'.2.highest = w.2.highest

/-- What a session must be sure of: a UID it hands out is above all others if it is current, and the
index it writes shows what was handed out. -/
def Pre (s : ℕ) (o : Op) (w : Dir × History) : Prop :=
  match o with
  | .writeTmp (.uid _) uid => w.2.current s = true → uid ≠ 0 → w.2.highest < uid.toNat
  | .writeTmp .index text => OwnedText w.2 text
  | .write (.uid _) _ => False
  | .write .index _ => False
  | _ => True

theorem Inv.owner_eq_none {w : Dir × History} (hw : Inv w) {uid : UInt32}
    (h : w.2.highest < uid.toNat) : w.2.owner uid = none := by
  refine Option.eq_none_iff_forall_not_mem.2 fun id hid ↦ ?_
  exact absurd (hw.highest uid id hid) (by omega)

section

variable {s : ℕ} {w : Dir × History} (hw : Inv w) (hguard : Guard w.2 (.act s o)) (hpre : Pre s o w)
include hw hguard hpre

/-- A step that its session may make takes no UID away. -/
theorem extends_act : Extends w.2 (w.2.next w.1 (.act s o)) := by
  intro uid id hid
  unfold History.next
  split
  next => exact hid
  next t id' uid' heq =>
    cases heq
    have hne : uid ≠ uid' := by
      rintro rfl
      obtain ⟨hcurrent, hne⟩ := hguard uid rfl
      rw [hw.owner_eq_none (hpre hcurrent hne)] at hid
      cases hid
    exact (Function.update_of_ne hne _ _).trans hid
  next => exact hid

theorem Inv.act : Inv ((Dir.exec o w.1).2, w.2.next w.1 (.act s o)) := by
  have hext := extends_act hw hguard hpre
  refine ⟨fun id uid h ↦ ?_, fun id uid h ↦ ?_, fun text h ↦ ?_, fun text h ↦ ?_, fun uid id h ↦ ?_⟩
  · rcases Dir.exec_files h (by simp) with hold | ⟨-, htemp⟩ | rfl
    · exact hext _ _ (hw.uid id uid hold)
    · exact hext _ _ (hw.uidTemp id uid htemp)
    · exact hpre.elim
  · rcases Dir.exec_temps h with hold | rfl
    · exact hext _ _ (hw.uidTemp id uid hold)
    · exact Function.update_self ..
  · rcases Dir.exec_files h (by simp) with hold | ⟨-, htemp⟩ | rfl
    · exact (hw.index text hold).extends hext
    · exact (hw.indexTemp text htemp).extends hext
    · exact hpre.elim
  · rcases Dir.exec_temps h with hold | rfl
    · exact (hw.indexTemp text hold).extends hext
    · exact OwnedText.extends hpre hext
  · unfold History.next at h ⊢
    split at h
    next => exact hw.highest uid id h
    next t id' uid' heq =>
      by_cases hu : uid = uid'
      · subst hu
        exact le_max_right ..
      · have hold : w.2.owner uid = some id := (Function.update_of_ne hu _ _).symm.trans h
        exact (hw.highest uid id hold).trans (le_max_left ..)
    next => exact hw.highest uid id h

end

theorem Rely.act {s t : ℕ} {w : Dir × History} (hst : s ≠ t) (hw : Inv w)
    (hguard : Guard w.2 (.act s o)) (hpre : Pre s o w) :
    Rely t w ((Dir.exec o w.1).2, w.2.next w.1 (.act s o)) := by
  refine ⟨extends_act hw hguard hpre, fun hcurrent ↦ ?_⟩
  unfold History.next at hcurrent ⊢
  split at hcurrent
  next heq =>
    cases heq
    exact ⟨(Function.update_of_ne (Ne.symm hst) _ _).symm.trans hcurrent, rfl⟩
  next heq =>
    cases heq
    simp [Ne.symm hst] at hcurrent
  next => exact ⟨hcurrent, rfl⟩

theorem Rely.refl (s : ℕ) (w : Dir × History) : Rely s w w := ⟨fun _ _ h ↦ h, fun h ↦ ⟨h, rfl⟩⟩

theorem Rely.trans {s : ℕ} {w w' w'' : Dir × History} (h : Rely s w w') (h' : Rely s w' w'') :
    Rely s w w'' where
  extends_ uid id hid := h'.extends_ uid id (h.extends_ uid id hid)
  current hcurrent :=
    have ⟨hmid, hhigh⟩ := h'.current hcurrent
    ⟨(h.current hmid).1, hhigh.trans (h.current hmid).2⟩

/-- Ownership of UIDs, with what keeps it. -/
def discipline (crypto : MessageCrypto) : Discipline (system crypto) monitor where
  inv := Inv
  rely := Rely
  pre := Pre
  rest := fun _ snapshot w ↦ Owned w.2 (pairs snapshot.messages)
  rely_refl := Rely.refl
  rely_trans := Rely.trans
  inv_act := fun hw hguard hpre ↦ hw.act hguard hpre
  rely_act := fun hst hw hguard hpre ↦ Rely.act hst hw hguard hpre
  inv_start := fun hw _ ↦ hw
  rely_start := fun _ _ _ ↦ Rely.refl _ _
  inv_crash := fun hw _ ↦ hw
  rest_idle := fun _ ↦ ⟨nofun, List.nodup_nil⟩

/-! ## The programs -/

variable {crypto : MessageCrypto} {s : ℕ} {w w' : Dir × History} {α : Type}
  {Q : α → Dir × History → Prop} {K : History → Prop}

/-- Other sessions do not make `K` false. -/
def Stable (s : ℕ) (K : History → Prop) : Prop := ∀ w w', Rely s w w' → K w.2 → K w'.2

/-- Calls that hand out no UID, write no index and do not read the UID counter. -/
def Plain : Op → Prop
  | .read .uidnext => False
  | .writeTmp (.uid _) _ | .writeTmp .index _ | .write (.uid _) _ | .write .index _ => False
  | _ => True

theorem Plain.pre (ho : Plain o) : Pre s o w := by
  unfold Plain at ho
  unfold Pre
  split <;> trivial

theorem Plain.next (ho : Plain o) (g : History) (d : Dir) : g.next d (.act s o) = g := by
  unfold Plain at ho
  unfold History.next
  split
  next heq =>
    simp_all
  next heq =>
    simp_all
  next => rfl

theorem safe_plain {k : Ans o → FileM α} (ho : Plain o) (hK : Stable s K) (h : K w.2)
    (hk : ∀ w', Inv w' → K w'.2 → Inv ((Dir.exec o w'.1).2, w'.2) →
      (discipline crypto).Safe s Q (k (Dir.exec o w'.1).1) ((Dir.exec o w'.1).2, w'.2)) :
    (discipline crypto).Safe s Q (.call o k) w := by
  refine .call fun w' hrely hinv hguard ↦ ⟨ho.pre, ?_⟩
  have hnext : (system crypto).after monitor w' (.act s o) = ((Dir.exec o w'.1).2, w'.2) :=
    Prod.ext rfl (ho.next w'.2 w'.1)
  have hinv' := hinv.act hguard (ho.pre (s := s))
  rw [ho.next] at hinv'
  rw [hnext]
  exact hk w' hinv (hK _ _ hrely h) hinv'

theorem safe_plain_program {p : FileM α} {V : α → Prop} (hp : p.Only Plain) (hV : p.Returns V)
    (hK : Stable s K) (h : K w.2) :
    (discipline crypto).Safe s (fun a w ↦ K w.2 ∧ V a) p w := by
  refine Discipline.Safe.of_only (F := fun w ↦ K w.2) (fun hw hrely ↦ hK _ _ hrely hw) ?_ hp hV h
  intro o w ho _ hw _
  refine ⟨ho.pre, ?_⟩
  have hnext : ((system crypto).after monitor w (.act s o)).2 = w.2 := ho.next w.2 w.1
  rw [hnext]
  exact hw

theorem plain_of_sparesScan {p : FileM α} (hp : SparesScan p) : p.Only Plain := by
  refine hp.mono fun o ho ↦ ?_
  unfold Plain
  split <;> first | cases ho | trivial

/-- What a scan knows: the counter it goes by is not below any UID if the session is current, and
the messages it has gathered were given the UIDs it shows them under. -/
structure Known (s : ℕ) (counter : UInt32) (done : List (UInt32 × Uuid)) (g : History) : Prop where
  current : g.current s = true → g.highest ≤ counter.toNat
  owner : ∀ p ∈ done, g.owner p.1 = some p.2

theorem stable_known :
    Stable s (Known s counter done) := by
  intro w w' hrely h
  refine ⟨fun hcurrent ↦ ?_, fun p hp ↦ hrely.extends_ _ _ (h.owner p hp)⟩
  obtain ⟨hold, hhigh⟩ := hrely.current hcurrent
  rw [hhigh]
  exact h.current hold

theorem toNat_add_one (h : counter + 1 ≠ 0) :
    (counter + 1).toNat = counter.toNat + 1 := by
  have hne : (counter + 1).toNat ≠ 0 := fun hzero ↦ h (UInt32.toNat_inj.1 hzero)
  rw [UInt32.toNat_add] at hne ⊢
  have hlt := counter.toNat_lt
  simp only [UInt32.toNat_one] at hne ⊢
  omega

theorem Known.assign {id : Uuid} (hw : Inv w) (h : Known s counter done w.2)
    (hguard : Guard w.2 (.act s (.writeTmp (.uid id) (counter + 1)))) :
    Pre s (.writeTmp (.uid id) (counter + 1)) w ∧
      Known s (counter + 1) (done ++ [(counter + 1, id)])
        (w.2.next w.1 (.act s (.writeTmp (.uid id) (counter + 1)))) := by
  obtain ⟨hs, hne⟩ := hguard _ rfl
  have hsucc := toNat_add_one hne
  have hpre : Pre s (.writeTmp (.uid id) (counter + 1)) w := fun hcurrent _ ↦ by
    have := h.current hcurrent
    omega
  refine ⟨hpre, fun _ ↦ ?_, fun p hp ↦ ?_⟩
  · have := h.current hs
    exact max_le (by omega) le_rfl
  · rcases List.mem_append.1 hp with hp | hp
    · exact extends_act hw hguard hpre _ _ (h.owner p hp)
    · rw [List.mem_singleton] at hp
      subst hp
      exact Function.update_self ..

theorem safe_assignOrRead (id : Uuid) (h : Known s counter done w.2) :
    (discipline crypto).Safe s (fun r w ↦ Known s r.2 (done ++ [(r.1, id)]) w.2)
      (Uid.assignOrRead id counter) w := by
  unfold Uid.assignOrRead Uid.readMessage Uid.writeMessage replaceFile
  simp only [Prog.op_bind]
  refine safe_plain trivial stable_known h fun w₁ hw₁ h₁ _ ↦ ?_
  split
  next uid huid =>
    have howned : Known s counter (done ++ [(uid, id)]) w₁.2 := by
      refine ⟨h₁.current, fun p hp ↦ ?_⟩
      rcases List.mem_append.1 hp with hp | hp
      · exact h₁.owner p hp
      · rw [List.mem_singleton] at hp
        subst hp
        exact hw₁.uid id uid huid
    exact .ret fun w₂ hrely _ ↦ stable_known _ _ hrely howned
  next =>
    refine .call fun w₂ hrely hw₂ hguard ↦ ?_
    obtain ⟨hpre, hnext⟩ := (stable_known _ _ hrely h₁).assign hw₂ hguard
    refine ⟨hpre, ?_⟩
    exact safe_plain trivial stable_known hnext fun w₃ _ h₃ _ ↦
      Discipline.Safe.ret fun w₄ hrely _ ↦ stable_known _ _ hrely h₃

theorem safe_scanMessage (id : Uuid) (h : Known s counter done w.2) :
    (discipline crypto).Safe s
      (fun r w ↦ Known s r.2 (done ++ [(r.1.uid, r.1.id)]) w.2 ∧ r.1.id = id)
      (scanMessage crypto id counter) w := by
  unfold scanMessage
  simp only [Prog.op_bind]
  refine safe_plain trivial stable_known h fun w₁ hw₁ h₁ hw₁' ↦ ?_
  refine .bind hw₁'
    (safe_plain_program (only_scanSize trivial _) (.trivial _) stable_known h₁) ?_
  rintro size w₂ hw₂ ⟨h₂, -⟩
  refine .bind hw₂ (safe_assignOrRead id h₂) ?_
  rintro ⟨uid, counter⟩ w₃ hw₃ h₃
  refine safe_plain trivial stable_known h₃ fun w₄ _ h₄ _ ↦ ?_
  refine safe_plain trivial stable_known h₄ fun w₅ _ h₅ _ ↦ ?_
  exact .ret fun w₆ hrely _ ↦ ⟨stable_known _ _ hrely h₅, rfl⟩

theorem safe_scanMessages (ids : List Uuid) (hw : Inv w) (h : Known s counter done w.2) :
    (discipline crypto).Safe s
      (fun r w ↦ Known s r.2 (done ++ pairs r.1) w.2 ∧ r.1.map MessageRef.id = ids)
      (scanMessages crypto ids counter) w := by
  induction ids generalizing counter done w with
  | nil =>
    refine .ret fun w₁ hrely _ ↦ ⟨?_, rfl⟩
    rw [pairs, List.map_nil, List.append_nil]
    exact stable_known _ _ hrely h
  | cons id ids ih =>
    refine .bind hw (safe_scanMessage id h) ?_
    rintro ⟨message, counter⟩ w₁ hw₁ ⟨h₁, hid⟩
    refine .bind hw₁ (ih hw₁ h₁) ?_
    rintro ⟨messages, counter⟩ w₂ hw₂ ⟨h₂, hids⟩
    refine .ret fun w₃ hrely _ ↦ ⟨?_, by rw [List.map_cons, hid, hids]⟩
    rw [List.append_assoc, List.singleton_append] at h₂
    exact stable_known _ _ hrely h₂

theorem stable_owned (l : List (UInt32 × Uuid)) : Stable s fun g ↦ Owned g l :=
  fun _ _ hrely h ↦ h.extends hrely.extends_

theorem safe_read_uidnext {k : Option UInt32 → FileM α} (h : Owned w.2 l)
    (hk : ∀ r w', Inv w' → Owned w'.2 l → (discipline crypto).Safe s Q (k r) w') :
    (discipline crypto).Safe s Q (.call (.read .uidnext) k) w := by
  refine .call fun w' hrely hinv hguard ↦ ⟨trivial, ?_⟩
  refine hk _ _ (Inv.act (s := s) (o := .read .uidnext) hinv hguard trivial) ?_
  exact (stable_owned l _ _ hrely h).extends fun _ _ hid ↦ hid

/-- A scan returns messages under UIDs that were handed out for them. -/
theorem safe_scanMailbox :
    (discipline crypto).Safe s (fun r w ↦ ∀ messages ∈ r, Owned w.2 (pairs messages))
      (scanMailbox crypto) w := by
  unfold scanMailbox Uid.readCounter
  simp only [Prog.op_bind, Prog.call_bind, Prog.pure_eq_ret, Prog.ret_bind]
  refine safe_plain trivial (K := fun _ ↦ True) (fun _ _ _ _ ↦ trivial) trivial fun w₁ _ _ _ ↦ ?_
  refine .call fun w₂ _ hw₂ hguard ↦ ⟨trivial, ?_⟩
  -- The session is current from here on exactly if the counter it just read is up to date.
  have hknown : Known s ((w₂.1.files .uidnext).getD 0) []
      ((system crypto).after monitor w₂ (.act s (.read .uidnext))).2 := by
    refine ⟨fun hcurrent ↦ ?_, by simp⟩
    have hupdate : Function.update w₂.2.current s
        (decide (w₂.2.highest ≤ ((w₂.1.files .uidnext).getD 0).toNat)) s = true := hcurrent
    rw [Function.update_self] at hupdate
    exact of_decide_eq_true hupdate
  have hw₂' := Inv.act (s := s) (o := .read .uidnext) hw₂ hguard trivial
  refine .bind hw₂'
    (safe_scanMessages _ hw₂' hknown) ?_
  rintro ⟨messages, counter⟩ w₃ hw₃ ⟨h₃, hids⟩
  have howned : Owned w₃.2 (pairs messages) := by
    refine ⟨h₃.owner, ?_⟩
    have hsnd : (pairs messages).map Prod.snd = messages.map MessageRef.id := by
      simp [pairs, Function.comp_def]
    rw [hsnd, hids]
    exact (List.perm_insertionSort _ _).nodup_iff.2 w₁.1.mails.keys_nodup
  have hret {w : Dir × History} (hw : Owned w.2 (pairs messages)) :
      (discipline crypto).Safe s (fun r w ↦ ∀ messages ∈ r, Owned w.2 (pairs messages))
        (.ret (some messages)) w := by
    refine .ret fun w' hrely _ found hfound ↦ ?_
    cases hfound
    exact stable_owned _ _ _ hrely hw
  split
  · have hstable := stable_owned (s := s) (pairs messages)
    refine safe_plain trivial hstable howned fun w₄ _ h₄ _ ↦ ?_
    exact safe_plain trivial hstable h₄ fun w₅ _ h₅ _ ↦ hret h₅
  · exact hret howned

/-- An open shows UIDs that were handed out for the messages it shows them for. -/
theorem safe_openAt (mailbox : Text) (retentionDays now : ℕ) (clock : SystemTime) :
    (discipline crypto).Safe s (fun r w ↦ ∀ opened ∈ r, Owned w.2 (pairs opened.messages))
      (Snapshot.openAt crypto mailbox retentionDays now clock) w := by
  have hret {snapshot : Snapshot} {w : Dir × History} (hw : Owned w.2 (pairs snapshot.messages)) :
      (discipline crypto).Safe s (fun r w ↦ ∀ opened ∈ r, Owned w.2 (pairs opened.messages))
        (.ret (some snapshot)) w := by
    refine .ret fun w' hrely _ found hfound ↦ ?_
    cases hfound
    exact stable_owned _ _ _ hrely hw
  have htrue : Stable s fun _ ↦ True := fun _ _ _ _ ↦ trivial
  unfold Snapshot.openAt Index.currentGeneration Index.load Modseq.readCounter Uid.readCounter
  simp only [Prog.op_bind, Prog.call_bind, Prog.pure_eq_ret, Prog.ret_bind]
  refine safe_plain trivial htrue trivial fun w₁ _ _ _ ↦ ?_
  refine safe_plain trivial htrue trivial fun w₂ _ _ _ ↦ ?_
  refine safe_plain trivial htrue trivial fun w₃ hw₃ _ hw₃' ↦ ?_
  split
  next messages hload =>
    obtain ⟨text, htext, hparse⟩ := Option.bind_eq_some_iff.1 hload
    have howned : Owned w₃.2 (pairs messages) := hw₃.index text htext _ messages hparse
    refine .bind hw₃' (safe_plain_program
      (plain_of_sparesScan (sparesScan_readOrInit clock)) (.trivial _) (stable_owned _) howned) ?_
    rintro uidValidity w₄ _ ⟨h₄, -⟩
    exact safe_read_uidnext h₄ fun _ w₅ _ h₅ ↦ hret h₅
  next =>
    refine .bind hw₃' safe_scanMailbox ?_
    intro scanned w₄ _ h₄
    cases scanned with
    | none => exact .ret fun _ _ _ ↦ nofun
    | some scanned =>
      have hstable := stable_owned (s := s) (pairs scanned)
      refine safe_plain trivial hstable (h₄ scanned rfl) fun w₅ _ h₅ _ ↦ ?_
      refine safe_read_uidnext h₅ fun _ w₆ _ h₆ ↦ ?_
      unfold Index.write replaceFile
      refine .call fun w₇ hrely hw₇ hguard ↦ ?_
      have howned := hstable _ _ hrely h₆
      refine ⟨ownedText_render howned _, ?_⟩
      refine safe_plain trivial hstable howned fun w₈ _ h₈ hw₈ ↦ ?_
      refine .bind (p := UidValidity.readOrInit clock) hw₈
        (safe_plain_program (plain_of_sparesScan (sparesScan_readOrInit clock)) (.trivial _) hstable
          h₈) ?_
      rintro uidValidity w₉ _ ⟨h₉, -⟩
      exact hret h₉

theorem verified (crypto : MessageCrypto) : (discipline crypto).Verified := by
  intro s c snapshot w hw _ hrest
  by_cases hc : ∃ mailbox retentionDays now clock, c = .openMailbox mailbox retentionDays now clock
  · obtain ⟨mailbox, retentionDays, now, clock, rfl⟩ := hc
    have hframe := Discipline.Safe.frame (D := discipline crypto) (s := s)
      (F := fun w ↦ Owned w.2 (pairs snapshot.messages))
      (fun h hrely ↦ stable_owned _ _ _ hrely h)
      (fun hinv h hguard hpre ↦ h.extends (extends_act hinv hguard hpre))
      (safe_openAt mailbox retentionDays now clock) hrest
    refine .bind hw hframe fun opened w₁ _ h₁ ↦ ?_
    refine .ret fun w₂ hrely _ ↦ stable_owned _ _ _ hrely ?_
    cases opened with
    | none => exact h₁.2
    | some opened => exact h₁.1 opened rfl
  · have hne : ∀ mailbox retentionDays now clock,
        c ≠ .openMailbox mailbox retentionDays now clock := fun mailbox retentionDays now clock h ↦
      hc ⟨mailbox, retentionDays, now, clock, h⟩
    refine .mono hw (safe_plain_program
      (plain_of_sparesScan (Command.sparesScan crypto hne snapshot))
      (Command.returns_pairs crypto hne snapshot) (stable_owned _) hrest) ?_
    rintro opened w' _ ⟨h, hsublist⟩
    exact h.sublist hsublist

/-! ## UIDs shown to clients -/

theorem inv_empty : Inv (Dir.empty, monitor.first) where
  uid _ _ h := nomatch h
  uidTemp _ _ h := nomatch h
  index _ h := nomatch h
  indexTemp _ h := nomatch h
  highest _ _ h := nomatch h

/-- **UIDs are unique** in schedules in which they are handed out currently, whatever crashes: no
snapshot that a session was ever given has two messages with one UID, and no UID is shown for two
messages, be it in different snapshots. -/
theorem uids_unique_of_current (crypto : MessageCrypto) {c : Config Ans Dir Snapshot} {g : History}
    (hc : Reach (system crypto) monitor Dir.empty c g) :
    (∀ a ∈ c.returned, (a.messages.map MessageRef.uid).Nodup) ∧
      ∀ a ∈ c.returned, ∀ b ∈ c.returned, ∀ m ∈ a.messages, ∀ m' ∈ b.messages,
        m.uid = m'.uid → m.id = m'.id := by
  have howned : ∀ a ∈ c.returned, Owned g (pairs a.messages) :=
    (verified crypto).reach_returned inv_empty (L := fun a w ↦ Owned w.2 (pairs a.messages)) id
      (fun hw h hguard hpre ↦ h.extends (extends_act hw hguard hpre)) id id hc
  refine ⟨fun a ha ↦ ?_, fun a ha b hb m hm m' hm' heq ↦ ?_⟩
  · have hfst : (pairs a.messages).map Prod.fst = a.messages.map MessageRef.uid := by
      simp [pairs, Function.comp_def]
    rw [← hfst]
    exact (howned a ha).nodup_uids
  · exact (howned a ha).eq_of_eq (howned b hb) (List.mem_map_of_mem hm)
      (List.mem_map_of_mem hm') heq

/-- A scan is cut short by a crash after it handed out a UID; a second message arrives, and the
mailbox is opened again. -/
def crashedScan : List (Event Command) :=
  ([.start 0 (.deliver (.ofNat 1) [] [65] ⟨100, 0⟩ []), .run 0, .run 0,
    .start 0 (.openMailbox "INBOX".toList 0 100 ⟨100, 0⟩)] : List (Event Command)) ++
    List.replicate 9 (Event.run 0) ++
  ([.crash, .start 0 (.deliver (.ofNat 2) [] [66] ⟨101, 0⟩ []), .run 0, .run 0,
    .start 0 (.openMailbox "INBOX".toList 0 102 ⟨102, 0⟩)] : List (Event Command)) ++
    List.replicate 23 (Event.run 0)

/-- What the second open of `crashedScan` returns. -/
def crashedScanMessages : List MessageRef :=
  [⟨1, .ofNat 1, 1, [], ⟨100, 0⟩, 1⟩, ⟨1, .ofNat 2, 1, [], ⟨101, 0⟩, 1⟩]

/-- The second open of `crashedScan` shows both messages under one UID. -/
theorem crashedScan_uids_not_unique :
    ∃ c, (system .disabled).runs ((system .disabled).init .empty) crashedScan = some c ∧
      ∃ a ∈ c.returned, ¬(a.messages.map MessageRef.uid).Nodup ∧
        ∃ m ∈ a.messages, ∃ m' ∈ a.messages, m.uid = m'.uid ∧ m.id ≠ m'.id := by
  obtain ⟨c, hc⟩ : ∃ c, (system .disabled).runs ((system .disabled).init .empty) crashedScan =
      some c := Option.isSome_iff_exists.1 (by decide)
  have hshown : ((system .disabled).runs ((system .disabled).init .empty) crashedScan).map
      (fun c ↦ c.returned.map Snapshot.messages) = some [[], [], crashedScanMessages] := by
    decide
  rw [hc, Option.map_some, Option.some.injEq] at hshown
  have hlast : crashedScanMessages ∈ c.returned.map Snapshot.messages := by
    rw [hshown]
    exact List.mem_cons_of_mem _ (List.mem_cons_of_mem _ List.mem_cons_self)
  obtain ⟨a, ha, hmessages⟩ := List.mem_map.1 hlast
  refine ⟨c, hc, a, ha, ?_⟩
  rw [hmessages]
  exact ⟨by decide, _, List.mem_cons_self, _, List.mem_cons_of_mem _ List.mem_cons_self, rfl,
    by decide⟩

/-- Two messages are delivered and the mailbox is opened by two sessions, one after the other, with
a crash before the second message. -/
def currentRun : List (Event Command) :=
  ([.start 0 (.deliver (.ofNat 1) [] [65] ⟨100, 0⟩ []), .run 0, .run 0,
    .start 0 (.openMailbox "INBOX".toList 0 100 ⟨100, 0⟩)] : List (Event Command)) ++
    List.replicate 19 (Event.run 0) ++
  ([.crash, .start 0 (.deliver (.ofNat 2) [] [66] ⟨101, 0⟩ []), .run 0, .run 0,
    .start 1 (.openMailbox "INBOX".toList 0 102 ⟨102, 0⟩)] : List (Event Command)) ++
    List.replicate 22 (Event.run 1)

theorem uids_unique_currentRun :
    ∃ c g, Reach (system .disabled) monitor Dir.empty c g ∧
      c.returned.map (fun a ↦ a.messages.length) = [0, 1, 0, 2] ∧
      ∀ a ∈ c.returned, (a.messages.map MessageRef.uid).Nodup := by
  obtain ⟨⟨c, g⟩, hc⟩ : ∃ p, (system .disabled).runsUnder monitor ((system .disabled).init .empty)
      monitor.first currentRun = some p := Option.isSome_iff_exists.1 (by decide)
  have hshown : ((system .disabled).runsUnder monitor ((system .disabled).init .empty)
      monitor.first currentRun).map (fun p ↦ p.1.returned.map fun a ↦ a.messages.length) =
        some [0, 1, 0, 2] := by decide
  rw [hc, Option.map_some, Option.some.injEq] at hshown
  have hreach := Reach.init.of_runsUnder hc
  exact ⟨c, g, hreach, hshown, (uids_unique_of_current .disabled hreach).1⟩

end UidUnique

end Epistle.Imap
