import Epistle.Imap.Copying

/-!
# How long deleted mail is kept

An expunge stamps what it archives with the time at which the session opened the mailbox, which may
be long ago. The sweep compares its own time with that stamp. A message is therefore purged too
early by the time between the open and the expunge.
-/

namespace Epistle.Imap

open TextFormat Interleaving

/-! ## The archive -/

namespace Archive

/-- Remove the files of some messages. -/
def removeAll (gone : Uuid → Bool) (a : Archive) : Archive where
  mails := withoutMails a.mails (a.mails.keys.filter gone)
  files := fun
    | .flags id => if gone id then none else a.files (.flags id)
    | .uid id => if gone id then none else a.files (.uid id)
    | k => a.files k
  deleted := fun id ↦ if gone id then none else a.deleted id

/-- Delete what was marked more than `olderThan` seconds before `now`. -/
def purge (olderThan now : ℕ) (a : Archive) : Archive :=
  a.removeAll fun id ↦ (a.deleted id).any fun mark ↦ !(now - mark.1 ≤ olderThan)

/-- The hourly sweep. The number of seconds saturates. -/
def sweep (retentionDays now : ℕ) (a : Archive) : Archive :=
  if retentionDays = 0 then a else a.purge (min (retentionDays * 86400) (2 ^ 64 - 1)) now

/-- Every body has its mark. -/
def Marked (a : Archive) : Prop := ∀ id, (a.mails.lookup id).isSome → (a.deleted id).isSome

variable {a : Archive} {id : Uuid}

theorem mem_list : id ∈ a.list.map ArchivedMessage.id ↔
    (a.mails.lookup id).isSome ∧ (a.deleted id).isSome := by
  rw [list, List.mem_map, AList.lookup_isSome, AList.mem_keys]
  simp only [List.mem_insertionSort, List.mem_filterMap, Option.map_eq_some_iff,
    Option.isSome_iff_exists]
  constructor
  · rintro ⟨_, ⟨other, hother, mark, hmark, rfl⟩, rfl⟩
    exact ⟨hother, mark, hmark⟩
  · rintro ⟨hid, mark, hmark⟩
    exact ⟨_, ⟨id, hid, mark, hmark, rfl⟩, rfl⟩

theorem lookup_removeAll (gone : Uuid → Bool) (a : Archive) (id : Uuid) :
    (a.removeAll gone).mails.lookup id = if gone id then none else a.mails.lookup id := by
  rw [removeAll, lookup_withoutMails]
  by_cases hid : id ∈ a.mails.keys
  · simp [List.mem_filter, hid]
  · have hnone : a.mails.lookup id = none := AList.lookup_eq_none.2 hid
    simp [hnone]

theorem Marked.removeAll (h : a.Marked) (gone : Uuid → Bool) : (a.removeAll gone).Marked := by
  intro id hid
  rw [lookup_removeAll] at hid
  change (if gone id then none else a.deleted id).isSome
  by_cases hgone : gone id = true
  · rw [if_pos hgone] at hid
    cases hid
  · rw [if_neg hgone] at hid ⊢
    exact h id hid

end Archive

namespace Account

/-- Where a message of a mailbox is restored to: there, or to the INBOX if the mailbox is no
more. -/
def home (mailbox : Text) (a : Account) : Text :=
  if ((mailboxExists mailbox).run exec a).1 then mailbox else "INBOX".toList

theorem isSome_mailboxDir_home (mailbox : Text) (a : Account) :
    (mailboxDir (a.home mailbox)).isSome := by
  have hdefault : (mailboxDir "INBOX".toList).isSome := by decide
  rw [home]
  by_cases hexists : ((mailboxExists mailbox).run exec a).1 = true
  · rw [if_pos hexists]
    rw [mailboxExists] at hexists
    by_cases hinbox : isInbox mailbox = true
    · rw [mailboxDir, if_pos hinbox]
      rfl
    · rw [if_neg hinbox] at hexists
      cases hpath : mailboxDir mailbox with
      | some path => rfl
      | none =>
        rw [hpath] at hexists
        cases hexists
  · rwa [if_neg hexists]

/-- Restore an archived message: append it to its mailbox and remove it from the archive, which the
append does not touch. Returns the mailbox. -/
def restore (crypto : MessageCrypto) (id : Uuid) (stamp : Stamp) (a : Account) :
    Option (Text × Account) :=
  (a.archive.deleted id).bind fun mark ↦
    ((a.archive.mails.lookup id).bind fun mail ↦ crypto.decode mail.stored).bind fun plaintext ↦
      let ran := (appendTo crypto (a.home mark.2) [] plaintext stamp).run exec a
      ran.1.map fun _ ↦ (a.home mark.2, { ran.2 with archive := a.archive.removeAll (· == id) })

/-- A restore succeeds if the body can be read. -/
theorem isSome_restore {a : Account} {crypto : MessageCrypto} {id : Uuid} (stamp : Stamp)
    (hmark : (a.archive.deleted id).isSome)
    (hbody : ((a.archive.mails.lookup id).bind fun mail ↦ crypto.decode mail.stored).isSome) :
    (a.restore crypto id stamp).isSome := by
  obtain ⟨mark, hmark⟩ := Option.isSome_iff_exists.1 hmark
  obtain ⟨plaintext, hplaintext⟩ := Option.isSome_iff_exists.1 hbody
  obtain ⟨path, hpath⟩ := Option.isSome_iff_exists.1 (a.isSome_mailboxDir_home mark.2)
  obtain ⟨d, hd⟩ := a.exists_dirAt_createDirAll path
  rw [restore, hmark, Option.bind_some, hplaintext, Option.bind_some]
  dsimp only
  rw [run_appendTo hpath, (run_inMailbox _ hd).1, run_append_fst]
  rfl

end Account

namespace Retention

/-! ## Removing and archiving -/

/-- With retention the message moves to the archive if it is there, and its mark is written anew. -/
theorem archive_removeFiles {snapshot : Snapshot} (hretention : snapshot.retentionDays > 0)
    (id : Uuid) (d : Dir) :
    ((snapshot.removeFiles id).run Dir.exec d).2.archive.deleted =
        Function.update d.archive.deleted id (some (snapshot.now, snapshot.mailbox)) ∧
      ∀ other, ((snapshot.removeFiles id).run Dir.exec d).2.archive.mails.lookup other =
        if other = id then (d.mails.lookup id).or (d.archive.mails.lookup id)
        else d.archive.mails.lookup other := by
  rw [Snapshot.removeFiles, if_pos hretention, Prog.run_bind, run_archiveMessage]
  refine ⟨rfl, fun other ↦ ?_⟩
  change ((d.mails.lookup id).elim d.archive.mails (d.archive.mails.insert id)).lookup other = _
  cases d.mails.lookup id with
  | none => grind
  | some mail =>
    split
    next hid => exact hid ▸ AList.lookup_insert _
    next hid => exact AList.lookup_insert_ne hid

/-! ## Sessions and sweeps -/

structure World where
  archive : Archive
  /-- The mailbox that a session has open, as it was then. -/
  views : ℕ → Option Snapshot
  clock : ℕ
  /-- The messages that were expunged and not restored, with the time of the expunge. -/
  expunged : List (Uuid × ℕ)
  sweeps : List ℕ

def World.start : World := ⟨⟨∅, fun _ ↦ none, fun _ ↦ none⟩, fun _ ↦ none, 0, [], []⟩

inductive Event
  | opens (session : ℕ) (snapshot : Snapshot)
  /-- A session removes a message from the mailbox as it is then: a part of EXPUNGE, MOVE and
REPLACE. -/
  | removes (session time : ℕ) (d : Dir) (id : Uuid)
  | sweeps (time : ℕ)
  /-- A restore has succeeded. -/
  | restores (id : Uuid)

def machine (days : ℕ) : Machine World Event where
  enabled w
    | .opens _ snapshot =>
      w.clock ≤ snapshot.now ∧ snapshot.now < 2 ^ 64 ∧ snapshot.retentionDays = days
    | .removes _ time d _ =>
      w.clock ≤ time ∧ time < 2 ^ 64 ∧ ∀ id ∈ d.mails.keys, id ∉ w.expunged.map Prod.fst
    | .sweeps time => w.clock ≤ time ∧ time < 2 ^ 64
    | .restores _ => True
  step w
    | .opens session snapshot =>
      { w with clock := snapshot.now, views := Function.update w.views session (some snapshot) }
    | .removes session time d id =>
      match w.views session with
      | none => { w with clock := time }
      | some snapshot =>
        { w with
          clock := time
          archive :=
            ((snapshot.removeFiles id).run Dir.exec { d with archive := w.archive }).2.archive
          expunged := if (d.mails.lookup id).isSome then (id, time) :: w.expunged else w.expunged }
    | .sweeps time =>
      { w with clock := time, archive := w.archive.sweep days time, sweeps := time :: w.sweeps }
    | .restores id =>
      { w with
        archive := w.archive.removeAll (· == id)
        expunged := w.expunged.filter (·.1 != id) }

/-- The message can be restored wherever its key is known. -/
def Restorable (archive : Archive) (id : Uuid) : Prop :=
  ∀ (a : Account) (crypto : MessageCrypto) (stamp : Stamp), a.archive = archive →
    (∀ mail, archive.mails.lookup id = some mail → (crypto.decode mail.stored).isSome) →
      (a.restore crypto id stamp).isSome

/-- What was expunged is kept for the whole time and not longer. -/
structure Kept (days : ℕ) (w : World) : Prop where
  listed : ∀ entry ∈ w.expunged, w.clock ≤ entry.2 + days * 86400 →
    entry.1 ∈ w.archive.list.map ArchivedMessage.id ∧ Restorable w.archive entry.1
  gone : ∀ entry ∈ w.expunged, ∀ time ∈ w.sweeps, entry.2 + days * 86400 < time →
    w.archive.mails.lookup entry.1 = none

/-- A sweep finds each message either in time or too late, by its stamp as by the time it was
expunged. -/
def Timely (days : ℕ) (w : World) : Event → Prop
  | .sweeps time => ∀ entry ∈ w.expunged, (w.archive.mails.lookup entry.1).isSome →
      ∀ mark ∈ w.archive.deleted entry.1,
        (mark.1 + days * 86400 < time ↔ entry.2 + days * 86400 < time)
  | _ => True

structure Inv (days : ℕ) (w : World) : Prop where
  marked : w.archive.Marked
  views : ∀ session, ∀ snapshot ∈ w.views session, snapshot.retentionDays = days
  swept : ∀ time ∈ w.sweeps, time ≤ w.clock

theorem restorable_of_marked {archive : Archive} (h : archive.Marked) {id : Uuid}
    (hid : (archive.mails.lookup id).isSome) :
    id ∈ archive.list.map ArchivedMessage.id ∧ Restorable archive id := by
  refine ⟨Archive.mem_list.2 ⟨hid, h id hid⟩, ?_⟩
  rintro a crypto stamp rfl hkey
  obtain ⟨mail, hmail⟩ := Option.isSome_iff_exists.1 hid
  refine a.isSome_restore stamp (h id hid) ?_
  rw [hmail]
  exact hkey mail hmail

theorem lookup_sweep {days : ℕ} (hdays : 0 < days) {time : ℕ} (htime : time < 2 ^ 64) (a : Archive)
    {id : Uuid} {mark : ℕ × Text} (hmark : a.deleted id = some mark) :
    (a.sweep days time).mails.lookup id =
      if mark.1 + days * 86400 < time then none else a.mails.lookup id := by
  rw [Archive.sweep, if_neg hdays.ne', Archive.purge, Archive.lookup_removeAll, hmark]
  have hiff : (!decide (time - mark.1 ≤ min (days * 86400) (2 ^ 64 - 1))) = true ↔
      mark.1 + days * 86400 < time := by
    rw [Bool.not_eq_true', decide_eq_false_iff_not]
    omega
  exact if_congr hiff rfl rfl

theorem lookup_sweep_of_none {days time : ℕ} {a : Archive} {id : Uuid}
    (h : a.mails.lookup id = none) :
    (a.sweep days time).mails.lookup id = none := by
  rw [Archive.sweep]
  split
  · exact h
  · rw [Archive.purge, Archive.lookup_removeAll, h, ite_self]

variable {days : ℕ} {w : World}

theorem Inv.step (h : Inv days w) (hdays : 0 < days) {e : Event}
    (henabled : (machine days).enabled w e) :
    Inv days ((machine days).step w e) := by
  cases e with
  | opens session snapshot =>
    refine ⟨h.marked, fun other seen hseen ↦ ?_, fun time ht ↦ (h.swept time ht).trans henabled.1⟩
    dsimp only [machine] at hseen
    rw [Function.update_apply] at hseen
    split at hseen
    · rw [← Option.some.inj hseen]
      exact henabled.2.2
    · exact h.views other seen hseen
  | removes session time d id =>
    have hswept : ∀ t ∈ w.sweeps, t ≤ time := fun t ht ↦ (h.swept t ht).trans henabled.1
    dsimp only [machine]
    cases hview : w.views session with
    | none => exact ⟨h.marked, h.views, hswept⟩
    | some snapshot =>
      refine ⟨fun other hother ↦ ?_, h.views, hswept⟩
      obtain ⟨hdeleted, hbodies⟩ := archive_removeFiles (h.views session snapshot hview ▸ hdays) id
        { d with archive := w.archive }
      rw [hdeleted, Function.update_apply]
      rw [hbodies] at hother
      split
      · rfl
      next hid => exact h.marked other (by rwa [if_neg hid] at hother)
  | sweeps time =>
    refine ⟨?_, h.views, fun t ht ↦ ?_⟩
    · dsimp only [machine, Archive.sweep]
      rw [if_neg hdays.ne']
      exact h.marked.removeAll _
    · rcases List.mem_cons.1 ht with rfl | ht
      · exact le_rfl
      · exact (h.swept t ht).trans henabled.1
  | restores id => exact ⟨h.marked.removeAll _, h.views, h.swept⟩

theorem kept_iff (h : w.archive.Marked) :
    Kept days w ↔ ∀ entry ∈ w.expunged,
      (w.clock ≤ entry.2 + days * 86400 → (w.archive.mails.lookup entry.1).isSome) ∧
        ∀ time ∈ w.sweeps, entry.2 + days * 86400 < time → w.archive.mails.lookup entry.1 =
          none := by
  constructor
  · intro hkept entry hentry
    exact ⟨fun hclock ↦ (Archive.mem_list.1 (hkept.listed entry hentry hclock).1).1,
      hkept.gone entry hentry⟩
  · intro hall
    exact ⟨fun entry hentry hclock ↦ restorable_of_marked h ((hall entry hentry).1 hclock),
      fun entry hentry ↦ (hall entry hentry).2⟩

/-- Only a sweep can break it, and exactly if it is not timely. -/
theorem Kept.step_iff (h : Kept days w) (hinv : Inv days w) (hdays : 0 < days) {e : Event}
    (henabled : (machine days).enabled w e) :
    Kept days ((machine days).step w e) ↔ Timely days w e := by
  rw [kept_iff (hinv.step hdays henabled).marked]
  have hold := (kept_iff hinv.marked).1 h
  have hwaits : ∀ {time}, w.clock ≤ time → ∀ entry ∈ w.expunged,
      (time ≤ entry.2 + days * 86400 → (w.archive.mails.lookup entry.1).isSome) ∧
        ∀ swept ∈ w.sweeps, entry.2 + days * 86400 < swept →
          w.archive.mails.lookup entry.1 = none :=
    fun htime entry hentry ↦ (hold entry hentry).imp_left fun hkeeps hclock ↦
      hkeeps (htime.trans hclock)
  cases e with
  | opens session snapshot => exact iff_of_true (hwaits henabled.1) trivial
  | removes session time d id =>
    refine iff_of_true ?_ trivial
    obtain ⟨htime, -, hfresh⟩ := henabled
    dsimp only [machine]
    cases hview : w.views session with
    | none => exact hwaits htime
    | some snapshot =>
      obtain ⟨-, hbodies⟩ := archive_removeFiles (hinv.views session snapshot hview ▸ hdays) id
        { d with archive := w.archive }
      intro entry hentry
      -- an entry is an old one, or that of this message
      have hcases : entry ∈ w.expunged ∨ entry = (id, time) ∧ (d.mails.lookup id).isSome := by
        dsimp only at hentry
        split at hentry
        next hthere => exact (List.mem_cons.1 hentry).symm.imp_right (⟨·, hthere⟩)
        next => exact .inl hentry
      rcases hcases with hmem | ⟨rfl, hthere⟩
      · have hnone : d.mails.lookup entry.1 = none :=
          AList.lookup_eq_none.2 fun hkey ↦ hfresh _ hkey (List.mem_map_of_mem hmem)
        have hsame : (if entry.1 = id then (d.mails.lookup id).or (w.archive.mails.lookup id)
            else w.archive.mails.lookup entry.1) = w.archive.mails.lookup entry.1 := by
          split
          next hid => rw [← hid, hnone, Option.none_or]
          next => rfl
        dsimp only
        rw [hbodies, hsame]
        exact hwaits htime entry hmem
      · dsimp only
        rw [hbodies, if_pos rfl]
        refine ⟨fun _ ↦ ?_, fun swept hswept hlate ↦ ?_⟩
        · rw [Option.isSome_or, hthere, Bool.true_or]
        · have hle := (hinv.swept swept hswept).trans htime
          omega
  | sweeps time =>
    obtain ⟨htime, hmax⟩ := henabled
    refine forall₂_congr fun entry hentry ↦ ?_
    obtain ⟨hkeeps, hgone⟩ := hwaits htime entry hentry
    dsimp only [machine]
    cases hthere : w.archive.mails.lookup entry.1 with
    | none =>
      rw [hthere] at hkeeps
      rw [lookup_sweep_of_none hthere]
      exact iff_of_true ⟨hkeeps, fun _ _ _ ↦ rfl⟩ fun hsome ↦ by cases hsome
    | some mail =>
      obtain ⟨mark, hmark⟩ := Option.isSome_iff_exists.1 (hinv.marked _ (by rw [hthere]; rfl))
      have hearlier : ∀ swept ∈ w.sweeps, swept ≤ entry.2 + days * 86400 := by
        refine fun swept hswept ↦ not_lt.1 fun hlate ↦ ?_
        cases hthere.symm.trans (hgone swept hswept hlate)
      rw [lookup_sweep hdays hmax w.archive hmark, hthere]
      by_cases hstamp : mark.1 + days * 86400 < time
      · simp [hmark, hstamp]
      · simpa [hmark, hstamp] using fun _ ↦ hearlier
  | restores id =>
    refine iff_of_true (fun entry hentry ↦ ?_) trivial
    obtain ⟨hmem, hne⟩ := List.mem_filter.1 hentry
    dsimp only [machine]
    rw [Archive.lookup_removeAll, if_neg (by simpa using hne)]
    exact hold entry hmem

/-- **Deleted mail is kept for the whole time in every run whose sweeps are timely**, and an event
breaks it exactly if it is a sweep that is not. -/
theorem kept_of_timely (hdays : 0 < days) (hreach : (machine days).Reach (Timely days) .start w) :
    Kept days w ∧ ∀ e, (machine days).enabled w e →
      (Kept days ((machine days).step w e) ↔ Timely days w e) := by
  obtain ⟨hinv, hkept⟩ : Inv days w ∧ Kept days w := by
    refine hreach.invariant (I := fun w ↦ Inv days w ∧ Kept days w) ?_ ?_
    · exact ⟨⟨fun _ h ↦ (by cases h), fun _ _ h ↦ (by cases h), fun _ h ↦ (by cases h)⟩,
        fun _ h ↦ (by cases h), fun _ h ↦ (by cases h)⟩
    · exact fun w e h henabled htimely ↦
        ⟨h.1.step hdays henabled, (h.2.step_iff h.1 hdays henabled).2 htimely⟩
  exact ⟨hkept, fun e henabled ↦ hkept.step_iff hinv hdays henabled⟩

/-- A mailbox with one message, deleted and with UID 7. -/
def oneDeleted : Dir where
  mails := AList.insert (.ofNat 10) ⟨[120], ⟨0, 0⟩⟩ ∅
  files := fun
    | .flags _ => some [.deleted]
    | .uid _ => some 7
    | .uidnext => some 7
    | _ => none
  temps := fun _ ↦ none
  staged := fun _ ↦ none
  archive := ⟨∅, fun _ ↦ none, fun _ ↦ none⟩

/-- The mailbox as a session with 30 days of retention has it open. -/
def seen : Snapshot × Dir :=
  let opened := (Snapshot.openAt .disabled "INBOX".toList 30 100 ⟨100, 0⟩).run Dir.exec oneDeleted
  (opened.1.getD .empty, opened.2)

/-- A session has the mailbox open since time 0, and expunges its message a day later. -/
def longOpen : World :=
  [.opens 0 { seen.1 with now := 0, retentionDays := 1 },
    .removes 0 86400 seen.2 (.ofNat 10)].foldl (machine 1).step .start

theorem reach_longOpen : (machine 1).Reach (Timely 1) .start longOpen := by
  refine .step (.step .refl ?_ trivial) ?_ trivial
  · exact ⟨le_rfl, by decide, rfl⟩
  · exact ⟨by decide, by decide, by decide⟩

/-- A sweep right after the expunge leaves the message, and one two days after the open removes
it. -/
theorem kept_longOpen :
    Kept 1 ([.sweeps 86400, .sweeps 172801].foldl (machine 1).step longOpen) := by
  refine (kept_of_timely Nat.one_pos (.step (.step reach_longOpen ?_ ?_) ?_ ?_)).1
  · exact ⟨by decide, by decide⟩
  · unfold Timely
    decide
  · exact ⟨by decide, by decide⟩
  · unfold Timely
    decide

theorem purged_early : (machine 1).Reach (Timely 1) .start longOpen ∧
    (machine 1).enabled longOpen (.sweeps 86401) ∧
    ¬ Kept 1 ((machine 1).step longOpen (.sweeps 86401)) := by
  refine ⟨reach_longOpen, ⟨by decide, by decide⟩, fun h ↦ ?_⟩
  have hentry : (Uuid.ofNat 10, 86400) ∈ longOpen.expunged := by decide
  have hlisted := (h.listed _ hentry (by decide)).1
  revert hlisted
  decide

end Retention

end Epistle.Imap
