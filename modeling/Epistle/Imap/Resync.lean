import Epistle.Imap.Changes

/-!
# Catching up with a mailbox

A client that has seen a mailbox comes back with the highest mod-sequence it was told. It asks for
the messages whose mod-sequence is above that, and for the UIDs that have vanished since. Here any
number of sessions work on the mailbox, one command at a time, each with the snapshot it holds: what
a session shows may be out of date, and it may store flags of a message that is gone, or remove one
again.

Whatever they do, the client misses nothing (`resync_complete`). It does not matter whether an open
is answered from the index or by a scan.
-/

namespace Epistle.Imap

open TextFormat Interleaving Effects
open Snapshot (pairs)

def Command.opens : Command → Bool
  | .openMailbox _ _ _ _ => true
  | _ => false

theorem Command.ne_openMailbox {c : Command} (h : c.opens = false) (mailbox : Text)
    (retentionDays now : ℕ) (clock : SystemTime) :
    c ≠ .openMailbox mailbox retentionDays now clock := by
  rintro rfl
  cases h

/-- What a snapshot tells a client of each message. -/
def Snapshot.sightings (snapshot : Snapshot) : List (Sighting Uuid UInt32 (Finset Flag)) :=
  snapshot.messages.map fun message ↦ ⟨message.id, message.uid, message.flags.toFinset⟩

variable {message : MessageRef} {snapshot : Snapshot} {d : Dir}

theorem Snapshot.mem_sightings (h : message ∈ snapshot.messages) :
    ⟨message.id, message.uid, message.flags.toFinset⟩ ∈ snapshot.sightings :=
  List.mem_map.2 ⟨message, h, rfl⟩

theorem Agrees.item (h : Agrees d message)
    (hmail : message.id ∈ d.mails.keys) : d.changeLog.items message.id =
      some ⟨some message.uid, message.flags.toFinset, message.modseq⟩ := by
  rw [Dir.items_changeLog_eq_some, h.uid, FlagUpdates.flagSet, h.flags, h.modseq]
  exact ⟨AList.lookup_isSome.2 hmail, rfl⟩

theorem Current.mem_keys {messages : List MessageRef} (h : Current d messages) {id : Uuid} :
    id ∈ messages.map MessageRef.id ↔ id ∈ d.mails.keys := by
  rw [h.ids]
  exact List.mem_insertionSort _

theorem Current.covers (h : Current d snapshot.messages) :
    ChangeLog.Covers d.modseqCounter snapshot.sightings d.changeLog := by
  refine ChangeLog.Covers.of_seen (s := d.changeLog) fun x hx ↦ ?_
  obtain ⟨message, hmessage, rfl⟩ := List.mem_map.1 hx
  have hmail := h.mem_keys.1 (List.mem_map_of_mem hmessage)
  exact ⟨message.modseq, (h.agrees message hmessage).item hmail⟩

namespace Resync

/-! ## Runs -/

structure Event where
  session : ℕ
  crypto : MessageCrypto
  command : Command

structure World where
  dir : Dir
  /-- The snapshot that each session holds. -/
  held : ℕ → Snapshot
  opened : List Snapshot
  /-- The ids that messages have been added under. -/
  used : List Uuid

def World.start : World := ⟨.empty, fun _ ↦ .empty, [], []⟩

/-- Commands are run one after the other. An id is generated for one message only. -/
def machine : Machine World Event where
  enabled := fun w e ↦ ∀ id ∈ e.command.newId, id ∉ w.used
  step := fun w e ↦
    let r := (e.command.body e.crypto (w.held e.session)).run Dir.exec w.dir
    { dir := r.2
      held := Function.update w.held e.session r.1
      opened := if e.command.opens then r.1 :: w.opened else w.opened
      used := e.command.newId.toList ++ w.used }

instance (w : World) (e : Event) : Decidable (machine.enabled w e) :=
  inferInstanceAs (Decidable (∀ id ∈ e.command.newId, id ∉ w.used))

/-- Every open has a covered client, and sessions hold what opens have shown. -/
structure Inv (w : World) : Prop where
  sound : Sound w.dir
  covers : ∀ snapshot ∈ w.opened,
    ChangeLog.Covers snapshot.highestModseq snapshot.sightings w.dir.changeLog
  held : ∀ s, ∀ p ∈ pairs (w.held s).messages, ∃ snapshot ∈ w.opened, p ∈ pairs snapshot.messages
  shown_used : ∀ snapshot ∈ w.opened, ∀ message ∈ snapshot.messages, message.id ∈ w.used
  mails_used : ∀ id ∉ w.used, w.dir.mails.lookup id = none

theorem inv_start : Inv .start where
  sound := sound_empty
  covers := nofun
  held := nofun
  shown_used := nofun
  mails_used := fun _ _ ↦ rfl

section

variable {w : World} (h : Inv w)
include h

/-- A session's own view may be old, but the UIDs it has are right. -/
theorem Inv.known (s : ℕ) : Known w.dir (w.held s) := by
  intro message hmessage item hitem
  obtain ⟨snapshot, hsnapshot, hpair⟩ := h.held s (message.uid, message.id)
    (List.mem_map.2 ⟨message, hmessage, rfl⟩)
  obtain ⟨shown, hshown, heq⟩ := List.mem_map.1 hpair
  obtain ⟨huid, hid⟩ := Prod.mk.inj heq
  rw [← hid] at hitem
  rw [← huid]
  exact ((h.covers snapshot hsnapshot).present _ (Snapshot.mem_sightings hshown) item hitem).1

theorem Inv.used_of_sighting {snapshot : Snapshot} (hsnapshot : snapshot ∈ w.opened) :
    ∀ x ∈ snapshot.sightings, x.key ∈ {id | id ∈ w.used} := by
  intro x hx
  obtain ⟨message, hmessage, rfl⟩ := List.mem_map.1 hx
  exact h.shown_used snapshot hsnapshot message hmessage

theorem Inv.step_open (s : ℕ) (crypto : MessageCrypto) (mailbox : Text) (retentionDays now : ℕ)
    (clock : SystemTime) :
    Inv (machine.step w ⟨s, crypto, .openMailbox mailbox retentionDays now clock⟩) := by
  obtain ⟨snapshot, d', hrun, hopened, hhighest⟩ :=
    h.sound.openAt crypto mailbox retentionDays now clock
  have hstep : machine.step w ⟨s, crypto, .openMailbox mailbox retentionDays now clock⟩ =
      ⟨d', Function.update w.held s snapshot, snapshot :: w.opened, w.used⟩ := by
    simp only [machine, Command.body, Prog.run_bind, hrun, Command.opens, Command.newId]
    rfl
  have hmails_used : ∀ id ∉ w.used, d'.mails.lookup id = none := by
    intro id hid
    rw [hopened.numbered.mails, h.mails_used id hid]
  rw [hstep]
  refine ⟨hopened.sound, ?_, ?_, ?_, hmails_used⟩
  · intro shown hshown
    rcases List.mem_cons.1 hshown with rfl | hshown
    · rw [hhighest]
      exact hopened.current.covers
    · exact (h.covers shown hshown).advance (h.used_of_sighting hshown) (hopened.numbered.advance _)
  · intro t p hp
    change p ∈ pairs (Function.update w.held s snapshot t).messages at hp
    by_cases ht : t = s
    · subst ht
      rw [Function.update_self] at hp
      exact ⟨snapshot, List.mem_cons_self, hp⟩
    · rw [Function.update_of_ne ht] at hp
      obtain ⟨shown, hshown, hpair⟩ := h.held t p hp
      exact ⟨shown, List.mem_cons_of_mem _ hshown, hpair⟩
  · intro shown hshown message hmessage
    rcases List.mem_cons.1 hshown with rfl | hshown
    · by_contra hunused
      have hmail := hopened.current.mem_keys.1 (List.mem_map_of_mem hmessage)
      exact AList.lookup_eq_none.1 (hmails_used _ hunused) hmail
    · exact h.shown_used shown hshown message hmessage

variable {e : Event}

theorem Inv.step_command (henabled : machine.enabled w e)
    (hopens : e.command.opens = false) : Inv (machine.step w e) := by
  have hc := Command.ne_openMailbox hopens
  have heffect := e.command.effect e.crypto hc (w.held e.session) w.dir
  have hpairs := (Command.returns_pairs e.crypto hc (w.held e.session)).run Dir.exec w.dir
  have hnew : ∀ id, e.command.newId = some id →
      id ∉ {id | id ∈ w.used} ∧ w.dir.mails.lookup id = none := fun id hid ↦
    ⟨henabled id hid, h.mails_used id (henabled id hid)⟩
  have hadvance := heffect.advance (h.known e.session) hnew
  have hopened : (machine.step w e).opened = w.opened := by simp [machine, hopens]
  refine ⟨heffect.sound h.sound fun id hid ↦ (hnew id hid).2, ?_, ?_, ?_, ?_⟩
  · rw [hopened]
    exact fun shown hshown ↦ (h.covers shown hshown).advance (h.used_of_sighting hshown) hadvance
  · intro t p hp
    rw [hopened]
    change p ∈ pairs (Function.update w.held e.session _ t).messages at hp
    by_cases ht : t = e.session
    · rw [ht, Function.update_self] at hp
      exact h.held e.session p (hpairs.subset hp)
    · rw [Function.update_of_ne ht] at hp
      exact h.held t p hp
  · rw [hopened]
    exact fun shown hshown message hmessage ↦
      List.mem_append_right _ (h.shown_used shown hshown message hmessage)
  · intro id hid
    refine heffect.lookup_eq_none ?_ (h.mails_used id fun hused ↦
      hid (List.mem_append_right _ hused))
    intro heq
    exact hid (List.mem_append_left _ (by rw [heq]; exact List.mem_singleton_self id))

theorem Inv.step (henabled : machine.enabled w e) : Inv (machine.step w e) := by
  obtain ⟨s, crypto, c⟩ := e
  cases c with
  | openMailbox mailbox retentionDays now clock =>
    exact h.step_open s crypto mailbox retentionDays now clock
  | _ => exact h.step_command henabled rfl

end

theorem Inv.of_reach {w : World} (hreach : machine.Reach (fun _ _ ↦ True) .start w) : Inv w :=
  hreach.invariant (I := Inv) inv_start fun _ _ h henabled _ ↦ h.step henabled

theorem modseqCounter_step_le (w : World) (e : Event) :
    (machine.step w e).dir.modseqCounter ≤ w.dir.modseqCounter + 1 := by
  obtain ⟨s, crypto, c⟩ := e
  cases c with
  | openMailbox mailbox retentionDays now clock =>
    obtain ⟨snapshot, hrun, -⟩ := run_openAt crypto mailbox retentionDays now clock w.dir
    have hnumbered := (opened_cases crypto clock w.dir).1
    simp only [machine, Command.body, Prog.run_bind, hrun]
    exact hnumbered.modseqCounter.le.trans (Nat.le_succ _)
  | _ =>
    exact (Command.effect crypto (Command.ne_openMailbox rfl) (w.held s) w.dir).modseqCounter_le

/-- The counter of mod-sequences is at most the number of commands, and so within 64 bits. -/
theorem modseqCounter_foldl_le (events : List Event) (w : World) :
    (events.foldl machine.step w).dir.modseqCounter ≤ w.dir.modseqCounter + events.length := by
  induction events generalizing w with
  | nil => exact le_rfl
  | cons e events ih =>
    refine (ih _).trans ?_
    have := modseqCounter_step_le w e
    rw [List.length_cons]
    omega

/-- **A client that comes back misses nothing.** Compare any open of a run with the next one, made
in whatever state the run has got to: the next one succeeds and tells no lower mod-sequence; a
message that it shows with other flags it shows with a mod-sequence above the one told before; and a
UID that it does not show any more is among those that have vanished since. -/
theorem resync_complete {w : World} (hreach : machine.Reach (fun _ _ ↦ True) .start w)
    {earlier : Snapshot} (hearlier : earlier ∈ w.opened) (crypto : MessageCrypto) (mailbox : Text)
    (retentionDays now : ℕ) (clock : SystemTime) :
    ∃ later d', (Snapshot.openAt crypto mailbox retentionDays now clock).run Dir.exec w.dir =
        (some later, d') ∧
      earlier.highestModseq ≤ later.highestModseq ∧
      (∀ before ∈ earlier.messages, ∀ after ∈ later.messages, after.id = before.id →
        after.flags.toFinset ≠ before.flags.toFinset → earlier.highestModseq < after.modseq) ∧
      ∀ uid ∈ earlier.messages.map MessageRef.uid, uid ∉ later.messages.map MessageRef.uid →
        uid ∈ ((Vanished.since earlier.highestModseq).run Dir.exec d').1 := by
  have h := Inv.of_reach hreach
  obtain ⟨later, d', hrun, hopened, hhighest⟩ :=
    h.sound.openAt crypto mailbox retentionDays now clock
  have hcovers := (h.covers earlier hearlier).advance (h.used_of_sighting hearlier)
    (hopened.numbered.advance _)
  have hitem : ∀ after ∈ later.messages, d'.changeLog.items after.id =
      some ⟨some after.uid, after.flags.toFinset, after.modseq⟩ := fun after hafter ↦
    (hopened.current.agrees after hafter).item
      (hopened.current.mem_keys.1 (List.mem_map_of_mem hafter))
  refine ⟨later, d', hrun, ?_, fun before hbefore after hafter hid hflags ↦ ?_,
    fun uid huid hgone ↦ ?_⟩
  · rw [hhighest]
    exact hcovers.count_le
  · have hafter' := hitem after hafter
    rw [hid] at hafter'
    exact hcovers.changed (Snapshot.mem_sightings hbefore) hafter' hflags
  · obtain ⟨before, hbefore, rfl⟩ := List.mem_map.1 huid
    refine hcovers.vanished (Snapshot.mem_sightings hbefore) fun item hitem' hname ↦ hgone ?_
    -- a message that is still there is shown, under the UID it had
    have hmail : before.id ∈ d'.mails.keys :=
      AList.lookup_isSome.1 (Dir.items_changeLog_eq_some.1 hitem').1
    obtain ⟨after, hafter, hid⟩ := List.mem_map.1 (hopened.current.mem_keys.2 hmail)
    have hafter' := hitem after hafter
    rw [hid, hitem', Option.some.injEq] at hafter'
    rw [hafter'] at hname
    exact List.mem_map.2 ⟨after, hafter, Option.some.inj hname⟩

/-- Flags of one message are changed, the other one is removed. -/
def editing : List Event :=
  let ask := fun command ↦ (⟨0, .disabled, command⟩ : Event)
  [ask (.deliver (.ofNat 1) [] [1] ⟨1, 0⟩ []), ask (.deliver (.ofNat 2) [] [2] ⟨1, 0⟩ []),
    ask (.openMailbox "INBOX".toList 0 0 ⟨1, 0⟩), ask (.storeFlags 1 [.seen]),
    ask (.storeFlags 2 [.deleted]), ask .expunge]

theorem resync_complete_editing :
    ∃ earlier ∈ (editing.foldl machine.step .start).opened,
      earlier.highestModseq = 1 ∧ earlier.messages.map MessageRef.uid = [1, 2] ∧
      ∃ later d', (Snapshot.openAt .disabled "INBOX".toList 0 0 ⟨1, 0⟩).run Dir.exec
          (editing.foldl machine.step .start).dir = (some later, d') ∧
        later.messages.map (fun message ↦ (message.uid, message.modseq)) = [(1, 2)] ∧
        (2 : UInt32) ∈ ((Vanished.since 1).run Dir.exec d').1 := by
  have hhead : (editing.foldl machine.step .start).opened.head?.map (fun snapshot ↦
      (snapshot.highestModseq, snapshot.messages.map MessageRef.uid)) = some (1, [1, 2]) := by
    decide
  obtain ⟨earlier, hearlier, heq⟩ := Option.map_eq_some_iff.1 hhead
  obtain ⟨hhighest, huids⟩ := Prod.mk.inj heq
  have hreach : machine.Reach (fun _ _ ↦ True) .start (editing.foldl machine.step .start) :=
    .of_passes (by decide)
  obtain ⟨later, d', hrun, -, -, hvanished⟩ := resync_complete hreach
    (List.mem_of_head? hearlier) .disabled "INBOX".toList 0 0 ⟨1, 0⟩
  have hlater : ((Snapshot.openAt .disabled "INBOX".toList 0 0 ⟨1, 0⟩).run Dir.exec
      (editing.foldl machine.step .start).dir).1.map (fun snapshot ↦ snapshot.messages.map
        fun message ↦ (message.uid, message.modseq)) = some [(1, 2)] := by decide
  rw [hrun, Option.map_some, Option.some.injEq] at hlater
  refine ⟨earlier, List.mem_of_head? hearlier, hhighest, huids, later, d', hrun, hlater, ?_⟩
  have hshown : later.messages.map MessageRef.uid = [1] := by
    have hfst := congrArg (List.map Prod.fst) hlater
    rwa [List.map_map] at hfst
  rw [← hhighest]
  exact hvanished 2 (by rw [huids]; decide) (by rw [hshown]; decide)

end Resync

end Epistle.Imap
