import Epistle.Imap.Resync

/-!
# Messages that arrive

A client that keeps the highest mod-sequence it was told asks for what is above it. For changes to
the messages it has seen that is enough (`Epistle.Imap.Resync`). It is not enough for messages that
are new to it: a delivery or an append writes the message and its flags, but gives it no
mod-sequence and does not advance the counter. COPY and MOVE append to their target.

So a new message is shown with the mod-sequence that its sidecar has from before, which is 1 if
there is none. A sidecar is there from before only if a message of the same id was in the mailbox
once: removing a message leaves its mod-sequence behind. Runs in which an id may come back after its
message has gone are those of `Arrivals.machine`.
-/

namespace Epistle.Imap.Arrivals

open TextFormat Interleaving
open Snapshot (pairs)
open FlagUpdates (modseqOf)
open Resync (World Event)

/-- Commands are run one after the other. A new message has an id that no message in the mailbox
has. -/
def machine : Machine World Event where
  enabled := fun w e ↦ ∀ id ∈ e.command.newId, w.dir.mails.lookup id = none
  step := Resync.machine.step

instance (w : World) (e : Event) : Decidable (machine.enabled w e) :=
  inferInstanceAs (Decidable (∀ id ∈ e.command.newId, w.dir.mails.lookup id = none))

variable {e : Event} {w : World} {id : Uuid}

theorem sound_step (h : Sound w.dir) (henabled : machine.enabled w e) :
    Sound (machine.step w e).dir := by
  obtain ⟨s, crypto, c⟩ := e
  cases c with
  | openMailbox mailbox retentionDays now clock =>
    obtain ⟨snapshot, d', hrun, hopened, -⟩ := h.openAt crypto mailbox retentionDays now clock
    have hdir : (machine.step w ⟨s, crypto, .openMailbox mailbox retentionDays now clock⟩).dir =
      d' := by
      simp only [machine, Resync.machine, Command.body, Prog.run_bind, hrun]
      rfl
    rw [hdir]
    exact hopened.sound
  | _ =>
    exact (Command.effect crypto (Command.ne_openMailbox rfl) (w.held s) w.dir).sound h
      fun id hid ↦ henabled id hid

theorem sound_of_reach {guard : World → Event → Prop} {w' : World} (h : Sound w.dir)
    (hreach : machine.Reach guard w w') : Sound w'.dir :=
  hreach.invariant (I := fun w ↦ Sound w.dir) h fun _ _ hsound henabled _ ↦
    sound_step hsound henabled

/-- A message that is there with a mod-sequence and that no session has seen. -/
structure Waiting (id : Uuid) (modseq : ℕ) (w : World) : Prop where
  sound : Sound w.dir
  there : (w.dir.mails.lookup id).isSome
  modseq_eq : modseqOf w.dir id = modseq
  unshown : ∀ s, id ∉ (w.held s).messages.map MessageRef.id

theorem unshown_step (hopens : e.command.opens = false)
    (h : ∀ s, id ∉ (w.held s).messages.map MessageRef.id) (s : ℕ) :
    id ∉ ((machine.step w e).held s).messages.map MessageRef.id := by
  have hpairs := (Command.returns_pairs e.crypto (Command.ne_openMailbox hopens)
    (w.held e.session)).run Dir.exec w.dir
  change id ∉ (Function.update w.held e.session _ s).messages.map MessageRef.id
  by_cases hs : s = e.session
  · rw [hs, Function.update_self]
    intro hmem
    refine h e.session ?_
    have hids := hpairs.map Prod.snd
    rw [pairs, pairs, List.map_map, List.map_map] at hids
    exact hids.subset hmem
  · rw [Function.update_of_ne hs]
    exact h s

/-- The message is put in. Its mod-sequence is the one that was there before it. -/
theorem waiting_of_added (h : Sound w.dir)
    (hid : e.command.newId = some id) (henabled : machine.enabled w e)
    (hunshown : ∀ s, id ∉ (w.held s).messages.map MessageRef.id) :
    Waiting id (modseqOf w.dir id) (machine.step w e) := by
  obtain ⟨mail, hmails, hfiles, -⟩ := Command.added e.crypto hid (w.held e.session) w.dir
  have hopens : e.command.opens = false := by
    cases hc : e.command with
    | openMailbox _ _ _ _ =>
      rw [hc] at hid
      cases hid
    | _ => rfl
  refine ⟨sound_step h henabled, ?_, ?_, unshown_step hopens hunshown⟩
  · change (((e.command.body e.crypto (w.held e.session)).run Dir.exec w.dir).2.mails.lookup
      id).isSome
    rw [hmails, AList.lookup_insert]
    rfl
  · change (((e.command.body e.crypto (w.held e.session)).run Dir.exec w.dir).2.files _).getD 1 = _
    rw [hfiles (.modseq id) (by simp), modseqOf]

/-- Until the next open nobody can change the message. -/
theorem Waiting.step {modseq : ℕ} (h : Waiting id modseq w)
    (henabled : machine.enabled w e) (hopens : e.command.opens = false) :
    Waiting id modseq (machine.step w e) := by
  have heffect := e.command.effect e.crypto (Command.ne_openMailbox hopens) (w.held e.session) w.dir
  have hnew : e.command.newId ≠ some id := by
    intro hid
    have hthere := h.there
    rw [henabled id hid] at hthere
    cases hthere
  obtain ⟨hlookup, hmodseq⟩ := heffect.untouched hnew (h.unshown e.session)
  refine ⟨sound_step h.sound henabled, ?_, ?_, unshown_step hopens h.unshown⟩
  · exact hlookup ▸ h.there
  · rw [← h.modseq_eq, modseqOf, modseqOf, ← hmodseq]
    rfl

theorem Waiting.of_reach {w' : World} {modseq : ℕ} (h : Waiting id modseq w)
    (hreach : machine.Reach (fun _ e ↦ e.command.opens = false) w w') : Waiting id modseq w' :=
  hreach.invariant h fun _ _ hwaiting henabled hopens ↦ hwaiting.step henabled hopens

/-- **What the next open tells of a message that has arrived.** A message is added under an id that
no session has seen. Whatever the sessions do then, the next open shows it with a mod-sequence above
`h` and tells a highest mod-sequence above `h`, if and only if a mod-sequence above `h` was waiting
under this id before the message was added. -/
theorem arrival_above_iff {w : World} (hreach : machine.Reach (fun _ _ ↦ True) .start w) {e : Event}
    {id : Uuid} (hid : e.command.newId = some id) (henabled : machine.enabled w e)
    (hunshown : ∀ s, id ∉ (w.held s).messages.map MessageRef.id) {w' : World}
    (hbefore : machine.Reach (fun _ e ↦ e.command.opens = false) (machine.step w e) w') (h : ℕ)
    (crypto : MessageCrypto) (mailbox : Text) (retentionDays now : ℕ) (clock : SystemTime) :
    ∃ later d', (Snapshot.openAt crypto mailbox retentionDays now clock).run Dir.exec w'.dir =
        (some later, d') ∧
      (((∃ message ∈ later.messages, message.id = id ∧ h < message.modseq) ∧
          h < later.highestModseq) ↔ h < modseqOf w.dir id) := by
  have hwaiting :=
    (waiting_of_added (sound_of_reach sound_empty hreach) hid henabled hunshown).of_reach hbefore
  obtain ⟨later, d', hrun, hopened, hhighest⟩ :=
    hwaiting.sound.openAt crypto mailbox retentionDays now clock
  have hmodseq : modseqOf d' id = modseqOf w.dir id := by
    rw [hopened.numbered.modseqOf, hwaiting.modseq_eq]
  refine ⟨later, d', hrun, ?_, fun habove ↦ ⟨?_, ?_⟩⟩
  · rintro ⟨⟨message, hmessage, rfl, habove⟩, -⟩
    rwa [← hmodseq, (hopened.current.agrees message hmessage).modseq]
  · have hmail : id ∈ d'.mails.keys := by
      rw [hopened.numbered.mails]
      exact AList.lookup_isSome.1 hwaiting.there
    obtain ⟨message, hmessage, rfl⟩ := List.mem_map.1 (hopened.current.mem_keys.2 hmail)
    refine ⟨message, hmessage, rfl, ?_⟩
    rwa [← (hopened.current.agrees message hmessage).modseq, hmodseq]
  · rw [hhighest]
    rw [← hmodseq] at habove
    exact habove.trans_le (hopened.sound.modseq_le id)

private def ask (command : Command) : Event := ⟨0, .disabled, command⟩

private def arriving (n : ℕ) : Event := ask (.deliver (.ofNat n) [] [1] ⟨1, 0⟩ [])

private def opening : Event := ask (.openMailbox "INBOX".toList 0 0 ⟨1, 0⟩)

/-- A second message arrives after a client was told 1. It is shown with mod-sequence 1, and 1 is
told again. -/
theorem arrival_not_above :
    (([arriving 1, opening, arriving 2, opening].foldl Resync.machine.step .start).opened.map
        fun snapshot ↦ (snapshot.highestModseq,
          snapshot.messages.map fun message ↦ (message.uid, message.modseq))) =
      [(1, [(1, 1), (2, 1)]), (1, [(1, 1)])] := by
  decide

/-- A message has its flags stored and is removed. Then a message with the same id arrives. -/
def returning : List Event :=
  [arriving 1, opening, ask (.storeFlags 1 [.seen]), ask (.removeAt 1)]

private theorem held_foldl {events : List Event}
    (hsession : ∀ e ∈ events, e.session = 0) {s : ℕ} (hs : s ≠ 0) :
    (events.foldl machine.step w).held s = w.held s := by
  induction events generalizing w with
  | nil => rfl
  | cons e events ih =>
    rw [List.foldl_cons, ih fun e' he' ↦ hsession e' (List.mem_cons_of_mem _ he')]
    refine Function.update_of_ne ?_ _ _
    rwa [hsession e List.mem_cons_self]

theorem arrival_above_returning :
    ∃ later d', (Snapshot.openAt .disabled "INBOX".toList 0 0 ⟨1, 0⟩).run Dir.exec
        (machine.step (returning.foldl machine.step .start) (arriving 1)).dir = (some later, d') ∧
      (∃ message ∈ later.messages, message.id = .ofNat 1 ∧ 1 < message.modseq) ∧
      1 < later.highestModseq := by
  have hreach : machine.Reach (fun _ _ ↦ True) .start (returning.foldl machine.step .start) :=
    .of_passes (by decide)
  have hunshown : ∀ s, Uuid.ofNat 1 ∉
      ((returning.foldl machine.step .start).held s).messages.map MessageRef.id := by
    intro s
    by_cases hs : s = 0
    · subst hs
      decide
    · rw [held_foldl (by decide) hs]
      exact List.not_mem_nil
  obtain ⟨later, d', hrun, hiff⟩ := arrival_above_iff hreach (e := arriving 1) rfl
    (by decide) hunshown .refl 1 .disabled "INBOX".toList 0 0 ⟨1, 0⟩
  exact ⟨later, d', hrun, hiff.2 (by decide)⟩

end Epistle.Imap.Arrivals
