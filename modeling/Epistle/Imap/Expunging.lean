import Epistle.Imap.Resync

/-!
# What an expunge removes

An expunge is to remove messages that are marked as deleted. Which messages those are it reads off
the snapshot that its session holds. Another session may have taken the mark off a message since:
the mark is then gone from the mailbox but not from the snapshot, and the expunge removes the
message.

Any number of sessions work on one mailbox, one command at a time, and every message that an expunge
takes away is written down with the flags and the UID it had at that moment. The removals are all
justified as long as no session expunges on the strength of a mark that has been taken off
(`removals_justified_iff`). CLOSE leaves the mailbox without expunging it.
-/

namespace Epistle.Imap

open TextFormat Interleaving
open Prog (run_bind)

/-! ## The handlers -/

/-- Several commands of one session, one after the other. -/
def Command.runAll (crypto : MessageCrypto) (commands : List Command) (snapshot : Snapshot)
    (d : Dir) :
    Snapshot × Dir :=
  commands.foldl (fun r c ↦ (c.body crypto r.1).run Dir.exec r.2) (snapshot, d)

namespace Session

variable {s : Session} {mailbox : Text} {snapshot : Snapshot} {a : Account} {d : Dir}

section

variable (hstate : s.state = .selected mailbox snapshot false)
  (hdir : a.dirAt snapshot.path = some d) (tag : Text)
include hstate hdir

theorem run_expungeWith (operation : Snapshot → FileM (List ℕ × Snapshot))
    (deletedUids : Snapshot → List UInt32) :
    ((s.expungeWith tag operation deletedUids).run Account.exec a).1.2.state =
        .selected mailbox ((operation snapshot).run Dir.exec d).1.2 false ∧
      ((s.expungeWith tag operation deletedUids).run Account.exec a).2.dirAt snapshot.path =
        some ((operation snapshot).run Dir.exec d).2 := by
  obtain ⟨hret, hafter, -⟩ := run_inMailbox (operation snapshot) hdir
  rw [expungeWith, hstate]
  dsimp only
  rw [if_neg Bool.false_ne_true, run_bind]
  refine ⟨?_, hafter⟩
  rw [← hret]
  rfl

theorem run_expunge (crypto : MessageCrypto) :
    ((s.expunge tag).run Account.exec a).1.2.state =
        .selected mailbox ((Imap.Command.expunge.body crypto snapshot).run Dir.exec d).1 false ∧
      ((s.expunge tag).run Account.exec a).2.dirAt snapshot.path =
        some ((Imap.Command.expunge.body crypto snapshot).run Dir.exec d).2 := by
  rw [Command.body, run_bind]
  exact run_expungeWith hstate hdir tag _ _

theorem run_uidExpunge (sequence : SequenceSet) (crypto : MessageCrypto) :
    let command := Imap.Command.expungeUids (uidsIn sequence (s.savedSeqnosFor true) snapshot)
    ((s.uidExpunge tag sequence).run Account.exec a).1.2.state =
        .selected mailbox ((command.body crypto snapshot).run Dir.exec d).1 false ∧
      ((s.uidExpunge tag sequence).run Account.exec a).2.dirAt snapshot.path =
        some ((command.body crypto snapshot).run Dir.exec d).2 := by
  dsimp only
  rw [Command.body, run_bind]
  exact run_expungeWith hstate hdir tag _ _

end

theorem run_close (tag : Text) (s : Session) (a : Account) :
    ((s.close tag).run Account.exec a).2 = a := by
  rw [close, leave]
  split <;> rfl

theorem exists_runAll_storeLoop (uidonly : Bool) (args : StoreArgs) (saved : List ℕ) (total : ℕ)
    (crypto : MessageCrypto) (ns : List ℕ) {path : Path} (hpath : snapshot.path = path)
    (hdir : a.dirAt path = some d) :
    ∃ commands, ((storeLoop uidonly args saved total ns snapshot).run Account.exec a).1.2 =
        (Command.runAll crypto commands snapshot d).1 ∧
      ((storeLoop uidonly args saved total ns snapshot).run Account.exec a).2.dirAt path =
        some (Command.runAll crypto commands snapshot d).2 := by
  induction ns generalizing snapshot a d with
  | nil => exact ⟨[], rfl, hdir⟩
  | cons n ns ih =>
    rw [storeLoop]
    split
    · exact ih hpath hdir
    next message hmessage =>
      split
      · exact ih hpath hdir
      · split
        · rw [run_bind]
          exact ih hpath hdir
        · set flags := args.mode.apply args.flags message.flags
          obtain ⟨stored, left, d₁, hrun, hstored⟩ := FlagUpdates.run_storeFlags hmessage flags d
          subst hpath
          obtain ⟨hret, hafter, -⟩ := run_inMailbox (snapshot.storeFlags n flags) hdir
          rw [hrun] at hret hafter
          have hpath : left.path = snapshot.path := by
            rw [Snapshot.path, hstored.mailbox, ← Snapshot.path]
          obtain ⟨commands, hleft, hdir'⟩ := ih hpath hafter
          rw [run_bind, hret]
          rw [run_bind]
          have hfirst : Command.runAll crypto (.storeFlags n flags :: commands) snapshot d =
              Command.runAll crypto commands left d₁ := by
            rw [Command.runAll, List.foldl_cons, Command.body, run_bind, hrun]
            rfl
          refine ⟨.storeFlags n flags :: commands, ?_, ?_⟩
          · rw [hfirst]
            exact hleft
          · rw [hfirst]
            exact hdir'

theorem exists_runAll_store (hstate : s.state = .selected mailbox snapshot false)
    (hdir : a.dirAt snapshot.path = some d) (tag : Text) (sequence : SequenceSet) (mode : StoreMode)
    (flagTokens : List Text) (silent uid : Bool) (unchangedSince : Option ℕ)
    (crypto : MessageCrypto) :
    ∃ commands,
      ((s.store tag sequence mode flagTokens silent uid unchangedSince).run Account.exec
          a).1.2.state = .selected mailbox (Command.runAll crypto commands snapshot d).1 false ∧
      ((s.store tag sequence mode flagTokens silent uid unchangedSince).run Account.exec
          a).2.dirAt snapshot.path = some (Command.runAll crypto commands snapshot d).2 := by
  rw [store, hstate]
  dsimp only
  rw [if_neg Bool.false_ne_true]
  split
  · exact ⟨[], hstate, hdir⟩
  next flags _ =>
    obtain ⟨commands, hleft, hafter⟩ := exists_runAll_storeLoop s.uidonly
      ⟨sequence, mode, flags, silent, uid, unchangedSince⟩ (s.savedSeqnosFor uid) snapshot.total
      crypto snapshot.sequenceNumbers rfl hdir
    refine ⟨commands, ?_, ?_⟩
    · rw [run_bind, ← hleft]
      split <;> rfl
    · rw [run_bind, ← hafter]
      split <;> rfl

end Session

/-! ## Runs -/

namespace Expunging

/-- What happens to the mailbox. A STORE is one command for each message it changes. -/
inductive Event
  | run (event : Resync.Event)
  | close (session : ℕ)

structure Removal where
  id : Uuid
  flags : List Flag
  /-- The UID it had in the mailbox. -/
  uid : Option UInt32
  /-- The UIDs that UID EXPUNGE was given. -/
  asked : Option (List UInt32)

def Removal.Justified (r : Removal) : Prop :=
  .deleted ∈ r.flags ∧ ∀ uids ∈ r.asked, ∃ uid ∈ uids, r.uid = some uid

/-- The messages that were in a directory and are not any more. -/
def gone (asked : Option (List UInt32)) (d d' : Dir) : List Removal :=
  (d.mails.keys.filter fun id ↦ (d'.mails.lookup id).isNone).map fun id ↦
    ⟨id, (d.files (.flags id)).getD [], d.files (.uid id), asked⟩

/-- A mailbox with its sessions, and what has been expunged from it. -/
structure World where
  mailbox : Resync.World
  removals : List Removal

def World.start : World := ⟨.start, []⟩

/-- Whether EXPUNGE, UID EXPUNGE or CLOSE is executed, and with which UIDs. -/
def Event.expunges : Event → Option (Option (List UInt32))
  | .run ⟨_, _, .expunge⟩ => some none
  | .run ⟨_, _, .expungeUids uids⟩ => some (some uids)
  | .run _ => none
  | .close _ => some none

/-- The mailbox after an event. After a CLOSE the session shows no mailbox. -/
def next (w : Resync.World) : Event → Resync.World
  | .run e => Resync.machine.step w e
  | .close s => { w with held := Function.update w.held s .empty }

def machine : Machine World Event where
  enabled := fun w e ↦ match e with
    | .run e => Resync.machine.enabled w.mailbox e
    | .close _ => True
  step := fun w e ↦
    let after := next w.mailbox e
    ⟨after, e.expunges.elim [] (fun asked ↦ gone asked w.mailbox.dir after.dir) ++ w.removals⟩

instance (w : World) (e : Event) : Decidable (machine.enabled w e) :=
  match e with
  | .run e => inferInstanceAs (Decidable (Resync.machine.enabled w.mailbox e))
  | .close _ => .isTrue trivial

def shownDeleted (w : Resync.World) : Event → List MessageRef
  | .run ⟨s, _, .expunge⟩ => expungeable (fun _ ↦ true) (w.held s).messages
  | .run ⟨s, _, .expungeUids uids⟩ => expungeable (fun uid ↦ uids.contains uid) (w.held s).messages
  | _ => []

/-- The messages that an expunge is asked for and that its session shows as deleted are marked as
deleted in the mailbox, as far as they are there. -/
def Marked (w : World) (e : Event) : Prop :=
  ∀ message ∈ shownDeleted w.mailbox e, (w.mailbox.dir.mails.lookup message.id).isSome →
    .deleted ∈ (w.mailbox.dir.files (.flags message.id)).getD []

instance (w : World) (e : Event) : Decidable (Marked w e) :=
  inferInstanceAs (Decidable (∀ message ∈ shownDeleted w.mailbox e, _ → _))

/-! ## What an expunge takes away -/

theorem lookup_expungeWhere (snapshot : Snapshot) (keep : UInt32 → Bool) (d : Dir) (id : Uuid) :
    ((snapshot.expungeWhere keep).run Dir.exec d).2.mails.lookup id =
      if id ∈ (expungeable keep snapshot.messages).map MessageRef.id then none
      else d.mails.lookup id := by
  rcases run_expungeWhere snapshot keep d with ⟨hsame, hempty⟩ | hexpunged
  · rw [hsame, hempty]
    rfl
  · exact hexpunged.lookup id

theorem lookup_next {w : Resync.World} {e : Event} (he : e.expunges.isSome) (id : Uuid) :
    (next w e).dir.mails.lookup id =
      if id ∈ (shownDeleted w e).map MessageRef.id then none else w.dir.mails.lookup id := by
  cases e with
  | close s => rfl
  | run e =>
    obtain ⟨s, crypto, c⟩ := e
    cases c with
    | expunge =>
      have hdir : (next w (.run ⟨s, crypto, .expunge⟩)).dir =
          ((w.held s).expunge.run Dir.exec w.dir).2 := by
        simp only [next, Resync.machine, Command.body, run_bind]
        rfl
      rw [hdir]
      exact lookup_expungeWhere _ _ _ id
    | expungeUids uids =>
      have hdir : (next w (.run ⟨s, crypto, .expungeUids uids⟩)).dir =
          (((w.held s).expungeUids uids).run Dir.exec w.dir).2 := by
        simp only [next, Resync.machine, Command.body, run_bind]
        rfl
      rw [hdir]
      exact lookup_expungeWhere _ _ _ id
    | _ => cases he

theorem mem_gone {asked : Option (List UInt32)} {d d' : Dir} {r : Removal} :
    r ∈ gone asked d d' ↔ (d.mails.lookup r.id).isSome ∧ d'.mails.lookup r.id = none ∧
      r.flags = (d.files (.flags r.id)).getD [] ∧ r.uid = d.files (.uid r.id) ∧
        r.asked = asked := by
  rw [gone, List.mem_map]
  constructor
  · rintro ⟨id, hid, rfl⟩
    obtain ⟨hkey, hnone⟩ := List.mem_filter.1 hid
    exact ⟨AList.lookup_isSome.2 hkey, Option.isNone_iff_eq_none.1 hnone, rfl, rfl, rfl⟩
  · rintro ⟨hsome, hnone, hflags, huid, hasked⟩
    refine ⟨r.id, List.mem_filter.2 ⟨AList.lookup_isSome.1 hsome, ?_⟩, ?_⟩
    · rw [hnone]
      rfl
    · rw [← hflags, ← huid, ← hasked]

/-- What an expunge takes away has a UID that it was asked for. -/
theorem uid_of_mem_shownDeleted {w : Resync.World} {e : Event} (h : Resync.Inv w)
    {message : MessageRef} (hmessage : message ∈ shownDeleted w e)
    (hthere : (w.dir.mails.lookup message.id).isSome) {uids : List UInt32}
    (hasked : e.expunges = some (some uids)) :
    ∃ uid ∈ uids, w.dir.files (.uid message.id) = some uid := by
  cases e with
  | close s => cases hasked
  | run e =>
    obtain ⟨s, crypto, c⟩ := e
    cases c with
    | expungeUids given =>
      obtain rfl : given = uids := by simpa [Event.expunges] using hasked
      obtain ⟨hshown, hkeep⟩ := List.mem_filter.1 hmessage
      rw [Bool.and_eq_true] at hkeep
      refine ⟨message.uid, by simpa using hkeep.2, ?_⟩
      exact h.known s message hshown _ (Dir.items_changeLog_eq_some.2 ⟨hthere, rfl⟩)
    | _ => cases hasked

section

variable {w : World} (h : Resync.Inv w.mailbox)
include h

/-- The removals of one event are justified if and only if the marks that it goes by are there. -/
theorem justified_gone_iff {e : Event} {asked : Option (List UInt32)}
    (hasked : e.expunges = some asked) :
    (∀ r ∈ gone asked w.mailbox.dir (next w.mailbox e).dir, r.Justified) ↔ Marked w e := by
  have hexpunges : e.expunges.isSome := by
    rw [hasked]
    rfl
  constructor
  · intro hall message hmessage hthere
    refine (hall ⟨message.id, (w.mailbox.dir.files (.flags message.id)).getD [],
      w.mailbox.dir.files (.uid message.id), asked⟩ (mem_gone.2 ⟨hthere, ?_, rfl, rfl, rfl⟩)).1
    rw [lookup_next hexpunges, if_pos (List.mem_map_of_mem hmessage)]
  · intro hmarked r hr
    obtain ⟨hthere, hnone, hflags, huid, hr⟩ := mem_gone.1 hr
    have hmem : r.id ∈ (shownDeleted w.mailbox e).map MessageRef.id := by
      by_contra hmem
      rw [lookup_next hexpunges, if_neg hmem] at hnone
      rw [hnone] at hthere
      cases hthere
    obtain ⟨message, hmessage, hid⟩ := List.mem_map.1 hmem
    rw [← hid] at hthere hflags huid
    refine ⟨hflags ▸ hmarked message hmessage hthere, fun uids huids ↦ ?_⟩
    rw [huid]
    refine uid_of_mem_shownDeleted h hmessage hthere ?_
    rw [hasked, ← hr, Option.mem_def.1 huids]

/-! ## Whole runs -/

theorem inv_next {e : Event} (henabled : machine.enabled w e) : Resync.Inv (next w.mailbox e) := by
  cases e with
  | run e => exact h.step henabled
  | close s =>
    refine ⟨h.sound, h.covers, fun t p hp ↦ ?_, h.shown_used, h.mails_used⟩
    by_cases ht : t = s
    · subst ht
      simp [next, Snapshot.empty, Snapshot.pairs] at hp
    · simp only [next, Function.update_of_ne ht] at hp
      exact h.held t p hp

theorem justified_step_iff (e : Event) (hbefore : ∀ r ∈ w.removals, r.Justified) :
    (∀ r ∈ (machine.step w e).removals, r.Justified) ↔ Marked w e := by
  cases hasked : e.expunges with
  | none =>
    have hremovals : (machine.step w e).removals = w.removals := by simp [machine, hasked]
    have hmarked : Marked w e := by
      intro message hmessage
      cases e with
      | close s => cases hmessage
      | run e =>
        obtain ⟨s, crypto, c⟩ := e
        cases c <;> cases hasked <;> cases hmessage
    rw [hremovals]
    exact iff_of_true hbefore hmarked
  | some asked =>
    have hremovals : (machine.step w e).removals =
        gone asked w.mailbox.dir (next w.mailbox e).dir ++ w.removals := by simp [machine, hasked]
    rw [hremovals, List.forall_mem_append, justified_gone_iff h hasked]
    exact and_iff_left hbefore

end

/-- **Expunges remove deleted messages, unless a session goes by a mark that is gone.** In every run
in which the messages that an expunge goes by are still marked as deleted, whatever EXPUNGE, UID
EXPUNGE and CLOSE took away was marked as deleted then and had a UID that was asked for. The next
event keeps it so if and only if the same is true of it. -/
theorem removals_justified_iff {w : World} (hreach : machine.Reach Marked .start w) :
    (∀ r ∈ w.removals, r.Justified) ∧ ∀ e, machine.enabled w e →
      ((∀ r ∈ (machine.step w e).removals, r.Justified) ↔ Marked w e) := by
  have hinv : Resync.Inv w.mailbox ∧ ∀ r ∈ w.removals, r.Justified := by
    refine hreach.invariant (I := fun w ↦ Resync.Inv w.mailbox ∧ ∀ r ∈ w.removals, r.Justified)
      ⟨Resync.inv_start, by simp [World.start]⟩ ?_
    rintro w e ⟨h, hbefore⟩ henabled hmarked
    exact ⟨inv_next h henabled, (justified_step_iff h e hbefore).2 hmarked⟩
  exact ⟨hinv.2, fun e _ ↦ justified_step_iff hinv.1 e hinv.2⟩

/-- Two messages arrive and two sessions open the mailbox. The first one marks both messages. -/
def marking : List Event :=
  let ask := fun session command ↦ Event.run ⟨session, .disabled, command⟩
  [ask 0 (.deliver (.ofNat 1) [] [1] ⟨1, 0⟩ []), ask 0 (.deliver (.ofNat 2) [] [2] ⟨1, 0⟩ []),
    ask 0 (.openMailbox "INBOX".toList 0 0 ⟨1, 0⟩), ask 0 (.storeFlags 1 [.deleted]),
    ask 0 (.storeFlags 2 [.deleted]), ask 1 (.openMailbox "INBOX".toList 0 0 ⟨1, 0⟩)]

/-- The first session takes the mark off the first message. The second session expunges the second
message, and closes the mailbox. -/
def expunging : List Event :=
  marking ++ [.run ⟨0, .disabled, .storeFlags 1 []⟩,
    .run ⟨1, .disabled, .expungeUids [2]⟩, .close 1]

theorem removals_justified_expunging :
    (expunging.foldl machine.step .start).removals.map Removal.id = [.ofNat 2] ∧
      ∀ r ∈ (expunging.foldl machine.step .start).removals, r.Justified :=
  ⟨by decide +kernel,
    (removals_justified_iff (.of_passes (by decide +kernel))).1⟩

/-- The same two sessions, but the second one expunges all that it takes for deleted. -/
def expungingAll : List Event :=
  marking ++ [.run ⟨0, .disabled, .storeFlags 1 []⟩, .run ⟨1, .disabled, .expunge⟩]

/-- The message that the first session has taken the mark off is removed. -/
theorem unmarked_removed :
    ∃ r ∈ (expungingAll.foldl machine.step .start).removals,
      r.id = .ofNat 1 ∧ Flag.deleted ∉ r.flags := by
  decide +kernel

end Expunging

end Epistle.Imap
