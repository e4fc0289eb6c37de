import Epistle.Imap.Session
import Epistle.Imap.Sessions
import Epistle.Interleaving.Machine

/-!
# Flag changes by two sessions

Two sessions have the same mailbox selected and change flags in it, one STORE at a time. What a
STORE is meant to do is simple: replace, extend or reduce the set of flags of each message it names,
except of those that have changed since a given mod-sequence. The handler computes the new set from
the flags, and tests the mod-sequence, that the session's own snapshot shows. The other session may
have changed both on disk.

`Harmless` says when this makes no difference to a message. As long as every message a STORE names
is in that case, the flags on disk are those that the operations would have produced one after the
other (`flags_eq_expected_of_current`).
-/

namespace Epistle.Imap

open TextFormat Interleaving

/-! ## Sets of flags -/

def StoreMode.onSet : StoreMode → Finset Flag → Finset Flag → Finset Flag
  | .set, flags, _ => flags
  | .add, flags, current => current ∪ flags
  | .remove, flags, current => current \ flags

theorem mem_dedup {flag : Flag} (flags : List Flag) : flag ∈ dedup flags ↔ flag ∈ flags := by
  induction flags using dedup.induct with
  | case1 first rest ih =>
    rw [dedup, if_pos rfl, ih, List.mem_cons, List.mem_cons, List.mem_cons]
    tauto
  | case2 first next rest hne ih =>
    rw [dedup, if_neg hne, List.mem_cons, ih]
    exact List.mem_cons.symm
  | case3 flags hflags =>
    rw [dedup]
    exact hflags

private theorem mem_foldl_add {flag : Flag} (flags current : List Flag) :
    flag ∈ flags.foldl (fun existing flag ↦
      if existing.contains flag then existing else existing ++ [flag]) current ↔
    flag ∈ current ∨ flag ∈ flags := by
  induction flags generalizing current with
  | nil => simp
  | cons first rest ih =>
    rw [List.foldl_cons, ih, List.mem_cons]
    split
    next hmem =>
      have hmem' : first ∈ current := by simpa using hmem
      constructor
      · tauto
      · rintro (h | rfl | h)
        · exact .inl h
        · exact .inl hmem'
        · exact .inr h
    next => rw [List.mem_append, List.mem_singleton, or_assoc]

/-- The handler's new flag list denotes the set it is meant to. -/
theorem toFinset_apply (mode : StoreMode) (flags current : List Flag) :
    (mode.apply flags current).toFinset = mode.onSet flags.toFinset current.toFinset := by
  ext flag
  unfold StoreMode.apply
  rw [List.mem_toFinset, mem_dedup]
  cases mode with
  | set => rw [StoreMode.onSet, List.mem_toFinset]
  | add =>
    rw [mem_foldl_add, StoreMode.onSet, Finset.mem_union, List.mem_toFinset, List.mem_toFinset]
  | remove => simp [StoreMode.onSet]

theorem flagsEqual_iff {current next : List Flag} :
    Flags.flagsEqual current next = true ↔ current.toFinset = next.toFinset := by
  rw [Flags.flagsEqual, Bool.and_eq_true, List.all_eq_true, List.all_eq_true, Finset.ext_iff]
  simp only [List.contains_iff_mem, List.mem_toFinset]
  constructor
  · rintro ⟨h, h'⟩ flag
    exact ⟨h flag, h' flag⟩
  · intro h
    exact ⟨fun flag ↦ (h flag).1, fun flag ↦ (h flag).2⟩

namespace FlagUpdates

/-- A STORE cannot tell the flags that the session shows for a message from those on disk. If it
would not change the former, it would not change the latter; else, both have the same flags beside
the ones that the STORE names, where these matter. -/
def Harmless (mode : StoreMode) (flags shown stored : Finset Flag) : Prop :=
  match mode with
  | .set => shown = flags → stored = flags
  | .add => if flags ⊆ shown then flags ⊆ stored else stored \ flags = shown \ flags
  | .remove => if Disjoint shown flags then Disjoint stored flags
      else stored \ flags = shown \ flags

instance (mode : StoreMode) (flags shown stored : Finset Flag) :
    Decidable (Harmless mode flags shown stored) :=
  match mode with
  | .set | .add | .remove => by dsimp only [Harmless]; infer_instance

/-- The flags on disk after a harmless STORE: it writes the set computed from the shown flags,
unless that is the shown set. -/
theorem onSet_of_harmless {mode : StoreMode} {flags shown stored : Finset Flag}
    (h : Harmless mode flags shown stored) :
    (if shown = mode.onSet flags shown then stored else mode.onSet flags shown) =
      mode.onSet flags stored := by
  cases mode with
  | set =>
    split
    next heq => exact h heq
    next => rfl
  | add =>
    rw [StoreMode.onSet, StoreMode.onSet]
    rw [Harmless] at h
    by_cases hsub : flags ⊆ shown
    · rw [if_pos hsub] at h
      rw [if_pos (Finset.union_eq_left.2 hsub).symm, Finset.union_eq_left.2 h]
    · rw [if_neg hsub] at h
      rw [if_neg fun heq ↦ hsub (Finset.union_eq_left.1 heq.symm),
        ← Finset.sdiff_union_self_eq_union, ← h, Finset.sdiff_union_self_eq_union]
  | remove =>
    rw [StoreMode.onSet, StoreMode.onSet]
    rw [Harmless] at h
    by_cases hdisjoint : Disjoint shown flags
    · rw [if_pos hdisjoint] at h
      rw [if_pos (Finset.sdiff_eq_self_of_disjoint hdisjoint).symm,
        Finset.sdiff_eq_self_of_disjoint h]
    · rw [if_neg hdisjoint] at h
      rw [if_neg fun heq ↦ hdisjoint (Finset.sdiff_eq_self_iff_disjoint.1 heq.symm), h]

/-! ## One message -/

def flagSet (d : Dir) (id : Uuid) : Finset Flag := ((d.files (.flags id)).getD []).toFinset

def modseqOf (d : Dir) (id : Uuid) : ℕ := (d.files (.modseq id)).getD 1

/-- Nothing about a message has changed on disk. -/
def Untouched (d d' : Dir) (id : Uuid) : Prop :=
  d'.files (.flags id) = d.files (.flags id) ∧ d'.files (.modseq id) = d.files (.modseq id)

theorem Untouched.refl (d : Dir) (id : Uuid) : Untouched d d id := ⟨rfl, rfl⟩

variable {d d' : Dir} {id : Uuid} {n : ℕ} {args : StoreArgs} {numbers : List ℕ} {p : ℕ × MessageRef}
  {messages : List (ℕ × MessageRef)} {r : Snapshot × StoreArgs} {s : Session} {path : Path}

theorem Untouched.trans {d'' : Dir} (h : Untouched d d' id)
    (h' : Untouched d' d'' id) : Untouched d d'' id :=
  ⟨h'.1.trans h.1, h'.2.trans h.2⟩

theorem Untouched.flagSet (h : Untouched d d' id) :
    flagSet d' id = flagSet d id := by
  rw [FlagUpdates.flagSet, h.1, FlagUpdates.flagSet]

/-- The directory after the flags of a message have been replaced. -/
def written (d : Dir) (id : Uuid) (flags : List Flag) (modseq : ℕ) : Dir :=
  let d := (d.setTemp (.flags id) none).setFile (.flags id) (some flags)
  let d := (d.setTemp .modseqctr none).setFile .modseqctr (some modseq)
  (d.setTemp (.modseq id) none).setFile (.modseq id) (some modseq)

theorem flagSet_written (d : Dir) (id : Uuid) (flags : List Flag) (modseq : ℕ) :
    flagSet (written d id flags modseq) id = flags.toFinset := by
  simp [flagSet, written]

theorem untouched_written (d : Dir) {other : Uuid} (h : other ≠ id) (flags : List Flag)
    (modseq : ℕ) : Untouched d (written d id flags modseq) other := by
  constructor <;> simp [written, h]

theorem run_nextCounter (d : Dir) :
    Modseq.nextCounter.run Dir.exec d =
      (some ((d.files .modseqctr).getD 1 + 1),
        (d.setTemp .modseqctr none).setFile .modseqctr
          (some ((d.files .modseqctr).getD 1 + 1))) := by
  rw [Modseq.nextCounter, Prog.run_bind, Modseq.readCounter, Prog.op_bind, Prog.run_call]
  simp [Dir.exec]

theorem bySequence_eq_some {snapshot : Snapshot} {message : MessageRef}
    (h : snapshot.bySequence n = some message) :
    0 < n ∧ n - 1 < snapshot.messages.length ∧ snapshot.messages[n - 1]? = some message := by
  rw [Snapshot.bySequence] at h
  split at h
  next hn => exact ⟨hn, (List.getElem?_eq_some_iff.1 h).1, h⟩
  next => cases h

/-- What storing flags for one message does: it writes them unless the snapshot shows the same
set. -/
structure Stored (snapshot : Snapshot) (n : ℕ) (message : MessageRef) (flags : List Flag) (d : Dir)
    (left : Snapshot) (d' : Dir) : Prop where
  flagSet : flagSet d' message.id =
    if message.flags.toFinset = flags.toFinset then FlagUpdates.flagSet d message.id
    else flags.toFinset
  others : ∀ id ≠ message.id, Untouched d d' id
  kept : ∀ m ≠ n, left.bySequence m = snapshot.bySequence m
  mailbox : left.mailbox = snapshot.mailbox
  ids : left.ids = snapshot.ids

theorem run_storeFlags {snapshot : Snapshot} {message : MessageRef}
    (h : snapshot.bySequence n = some message) (flags : List Flag) (d : Dir) :
    ∃ stored left d', (snapshot.storeFlags n flags).run Dir.exec d = ((some stored, left), d') ∧
      Stored snapshot n message flags d left d' := by
  obtain ⟨hpos, hlt, hget⟩ := bySequence_eq_some h
  have hids := (returns_storeFlags_ids snapshot n flags).run Dir.exec d
  revert hids
  rw [Snapshot.storeFlags, Snapshot.indexOf, if_pos ⟨hpos, hlt⟩]
  simp only [hget]
  by_cases heq : message.flags.toFinset = flags.toFinset
  · rw [if_pos (flagsEqual_iff.2 heq)]
    intro hids
    refine ⟨_, _, _, rfl, ?_, fun id _ ↦ .refl d id, fun _ _ ↦ rfl, rfl, hids⟩
    rw [if_pos heq]
  · rw [if_neg fun hequal ↦ heq (flagsEqual_iff.1 hequal), Prog.run_bind, Flags.writeFlags,
      run_replaceFile]
    simp only [if_true]
    rw [Prog.run_bind, run_nextCounter]
    rw [Prog.run_bind, Modseq.writeMessage, run_replaceFile]
    intro hids
    refine ⟨_, _, written d message.id flags _, rfl, ?_, fun id hid ↦ untouched_written d hid _ _,
      fun m hm ↦ ?_, rfl, hids⟩
    · rw [if_neg heq, flagSet_written]
    · -- the snapshot is changed at position `n - 1` only
      rw [Snapshot.bySequence, Snapshot.bySequence]
      split
      · rw [List.getElem?_set, if_neg (by omega)]
      · rfl

/-! ## One STORE -/

open Session (StoreArgs)

/-- The messages that a STORE names, among those with the given sequence numbers. -/
def named (args : StoreArgs) (saved : List ℕ) (total : ℕ) (snapshot : Snapshot) (numbers : List ℕ) :
    List (ℕ × MessageRef) :=
  numbers.filterMap fun n ↦ (snapshot.bySequence n).bind fun message ↦
    if args.sequence.contains (selector args.uid n message) total saved then some (n, message)
    else none

/-- By what the snapshot shows, the message has changed since the given mod-sequence. -/
def tooNew (args : StoreArgs) (message : MessageRef) : Bool :=
  args.unchangedSince.any (message.modseq > ·)

theorem mem_named {saved : List ℕ} {total : ℕ} {snapshot : Snapshot}
    (h : p ∈ named args saved total snapshot numbers) :
    p.1 ∈ numbers ∧ snapshot.bySequence p.1 = some p.2 := by
  obtain ⟨n, hn, hp⟩ := List.mem_filterMap.1 h
  obtain ⟨message, hmessage, hp⟩ := Option.bind_eq_some_iff.1 hp
  split at hp
  · obtain rfl := Option.some.inj hp
    exact ⟨hn, hmessage⟩
  · cases hp

theorem named_congr {saved : List ℕ} {total : ℕ} {snapshot left : Snapshot}
    (h : ∀ n ∈ numbers, left.bySequence n = snapshot.bySequence n) :
    named args saved total left numbers = named args saved total snapshot numbers := by
  refine List.filterMap_congr fun n hn ↦ ?_
  rw [h n hn]

theorem id_ne_of_ne {snapshot : Snapshot} (hids : snapshot.ids.Nodup) {m : ℕ}
    {message other : MessageRef} (hn : snapshot.bySequence n = some message)
    (hm : snapshot.bySequence m = some other) (hne : m ≠ n) : other.id ≠ message.id := by
  obtain ⟨hnpos, hnlt, hnget⟩ := bySequence_eq_some hn
  obtain ⟨hmpos, hmlt, hmget⟩ := bySequence_eq_some hm
  intro heq
  have hget : snapshot.ids[m - 1]? = snapshot.ids[n - 1]? := by
    rw [Snapshot.ids, List.getElem?_map, List.getElem?_map, hnget, hmget, Option.map_some,
      Option.map_some, heq]
  have hlen : m - 1 < snapshot.ids.length := by
    rw [Snapshot.ids, List.length_map]
    exact hmlt
  have hpos := (List.getElem?_inj hlen hids).1 hget
  omega

/-- What a STORE does to the directory: a message that it names and finds unchanged gets the flags
computed from those the snapshot shows, and nothing happens to any other message. -/
structure Applied (args : StoreArgs) (messages : List (ℕ × MessageRef)) (d d' : Dir) : Prop where
  flagSet : ∀ p ∈ messages, tooNew args p.2 = false → flagSet d' p.2.id =
    if p.2.flags.toFinset = args.mode.onSet args.flags.toFinset p.2.flags.toFinset
    then FlagUpdates.flagSet d p.2.id
    else args.mode.onSet args.flags.toFinset p.2.flags.toFinset
  untouched : ∀ id, (∀ p ∈ messages, tooNew args p.2 = false → p.2.id ≠ id) → Untouched d d' id

theorem Applied.cons_tooNew (hp : tooNew args p.2 = true)
    (h : Applied args messages d d') : Applied args (p :: messages) d d' where
  flagSet := by
    intro q hq hnew
    rcases List.mem_cons.1 hq with rfl | hq
    · rw [hp] at hnew
      cases hnew
    · exact h.flagSet q hq hnew
  untouched := fun id hid ↦ h.untouched id fun q hq ↦ hid q (List.mem_cons_of_mem p hq)

/-- Storing the flags of the first message, then the others, which are different messages. -/
theorem Applied.cons {snapshot left : Snapshot} {d₁ : Dir} (hnew : tooNew args p.2 = false)
    (hstored : Stored snapshot p.1 p.2 (args.mode.apply args.flags p.2.flags) d left d₁)
    (h : Applied args messages d₁ d') (hne : ∀ q ∈ messages, q.2.id ≠ p.2.id) :
    Applied args (p :: messages) d d' where
  flagSet := by
    intro q hq hq'
    rcases List.mem_cons.1 hq with rfl | hq
    · have huntouched := h.untouched q.2.id fun r hr _ ↦ hne r hr
      rw [huntouched.flagSet, hstored.flagSet, toFinset_apply]
    · rw [h.flagSet q hq hq', (hstored.others q.2.id (hne q hq)).flagSet]
  untouched := by
    intro id hid
    refine (hstored.others id ?_).trans (h.untouched id fun q hq ↦
      hid q (List.mem_cons_of_mem p hq))
    exact (hid p List.mem_cons_self hnew).symm

def modified (args : StoreArgs) (messages : List (ℕ × MessageRef)) : List UInt32 :=
  (messages.filter fun p ↦ tooNew args p.2).map fun p ↦ p.2.uid

theorem modified_cons (args : StoreArgs) (p : ℕ × MessageRef) (messages : List (ℕ × MessageRef)) :
    modified args (p :: messages) =
      if tooNew args p.2 = true then p.2.uid :: modified args messages
      else modified args messages := by
  rw [modified, List.filter_cons]
  split <;> rfl

/-- A STORE in a mailbox that is there succeeds, reports as modified what its snapshot shows to be
too new, and changes the rest. -/
theorem run_storeLoop (uidonly : Bool) (args : StoreArgs) (saved : List ℕ) (total : ℕ)
    (hnumbers : numbers.Nodup) {snapshot : Snapshot} (hids : snapshot.ids.Nodup)
    {a : Account} (hd : a.dirAt snapshot.path = some d) :
    ∃ responses left a' d', (Session.storeLoop uidonly args saved total numbers snapshot).run
        Account.exec a =
          ((some (responses, modified args (named args saved total snapshot numbers)), left), a') ∧
      a'.dirAt snapshot.path = some d' ∧
      Applied args (named args saved total snapshot numbers) d d' ∧
      left.mailbox = snapshot.mailbox ∧ left.ids = snapshot.ids := by
  induction numbers generalizing snapshot a d with
  | nil =>
    refine ⟨_, _, _, d, rfl, hd, ⟨fun p hp ↦ absurd hp List.not_mem_nil, fun id _ ↦ .refl d id⟩,
      rfl, rfl⟩
  | cons n rest ih =>
    obtain ⟨hn, hrest⟩ := List.nodup_cons.1 hnumbers
    rw [Session.storeLoop]
    cases hmessage : snapshot.bySequence n with
    | none =>
      have hnamed : named args saved total snapshot (n :: rest) =
          named args saved total snapshot rest := by
        rw [named, List.filterMap_cons, hmessage]
        rfl
      rw [hnamed]
      exact ih hrest hids hd
    | some message =>
      dsimp only
      by_cases hset : args.sequence.contains (selector args.uid n message) total saved = true
      · have hnamed : named args saved total snapshot (n :: rest) =
            (n, message) :: named args saved total snapshot rest := by
          rw [named, List.filterMap_cons, hmessage, Option.bind_some, if_pos hset]
          rfl
        have htest : args.unchangedSince.any (fun since ↦ decide (message.modseq > since)) =
            tooNew args message := rfl
        rw [hnamed, hset, Bool.not_true, if_neg Bool.false_ne_true, htest]
        by_cases hnew : tooNew args message = true
        · -- the message is reported, and nothing is written
          obtain ⟨responses, left, a', d', hrun, hd', happlied, hmailbox, hleft⟩ := ih hrest hids hd
          rw [if_pos hnew, Prog.run_bind, hrun, modified_cons, if_pos hnew]
          exact ⟨_, _, _, d', rfl, hd', happlied.cons_tooNew hnew, hmailbox, hleft⟩
        · have hold : tooNew args message = false := by simpa using hnew
          obtain ⟨stored, left₁, d₁, hstore, hstored⟩ := run_storeFlags hmessage
            (args.mode.apply args.flags message.flags) d
          obtain ⟨hret, hdir, -⟩ := run_inMailbox
            (snapshot.storeFlags n (args.mode.apply args.flags message.flags)) hd
          rw [hstore] at hret hdir
          have hpath : left₁.path = snapshot.path := by
            rw [Snapshot.path, Snapshot.path, hstored.mailbox]
          have hids₁ : left₁.ids.Nodup := by
            rw [hstored.ids]
            exact hids
          obtain ⟨responses, left, a', d', hrun, hd', happlied, hmailbox, hleft⟩ :=
            ih hrest hids₁ (by rw [hpath]; exact hdir)
          have hkept : named args saved total left₁ rest = named args saved total snapshot rest :=
            named_congr fun m hm ↦ hstored.kept m fun heq ↦ hn (heq ▸ hm)
          rw [hkept] at hrun happlied
          rw [if_neg hnew, Prog.run_bind, hret, modified_cons, if_neg hnew]
          rw [Prog.run_bind, hrun]
          refine ⟨_, _, _, d', rfl, hpath ▸ hd', happlied.cons hold hstored fun q hq ↦ ?_,
            hmailbox.trans hstored.mailbox, hleft.trans hstored.ids⟩
          obtain ⟨hmem, hq'⟩ := mem_named hq
          exact id_ne_of_ne hids hmessage hq' fun heq ↦ hn (heq ▸ hmem)
      · have hnamed : named args saved total snapshot (n :: rest) =
            named args saved total snapshot rest := by
          rw [named, List.filterMap_cons, hmessage, Option.bind_some, if_neg hset]
          rfl
        have hset' : args.sequence.contains (selector args.uid n message) total saved = false := by
          simpa using hset
        rw [hnamed, hset', Bool.not_false, if_pos rfl]
        exact ih hrest hids hd

/-! ## Two sessions -/

/-- Two sessions, their account, and the flags that each message should have. -/
structure World where
  account : Account
  sessions : Bool → Session
  expected : Uuid → Finset Flag

structure Event where
  who : Bool
  env : Env
  tag : Text
  sequence : SequenceSet
  mode : StoreMode
  flags : List Text
  (silent uid : Bool)
  unchangedSince : Option ℕ

def Event.command (e : Event) : Session.Command :=
  .store e.sequence e.mode e.flags e.silent e.uid e.unchangedSince

/-- The snapshot and the arguments a STORE works with, unless it is refused as a whole. -/
def accepted (s : Session) (e : Event) : Option (Snapshot × StoreArgs) :=
  if (s.refusal e.command).isSome then none
  else match s.state with
    | .selected _ snapshot false => (e.flags.mapM Flag.parse).map fun flags ↦
        (snapshot, ⟨e.sequence, e.mode, flags, e.silent, e.uid, e.unchangedSince⟩)
    | _ => none

def namedBy (s : Session) (r : Snapshot × StoreArgs) : List (ℕ × MessageRef) :=
  named r.2 (s.savedSeqnosFor r.2.uid) r.1.total r.1 r.1.sequenceNumbers

/-- What the server makes of an event. -/
def reply (w : World) (e : Event) : (Output × Session) × Account :=
  ((w.sessions e.who).apply e.env e.tag e.command).run Account.exec w.account

/-- The flags that messages should have after a STORE: it is reported as successful for the messages
it names, except for those it reports as modified. -/
def expectedAfter (w : World) (e : Event) (id : Uuid) : Finset Flag :=
  match accepted (w.sessions e.who) e with
  | none => w.expected id
  | some r =>
    if (namedBy (w.sessions e.who) r).any fun p ↦ !tooNew r.2 p.2 && p.2.id == id then
      r.2.mode.onSet r.2.flags.toFinset (w.expected id)
    else w.expected id

def machine : Machine World Event where
  enabled := fun _ _ ↦ True
  step := fun w e ↦
    ⟨(reply w e).2, Function.update w.sessions e.who (reply w e).1.2, expectedAfter w e⟩

/-- The condition on a STORE and a message that it names: the session shows a message that has
changed since the given mod-sequence as changed; and the flags it shows are as good as those on
disk. -/
@[mk_iff]
structure CurrentFor (args : StoreArgs) (d : Dir) (message : MessageRef) : Prop where
  modseq : ∀ since ∈ args.unchangedSince, since < modseqOf d message.id → since < message.modseq
  flags : tooNew args message = false → Harmless args.mode args.flags.toFinset
    message.flags.toFinset (flagSet d message.id)

instance (args : StoreArgs) (d : Dir) (message : MessageRef) :
    Decidable (CurrentFor args d message) :=
  decidable_of_iff' _ (currentFor_iff args d message)

def Current (w : World) (e : Event) : Prop :=
  ∀ r ∈ accepted (w.sessions e.who) e, ∀ d ∈ w.account.dirAt r.1.path,
    ∀ p ∈ namedBy (w.sessions e.who) r, CurrentFor r.2 d p.2

instance (w : World) (e : Event) : Decidable (machine.enabled w e) := isTrue trivial

instance (w : World) (e : Event) : Decidable (Current w e) :=
  by delta Current; infer_instance

def Selected (path : Path) (s : Session) : Prop :=
  ∃ mailbox snapshot readOnly, s.state = .selected mailbox snapshot readOnly ∧
    snapshot.path = path ∧ snapshot.ids.Nodup

/-- Both sessions have the mailbox selected, and its messages have the flags they should. -/
structure Ready (path : Path) (w : World) : Prop where
  selected : ∀ who, Selected path (w.sessions who)
  flags : ∃ d, w.account.dirAt path = some d ∧ ∀ id, flagSet d id = w.expected id

/-! ## What one STORE preserves -/

variable {e : Event} {w : World}

theorem accepted_eq_some (h : accepted s e = some r) :
    s.refusal e.command = none ∧ (∃ mailbox, s.state = .selected mailbox r.1 false) ∧
      ∃ flags, e.flags.mapM Flag.parse = some flags ∧
        r.2 = ⟨e.sequence, e.mode, flags, e.silent, e.uid, e.unchangedSince⟩ := by
  rw [accepted] at h
  split at h
  · cases h
  next hrefusal =>
    split at h
    next mailbox snapshot hstate =>
      obtain ⟨flags, hflags, rfl⟩ := Option.map_eq_some_iff.1 h
      exact ⟨Option.not_isSome_iff_eq_none.1 hrefusal, ⟨mailbox, hstate⟩, flags, hflags, rfl⟩
    next => cases h

theorem reply_of_refused (h : accepted (w.sessions e.who) e = none) :
    (reply w e).1.2 = w.sessions e.who ∧ (reply w e).2 = w.account := by
  rw [reply, Session.apply]
  cases hrefusal : (w.sessions e.who).refusal e.command with
  | some refusal => exact ⟨rfl, rfl⟩
  | none =>
    dsimp only [Event.command, Session.handle]
    rw [accepted, hrefusal, if_neg (by simp)] at h
    unfold Session.store
    split
    next mailbox snapshot readOnly hstate =>
      cases readOnly with
      | true => exact ⟨rfl, rfl⟩
      | false =>
        rw [hstate] at h
        rw [Option.map_eq_none_iff.1 h]
        exact ⟨rfl, rfl⟩
    next => exact ⟨rfl, rfl⟩

theorem nodup_sequenceNumbers (snapshot : Snapshot) : snapshot.sequenceNumbers.Nodup :=
  List.nodup_range.map fun _ _ h ↦ Nat.succ.inj h

theorem Selected.snapshot (hs : Selected path s)
    (h : accepted s e = some r) : r.1.path = path ∧ r.1.ids.Nodup := by
  obtain ⟨mailbox, snapshot, readOnly, hstate, hpath, hids⟩ := hs
  obtain ⟨-, ⟨mailbox', hstate'⟩, -⟩ := accepted_eq_some h
  rw [hstate] at hstate'
  obtain ⟨-, rfl, -⟩ := State.selected.inj hstate'
  exact ⟨hpath, hids⟩

theorem reply_of_accepted
    (hs : Selected path (w.sessions e.who)) (h : accepted (w.sessions e.who) e = some r)
    (hd : w.account.dirAt path = some d) :
    (∃ responses, (reply w e).1.1.responses = responses ++
        [Session.storeCompleted e.tag (modified r.2 (namedBy (w.sessions e.who) r))]) ∧
      Selected path (reply w e).1.2 ∧
      ∃ d', (reply w e).2.dirAt path = some d' ∧
        Applied r.2 (namedBy (w.sessions e.who) r) d d' := by
  obtain ⟨rfl, hids⟩ := hs.snapshot h
  obtain ⟨hrefusal, ⟨mailbox, hstate⟩, flags, hflags, hargs⟩ := accepted_eq_some h
  obtain ⟨responses, left, a', d', hrun, hd', happlied, hmailbox, hleft⟩ :=
    run_storeLoop (w.sessions e.who).uidonly r.2 ((w.sessions e.who).savedSeqnosFor r.2.uid)
      r.1.total (nodup_sequenceNumbers r.1) hids hd
  have hreply : reply w e = ((.text (responses ++
      [Session.storeCompleted e.tag (modified r.2 (namedBy (w.sessions e.who) r))]),
      { w.sessions e.who with state := .selected mailbox left false }), a') := by
    rw [reply, Session.apply, hrefusal]
    dsimp only [Event.command, Session.handle]
    rw [hargs] at hrun
    rw [Session.store, hstate]
    simp only [hflags, Bool.false_eq_true, if_false, Prog.run_bind, hrun]
    rw [namedBy, hargs]
    rfl
  rw [hreply]
  refine ⟨⟨responses, rfl⟩, ⟨mailbox, left, false, rfl, ?_, ?_⟩, d', hd', happlied⟩
  · rw [Snapshot.path, Snapshot.path, hmailbox]
  · rw [hleft]
    exact hids

/-- A message that has changed on disk is left alone, and reported. -/
theorem untouched_of_current
    (happlied : Applied args messages d d') (hcurrent : ∀ p ∈ messages, CurrentFor args d p.2)
    (hp : p ∈ messages) {since : ℕ} (hsince : since ∈ args.unchangedSince)
    (hnew : since < modseqOf d p.2.id) :
    Untouched d d' p.2.id ∧ p.2.uid ∈ modified args messages := by
  -- every message with this id is shown as changed
  have htooNew : ∀ q ∈ messages, q.2.id = p.2.id → tooNew args q.2 = true := by
    intro q hq heq
    rw [tooNew, hsince, Option.any_some, decide_eq_true_iff]
    exact (hcurrent q hq).modseq since hsince (by rw [heq]; exact hnew)
  constructor
  · refine happlied.untouched p.2.id fun q hq hold heq ↦ ?_
    rw [htooNew q hq heq] at hold
    cases hold
  · exact List.mem_map.2 ⟨p, List.mem_filter.2 ⟨hp, htooNew p hp rfl⟩, rfl⟩

theorem flagSet_of_current (h : accepted (w.sessions e.who) e = some r)
    (happlied : Applied r.2 (namedBy (w.sessions e.who) r) d d')
    (hcurrent : ∀ p ∈ namedBy (w.sessions e.who) r, CurrentFor r.2 d p.2)
    (hid : flagSet d id = w.expected id) : flagSet d' id = expectedAfter w e id := by
  rw [expectedAfter, h]
  dsimp only
  split
  next hany =>
    obtain ⟨p, hp, hcond⟩ := List.any_eq_true.1 hany
    rw [Bool.and_eq_true, Bool.not_eq_true', beq_iff_eq] at hcond
    obtain ⟨hold, rfl⟩ := hcond
    rw [happlied.flagSet p hp hold, onSet_of_harmless ((hcurrent p hp).flags hold), hid]
  next hany =>
    have huntouched := happlied.untouched id fun p hp hold heq ↦ hany ?_
    · rw [huntouched.flagSet, hid]
    · refine List.any_eq_true.2 ⟨p, hp, ?_⟩
      rw [hold, heq, beq_self_eq_true]
      rfl

theorem Ready.step (hw : Ready path w) (hcurrent : Current w e) :
    Ready path (machine.step w e) := by
  obtain ⟨d, hd, hflags⟩ := hw.flags
  cases h : accepted (w.sessions e.who) e with
  | none =>
    obtain ⟨hsession, haccount⟩ := reply_of_refused h
    refine ⟨fun who ↦ ?_, d, ?_, fun id ↦ ?_⟩
    · change Selected path (Function.update w.sessions e.who (reply w e).1.2 who)
      rw [hsession, Function.update_eq_self]
      exact hw.selected who
    · change (reply w e).2.dirAt path = some d
      rw [haccount, hd]
    · change flagSet d id = expectedAfter w e id
      rw [expectedAfter, h, hflags]
  | some r =>
    obtain ⟨-, hselected, d', hd', happlied⟩ := reply_of_accepted (hw.selected e.who) h hd
    have hpath := ((hw.selected e.who).snapshot h).1
    refine ⟨fun who ↦ ?_, d', hd', fun id ↦ ?_⟩
    · change Selected path (Function.update w.sessions e.who (reply w e).1.2 who)
      by_cases hwho : who = e.who
      · rw [hwho, Function.update_self]
        exact hselected
      · rw [Function.update_of_ne hwho]
        exact hw.selected who
    · exact flagSet_of_current h happlied (hcurrent r h d (by rw [hpath]; exact hd)) (hflags id)

/-! ## Runs -/

/-- In every run of two sessions' STOREs that all meet the condition, the flags on disk are those
that the operations reported as successful would have produced one after the other; and a
conditional STORE leaves alone, and reports as modified, a message that has changed on disk. -/
theorem flags_eq_expected_of_current {path : Path} {w₀ w : World} (h₀ : Ready path w₀)
    (h : machine.Reach Current w₀ w) :
    ∃ d, w.account.dirAt path = some d ∧ (∀ id, flagSet d id = w.expected id) ∧
      ∀ e r, Current w e → accepted (w.sessions e.who) e = some r →
        ∃ d' responses, (machine.step w e).account.dirAt path = some d' ∧
          (reply w e).1.1.responses = responses ++
            [Session.storeCompleted e.tag (modified r.2 (namedBy (w.sessions e.who) r))] ∧
          ∀ p ∈ namedBy (w.sessions e.who) r, ∀ since ∈ r.2.unchangedSince,
            since < modseqOf d p.2.id → Untouched d d' p.2.id ∧
              p.2.uid ∈ modified r.2 (namedBy (w.sessions e.who) r) := by
  have hw : Ready path w := h.invariant h₀ fun _ _ hw _ hcurrent ↦ hw.step hcurrent
  obtain ⟨d, hd, hflags⟩ := hw.flags
  refine ⟨d, hd, hflags, fun e r hcurrent hr ↦ ?_⟩
  obtain ⟨⟨responses, hresponses⟩, -, d', hd', happlied⟩ :=
    reply_of_accepted (hw.selected e.who) hr hd
  have hpath := ((hw.selected e.who).snapshot hr).1
  refine ⟨d', responses, hd', hresponses, fun p hp since hsince hnew ↦ ?_⟩
  exact untouched_of_current happlied (hcurrent r hr d (by rw [hpath]; exact hd)) hp hsince hnew

/-! ## Runs of two clients -/

/-- An INBOX with one message, which both sessions have selected. -/
def start : World :=
  let delivered := (deliverTo .disabled none [65] [] ((envAt 10).stamp 0)).run Account.exec .empty
  let select := Session.loggedIn.apply (envAt 20) "a".toList (.select "INBOX".toList none)
  let first := select.run Account.exec delivered.2
  let second := select.run Account.exec first.2
  { account := second.2
    sessions := fun who ↦ if who then second.1.2 else first.1.2
    expected := fun id ↦ (second.2.dirAt .inbox).elim ∅ (flagSet · id) }

def storeOne (who : Bool) (mode : StoreMode) (flag : String) (unchangedSince : Option ℕ) : Event :=
  ⟨who, envAt 30, "a".toList, ⟨[(1, none)], false⟩, mode, [flag.toList], false, false,
    unchangedSince⟩

def message : Uuid := .ofNat 10

def onDisk (w : World) : Option (Finset Flag × ℕ) :=
  (w.account.dirAt .inbox).map fun d ↦ (flagSet d message, modseqOf d message)

theorem selected_of_snapshot
    (h : (s.snapshot?.any fun snapshot ↦ decide (snapshot.path = path ∧ snapshot.ids.Nodup)) =
      true) :
    Selected path s := by
  rw [Option.any_eq_true] at h
  obtain ⟨snapshot, hsnapshot, h⟩ := h
  rw [Session.snapshot?] at hsnapshot
  split at hsnapshot
  next mailbox shown readOnly hstate =>
    obtain rfl := Option.some.inj hsnapshot
    exact ⟨mailbox, shown, readOnly, hstate, of_decide_eq_true h⟩
  next => cases hsnapshot

theorem ready_start : Ready .inbox start := by
  refine ⟨fun who ↦ selected_of_snapshot ?_, ?_⟩
  · revert who
    decide
  · have hdir : (start.account.dirAt .inbox).isSome = true := by decide
    obtain ⟨d, hd⟩ := Option.isSome_iff_exists.1 hdir
    refine ⟨d, hd, fun id ↦ ?_⟩
    change flagSet d id = (start.account.dirAt .inbox).elim ∅ (flagSet · id)
    rw [hd, Option.elim_some]

/-- One client sets a flag and clears it, and the other one, which has seen nothing of it, does the
same with another flag; at last it makes a conditional change. -/
def currentRun : List Event :=
  [storeOne false .add "\\Seen" none, storeOne false .remove "\\Seen" none,
    storeOne true .add "\\Flagged" none, storeOne true .set "\\Answered" (some 4)]

theorem flags_after_currentRun :
    Ready .inbox start ∧ machine.Reach Current start (currentRun.foldl machine.step start) ∧
      onDisk (currentRun.foldl machine.step start) = some ({.answered}, 5) ∧
      ∃ d, (currentRun.foldl machine.step start).account.dirAt .inbox = some d ∧
        ∀ id, flagSet d id = (currentRun.foldl machine.step start).expected id := by
  have hreach : machine.Reach Current start (currentRun.foldl machine.step start) :=
    .of_passes (by decide)
  obtain ⟨d, hd, hflags, -⟩ := flags_eq_expected_of_current ready_start hreach
  exact ⟨ready_start, hreach, by decide, d, hd, hflags⟩

def addRun : List Event := [storeOne false .add "\\Seen" none, storeOne true .add "\\Flagged" none]

/-- One client adds a flag; the other one changes the message on condition that it has not
changed. -/
def conditionalRun : List Event :=
  [storeOne false .add "\\Seen" none, storeOne true .add "\\Flagged" (some 1)]

theorem addRun_loses_flag :
    machine.Reach (fun _ _ ↦ True) start (addRun.foldl machine.step start) ∧
      onDisk (addRun.foldl machine.step start) = some ({.flagged}, 3) ∧
      (addRun.foldl machine.step start).expected message = {.seen, .flagged} ∧
    machine.Reach (fun _ _ ↦ True) start (conditionalRun.foldl machine.step start) ∧
      onDisk ((conditionalRun.take 1).foldl machine.step start) = some ({.seen}, 2) ∧
      onDisk (conditionalRun.foldl machine.step start) = some ({.flagged}, 3) := by
  refine ⟨.of_passes (by decide), ?_, ?_,
    .of_passes (by decide), ?_, ?_⟩
  all_goals decide

end FlagUpdates

end Epistle.Imap
