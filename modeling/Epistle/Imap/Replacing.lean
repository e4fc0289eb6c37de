import Epistle.Imap.AccountSound
import Epistle.Imap.SequenceSync

/-!
# What REPLACE removes

REPLACE names a message by its sequence number or its UID. The name is turned into a position in the
session's snapshot when the command line arrives. When the literal has arrived and the new message
is stored, the mailbox is opened again, and the message at that position of the new snapshot is
removed. By then other sessions may have removed messages before it, or messages with smaller ids
may have come in between.

A session runs through any commands, while messages are delivered and other sessions work on the
mailboxes. Whatever a REPLACE removes is written down together with the message that it was to
remove. The two are the same as long as the message at the position is the one that was named, or
there is none (`replaces_named_iff`).
-/

namespace Epistle.Imap

open TextFormat Interleaving

/-! ## The messages of an account -/

namespace Account

def mailsAt (a : Account) (path : Path) : Mails := (a.folder path).elim ∅ Folder.mails

def messages (a : Account) : List (Path × Uuid) :=
  (a.mailsAt .inbox).keys.map (Path.inbox, ·) ++
    a.folders.keys.flatMap fun name ↦ (a.mailsAt (.folder name)).keys.map (Path.folder name, ·)

variable {a : Account} {path : Path}

variable {id : Uuid} {used : List Uuid}

theorem mem_messages :
    (path, id) ∈ a.messages ↔ ((a.mailsAt path).lookup id).isSome := by
  rw [messages, List.mem_append, List.mem_map, List.mem_flatMap, AList.lookup_isSome]
  cases path with
  | inbox => simp [AList.mem_keys]
  | folder name =>
    have hkey : id ∈ a.mailsAt (.folder name) → name ∈ a.folders.keys := by
      intro hid
      by_contra hname
      have hnone : a.folder (.folder name) = none := AList.lookup_eq_none.2 hname
      rw [mailsAt, hnone] at hid
      exact absurd hid (AList.notMem_empty id)
    simp only [List.mem_map, Prod.mk.injEq, Path.folder.injEq, reduceCtorEq, false_and, and_false,
      exists_false, false_or, AList.mem_keys]
    constructor
    · rintro ⟨other, -, other', hid, rfl, rfl⟩
      exact hid
    · intro hid
      exact ⟨name, hkey hid, id, hid, rfl, rfl⟩

theorem mailsAt_of_dirAt {d : Dir} (h : a.dirAt path = some d) :
    a.mailsAt path = d.mails := by
  obtain ⟨f, hf, rfl⟩ := Option.map_eq_some_iff.1 h
  rw [mailsAt, hf]
  rfl

theorem mailsAt_congr {a' : Account} (h : a'.folder path = a.folder path) :
    a'.mailsAt path = a.mailsAt path := by
  rw [mailsAt, h, mailsAt]

theorem mailsAt_of_folder_none (h : a.folder path = none) :
    a.mailsAt path = ∅ := by
  rw [mailsAt, h]
  rfl

theorem Tidy.shown (h : a.Tidy used) (path : Path) :
    a.shown path = sortIds (a.mailsAt path).keys := by
  cases hd : a.dirAt path with
  | none =>
    rw [Account.shown, hd, mailsAt_of_folder_none (Option.map_eq_none_iff.1 hd)]
    rfl
  | some d =>
    rw [shown_of_dirAt hd, mailsAt_of_dirAt hd]
    have hopened := (h path d hd).sound.opened .disabled ⟨0, 0⟩
    rw [← hopened.numbered.mails, ← hopened.current.ids, Dir.ids_opened]

theorem Tidy.lookup_eq_none (h : a.Tidy used) (path : Path)
    (hid : id ∉ used) : (a.mailsAt path).lookup id = none := by
  cases hd : a.dirAt path with
  | none =>
    rw [mailsAt_of_folder_none (Option.map_eq_none_iff.1 hd)]
    rfl
  | some d =>
    rw [mailsAt_of_dirAt hd]
    exact (h path d hd).unused id hid

end Account

/-- What a program in a mailbox does to message files. -/
theorem mailsAt_inMailbox {α : Type} (path : Path) (p : FileM α) (a : Account) (other : Path) :
    ((inMailbox path p).run Account.exec a).2.mailsAt other =
      if other = path then (a.dirAt path).elim ∅ fun d ↦ (p.run Dir.exec d).2.mails
      else a.mailsAt other := by
  cases hd : a.dirAt path with
  | none =>
    have hfolder : a.folder path = none := Option.map_eq_none_iff.1 hd
    rw [Account.mailsAt_congr (folder_inMailbox_missing p hfolder other)]
    split
    next heq =>
      subst heq
      exact Account.mailsAt_of_folder_none hfolder
    next => rfl
  | some d =>
    obtain ⟨-, hafter, hothers⟩ := run_inMailbox p hd
    split
    next heq =>
      subst heq
      exact Account.mailsAt_of_dirAt hafter
    next hne => exact Account.mailsAt_congr (hothers other hne)

theorem mailsAt_openMailbox (crypto : MessageCrypto) (mailbox : Text) (retentionDays : ℕ)
    (clock : SystemTime) (a : Account) (path : Path) :
    ((openMailbox crypto mailbox retentionDays clock).run Account.exec a).2.mailsAt path =
      a.mailsAt path := by
  rw [openMailbox]
  split
  · rfl
  next target _ =>
    rw [mailsAt_inMailbox]
    split
    next heq =>
      subst heq
      cases hd : a.dirAt path with
      | none => exact (Account.mailsAt_of_folder_none (Option.map_eq_none_iff.1 hd)).symm
      | some d =>
        obtain ⟨snapshot, hrun, -⟩ :=
          run_openAt crypto mailbox retentionDays clock.secs.toNat clock d
        rw [Option.elim_some, hrun, (opened_cases crypto clock d).1.mails,
          Account.mailsAt_of_dirAt hd]
    next => rfl

theorem mailsAt_createDirAll (path other : Path) (a : Account) :
    (Account.exec (.createDirAll path) a).2.mailsAt other = a.mailsAt other := by
  rw [Account.exec]
  split
  · rfl
  next hnone =>
    by_cases hother : other = path
    · subst hother
      rw [Account.mailsAt_of_folder_none (Option.not_isSome_iff_eq_none.1 hnone), Account.mailsAt,
        Account.folder_setFolder_self]
      rfl
    · exact Account.mailsAt_congr (Account.folder_setFolder_of_ne a _ hother)

variable {mailbox : Text} {target : Path}

theorem mailsAt_appendTo (htarget : mailboxDir mailbox = some target)
    (crypto : MessageCrypto) (flags : List Flag) (data : List UInt8) (stamp : Stamp) (a : Account)
    (path : Path) :
    ((appendTo crypto mailbox flags data stamp).run Account.exec a).2.mailsAt path =
      if path = target then
        (a.mailsAt path).insert stamp.id ⟨crypto.encode stamp.nonce data, stamp.mtime⟩
      else a.mailsAt path := by
  rw [run_appendTo htarget, mailsAt_inMailbox]
  split
  next heq =>
    subst heq
    obtain ⟨d, hd⟩ := a.exists_dirAt_createDirAll path
    rw [hd, Option.elim_some, (added_append _ _ _ d).mails, ← mailsAt_createDirAll path path a,
      Account.mailsAt_of_dirAt hd]
  next => exact mailsAt_createDirAll target path a

/-- The message with a sequence number is taken away, and nothing else. -/
theorem lookup_removeAt (snapshot : Snapshot) (sequence : ℕ) (d : Dir) (id : Uuid) :
    ((snapshot.removeAt sequence).run Dir.exec d).2.mails.lookup id =
      if (snapshot.bySequence sequence).map MessageRef.id = some id then none
      else d.mails.lookup id := by
  rcases run_removeAt snapshot sequence d with ⟨hnone, hsame⟩ | ⟨message, hmessage, hexpunged⟩
  · rw [hsame, hnone]
    rfl
  · rw [hexpunged.lookup, hmessage]
    simp [eq_comm]

/-! ## The end of a REPLACE -/

/-- The message at a position of a mailbox, in the order of the ids. -/
def Account.atPosition (a : Account) (path : Path) (sequence : ℕ) : Option Uuid :=
  if 0 < sequence then (sortIds (a.mailsAt path).keys)[sequence - 1]? else none

theorem bySequence_of_ids {snapshot : Snapshot} {a : Account} {path : Path}
    (h : snapshot.ids = sortIds (a.mailsAt path).keys) (sequence : ℕ) :
    (snapshot.bySequence sequence).map MessageRef.id = a.atPosition path sequence := by
  rw [Snapshot.bySequence, Account.atPosition, ← h, Snapshot.ids]
  split
  · rw [List.getElem?_map]
  · rfl

/-- The end of a REPLACE removes the message at the position, and nothing else. -/
theorem lookup_replaceExpunge {used : List Uuid} {a : Account} (ha : a.Tidy used) {selected : Text}
    {path : Path} (hpath : mailboxDir selected = some path) (env : Env) (tag : Text) (sequence : ℕ)
    (code : Text) (s : Session) (other : Path) (id : Uuid) :
    (((s.replaceExpunge env tag selected sequence code).run Account.exec a).2.mailsAt
        other).lookup id =
      if other = path ∧ a.atPosition path sequence = some id then none
      else (a.mailsAt other).lookup id := by
  obtain ⟨fresh, a', hrun, hmailbox, hids, -, -⟩ :=
    run_openMailbox hpath s.crypto s.retentionDays env.clock a
  have hmails : ∀ other, a'.mailsAt other = a.mailsAt other := by
    intro other
    have hopen := mailsAt_openMailbox s.crypto selected s.retentionDays env.clock a other
    rw [hrun] at hopen
    exact hopen
  have hposition : (fresh.bySequence sequence).map MessageRef.id = a.atPosition path sequence :=
    bySequence_of_ids (hids.trans (ha.shown path)) sequence
  have hfresh : fresh.path = path := by
    rw [Snapshot.path, hmailbox, hpath]
    rfl
  have hafter : ((s.replaceExpunge env tag selected sequence code).run Account.exec a).2 =
      ((inMailbox path (fresh.removeAt sequence)).run Account.exec a').2 := by
    rw [Session.replaceExpunge, Session.openSnapshot, Prog.run_bind, hrun]
    dsimp only
    rw [Prog.run_bind, hfresh]
    split <;> rfl
  rw [hafter, mailsAt_inMailbox]
  by_cases hother : other = path
  · subst hother
    rw [if_pos rfl]
    cases hd : a'.dirAt other with
    | none =>
      have hempty := Account.mailsAt_of_folder_none (Option.map_eq_none_iff.1 hd)
      rw [hmails] at hempty
      rw [Option.elim_none, hempty]
      simp
    | some d =>
      rw [Option.elim_some, lookup_removeAt, hposition, ← hmails, Account.mailsAt_of_dirAt hd]
      simp
  · rw [if_neg hother, if_neg fun h ↦ hother h.1, hmails]

theorem run_replaceExpunge_of_none {selected : Text} (h : mailboxDir selected = none) (env : Env)
    (tag : Text) (sequence : ℕ) (code : Text) (s : Session) (a : Account) :
    ((s.replaceExpunge env tag selected sequence code).run Account.exec a).2 = a := by
  rw [Session.replaceExpunge, Session.openSnapshot, openMailbox, h]
  rfl

theorem run_appendTo_fst (htarget : mailboxDir mailbox = some target)
    (crypto : MessageCrypto) (flags : List Flag) (data : List UInt8) (stamp : Stamp) (a : Account) :
    ((appendTo crypto mailbox flags data stamp).run Account.exec a).1 = some stamp.id := by
  obtain ⟨d, hd⟩ := a.exists_dirAt_createDirAll target
  rw [run_appendTo htarget, (run_inMailbox _ hd).1, run_append_fst]

namespace Replacing

/-! ## Runs -/

/-- The message that a client's number denotes in what its session shows. -/
def denoted (snapshot : Snapshot) (sequence : ℕ) (uid : Bool) : Option Uuid :=
  if uid then
    (snapshot.messages.find? fun message ↦ message.uid.toNat == sequence).map MessageRef.id
  else (snapshot.bySequence sequence).map MessageRef.id

inductive Event
  /-- The client sends a command line. -/
  | command (env : Env) (tag : Text) (command : Session.Command)
  /-- The literal of an APPEND or REPLACE has been read. -/
  | literal (env : Env) (data : List UInt8)
  /-- The poll interval of an IDLE has passed. -/
  | poll (env : Env)
  /-- The client sends DONE. -/
  | done
  | deliver (crypto : MessageCrypto) (mailbox : Option Text) (data : List UInt8)
      (flagTokens : List Text) (stamp : Stamp)
  /-- Another session does something to a mailbox, with whatever snapshot it holds. -/
  | other (path : Path) (crypto : MessageCrypto) (snapshot : Snapshot) (command : Imap.Command)

/-- A REPLACE has taken a message away. -/
structure Removal where
  path : Path
  id : Uuid
  /-- The message that the client named. -/
  named : Option Uuid

structure World where
  account : Account
  session : Session
  /-- The ids that messages have been added under. -/
  used : List Uuid
  /-- The message that the last REPLACE named, as the session showed it then. -/
  named : Option Uuid
  removals : List Removal

/-- A session that has logged in to an account without messages. -/
def World.start (s : Session) : World := ⟨.empty, s, [], none, []⟩

def next (w : World) : Event → Session × Account
  | .command env tag command =>
    let r := (w.session.apply env tag command).run Account.exec w.account
    (r.1.2, r.2)
  | .literal env data =>
    let r := (w.session.literalDone env data).run Account.exec w.account
    (r.1.2, r.2)
  | .poll env =>
    let r := (w.session.checkIdle env).run Account.exec w.account
    (r.1.2, r.2)
  | .done => (w.session.idleDone.2, w.account)
  | .deliver crypto mailbox data flagTokens stamp =>
    (w.session, ((deliverTo crypto mailbox data flagTokens stamp).run Account.exec w.account).2)
  | .other path crypto snapshot command =>
    (w.session, ((inMailbox path (command.body crypto snapshot)).run Account.exec w.account).2)

/-- The ids that an event may draw for new messages. A COPY draws one for each message at most. -/
def drawn (w : World) : Event → List Uuid
  | .command env _ _ =>
    env.drawn 0 (w.session.snapshot?.elim 0 fun snapshot ↦ snapshot.messages.length)
  | .literal env _ => [(env.stamp 0).id]
  | .poll _ | .done => []
  | .deliver _ _ _ _ stamp => [stamp.id]
  | .other _ _ _ command => command.newId.toList

/-- The phase in which something can happen, if not any. -/
def Event.phase? : Event → Option SequenceSync.Phase
  | .command .. => some .command
  | .literal .. => some .literal
  | .poll _ | .done => some .idling
  | .deliver .. | .other .. => none

def namedAfter (w : World) : Event → Option Uuid
  | .command _ _ (.replace sequence _ _ _ uid) =>
    w.session.snapshot?.bind fun snapshot ↦ denoted snapshot sequence uid
  | _ => w.named

def authenticated (s : Session) : Bool :=
  match s.state with
  | .notAuthenticated => false
  | _ => true

/-- The account with the new message of a REPLACE whose literal has been read. -/
def stored (w : World) : Event → Option Account
  | .literal env data =>
    (w.session.pendingAppend.filter fun pending ↦
      pending.replace.isSome && authenticated w.session).map fun pending ↦
        ((appendTo w.session.crypto pending.mailbox pending.flags data (env.stamp 0)).run
          Account.exec w.account).2
  | _ => none

def gone (before after : Account) (named : Option Uuid) : List Removal :=
  (before.messages.filter fun p ↦ p ∉ after.messages).map fun p ↦ ⟨p.1, p.2, named⟩

def machine : Machine World Event where
  enabled := fun w e ↦
    (∀ p ∈ e.phase?, SequenceSync.phase w.session = p) ∧ NewIds (drawn w e) w.used
  step := fun w e ↦
    let r := next w e
    ⟨r.2, r.1, drawn w e ++ w.used, namedAfter w e,
      (stored w e).elim [] (fun before ↦ gone before r.2 w.named) ++ w.removals⟩

/-- The messages of a mailbox when a new one has been stored in `target`. -/
def arrived (a : Account) (target path : Path) (id : Uuid) : List Uuid :=
  if path = target then id :: (a.mailsAt path).keys else (a.mailsAt path).keys

/-- The condition on an event. When the literal of a REPLACE has been read: at the position that is
kept for it, in the selected mailbox with the new message, there is the message that was named, or
there is none. -/
def InPlace (w : World) : Event → Prop
  | .literal env _ => ∀ pending ∈ w.session.pendingAppend, ∀ p ∈ pending.replace,
      authenticated w.session = true → 0 < p.2 →
        ∀ target ∈ mailboxDir pending.mailbox, ∀ path ∈ mailboxDir p.1,
          ∀ id ∈ (sortIds (arrived w.account target path (env.stamp 0).id))[p.2 - 1]?,
            w.named = some id
  | _ => True

variable {before : Account} {pending : PendingLiteral} {selected : Text} {sequence : ℕ} {w : World}
  {env : Env} {e : Event}

theorem mem_gone {after : Account} {named : Option Uuid} {r : Removal} :
    r ∈ gone before after named ↔ ((before.mailsAt r.path).lookup r.id).isSome ∧
      (after.mailsAt r.path).lookup r.id = none ∧ r.named = named := by
  rw [gone, List.mem_map]
  constructor
  · rintro ⟨⟨path, id⟩, hp, rfl⟩
    obtain ⟨hbefore, hafter⟩ := List.mem_filter.1 hp
    rw [decide_eq_true_iff, Account.mem_messages, Option.not_isSome_iff_eq_none] at hafter
    exact ⟨Account.mem_messages.1 hbefore, hafter, rfl⟩
  · rintro ⟨hbefore, hafter, hnamed⟩
    refine ⟨(r.path, r.id), List.mem_filter.2 ⟨Account.mem_messages.2 hbefore, ?_⟩, ?_⟩
    · rw [decide_eq_true_iff, Account.mem_messages, hafter]
      exact Bool.false_ne_true
    · rw [← hnamed]

/-! ## One event -/

theorem run_literalDone {s : Session}
    (hpending : s.pendingAppend = some pending)
    (hreplace : pending.replace = some (selected, sequence))
    (hauth : authenticated s = true) (env : Env) (data : List UInt8) (a : Account) :
    let r := (appendTo s.crypto pending.mailbox pending.flags data (env.stamp 0)).run Account.exec a
    let s' := { s with pendingAppend := none }
    ((s.literalDone env data).run Account.exec a).2 = r.1.elim r.2 fun id ↦
      let r' := (Session.appenduidCode pending.mailbox id env.clock).run Account.exec r.2
      ((s'.replaceExpunge env pending.tag selected sequence r'.1).run Account.exec r'.2).2 := by
  unfold Session.literalDone
  rw [hpending]
  dsimp only
  split
  next hstate =>
    rw [authenticated, hstate] at hauth
    cases hauth
  next =>
    rw [Prog.run_bind]
    generalize (appendTo s.crypto pending.mailbox pending.flags data (env.stamp 0)).run
      Account.exec a = r
    obtain ⟨stored, a₁⟩ := r
    cases stored with
    | none => rfl
    | some id =>
      rw [Prog.run_bind, hreplace]
      rfl

theorem keys_stored {target : Path} {mailbox : Text}
    (htarget : mailboxDir mailbox = some target) {stamp : Stamp}
    (hnew : ∀ path, (w.account.mailsAt path).lookup stamp.id = none) (flags : List Flag)
    (data : List UInt8) (path : Path) :
    (((appendTo w.session.crypto mailbox flags data stamp).run Account.exec
      w.account).2.mailsAt path).keys = arrived w.account target path stamp.id := by
  rw [mailsAt_appendTo htarget, arrived]
  split
  · rw [AList.keys_insert, List.erase_of_not_mem (AList.lookup_eq_none.1 (hnew path))]
  · rfl

section

variable (h : w.account.Tidy w.used) (hnew : (env.stamp 0).id ∉ w.used) (data : List UInt8)
  (hpending : w.session.pendingAppend = some pending)
  (hreplace : pending.replace = some (selected, sequence)) (hauth : authenticated w.session = true)
  (hbefore : before =
    ((appendTo w.session.crypto pending.mailbox pending.flags data (env.stamp 0)).run
      Account.exec w.account).2)
include h hnew hpending hreplace hauth hbefore

/-- What is left of the messages after a REPLACE, among them the new one. -/
theorem lookup_literal (path : Path) (id : Uuid) :
    ((next w (.literal env data)).2.mailsAt path).lookup id =
      if (mailboxDir pending.mailbox).isSome ∧ mailboxDir selected = some path ∧
        before.atPosition path sequence = some id then none
      else (before.mailsAt path).lookup id := by
  have hafter := run_literalDone hpending hreplace hauth env data w.account
  dsimp only at hafter
  rw [← hbefore] at hafter
  change (((w.session.literalDone env data).run Account.exec w.account).2.mailsAt path).lookup id =
    _
  rw [hafter]
  cases htarget : mailboxDir pending.mailbox with
  | none =>
    -- the new message is not stored, and nothing is removed
    rw [appendTo, htarget]
    rfl
  | some target =>
    have htidy : before.Tidy ((env.stamp 0).id :: w.used) := by
      rw [hbefore]
      exact takes_appendTo _ _ _ _ hnew w.account h
    -- looking up the UID opens the mailbox of the new message
    have hopened := takes_appenduidCode pending.mailbox (env.stamp 0).id env.clock before htidy
    have hmails : ∀ path, ((Session.appenduidCode pending.mailbox (env.stamp 0).id
        env.clock).run Account.exec before).2.mailsAt path = before.mailsAt path := by
      intro path
      rw [SequenceSync.run_appenduidCode, mailsAt_openMailbox]
    rw [run_appendTo_fst htarget, Option.elim_some]
    generalize (Session.appenduidCode pending.mailbox (env.stamp 0).id env.clock).run Account.exec
      before = r at hopened hmails ⊢
    cases hselected : mailboxDir selected with
    | none =>
      rw [run_replaceExpunge_of_none hselected, hmails, if_neg]
      rintro ⟨-, hpath, -⟩
      cases hpath
    | some found =>
      have hposition : r.2.atPosition found sequence = before.atPosition found sequence := by
        rw [Account.atPosition, hmails, Account.atPosition]
      rw [lookup_replaceExpunge hopened hselected, hposition, hmails]
      refine if_congr ⟨?_, ?_⟩ rfl rfl
      · rintro ⟨rfl, hid⟩
        exact ⟨rfl, rfl, hid⟩
      · rintro ⟨-, hpath, hid⟩
        obtain rfl := Option.some.inj hpath
        exact ⟨rfl, hid⟩

/-- The removals of a REPLACE are of the named message if and only if it is in its place. -/
theorem named_gone_iff :
    (∀ r ∈ gone before (next w (.literal env data)).2 w.named, r.named = some r.id) ↔
      InPlace w (.literal env data) := by
  have hlookup := lookup_literal h hnew data hpending hreplace hauth hbefore
  have hunused : ∀ path, (w.account.mailsAt path).lookup (env.stamp 0).id = none :=
    fun path ↦ h.lookup_eq_none path hnew
  constructor
  · intro hall p hp q hq _ hpos target htarget path hpath id hid
    obtain rfl := Option.some.inj (hpending.symm.trans hp)
    obtain rfl := Option.some.inj (hreplace.symm.trans hq)
    have hkeys := keys_stored htarget hunused pending.flags data path
    rw [← hbefore] at hkeys
    rw [← hkeys] at hid
    have hposition : before.atPosition path sequence = some id := by
      rw [Account.atPosition, if_pos hpos]
      exact hid
    refine hall ⟨path, id, w.named⟩ (mem_gone.2 ⟨?_, ?_, rfl⟩)
    · exact AList.lookup_isSome.2 ((List.mem_insertionSort _).1 (List.mem_of_getElem? hid))
    · rw [hlookup, if_pos ⟨by rw [htarget]; rfl, hpath, hposition⟩]
  · intro hplace r hr
    obtain ⟨hthere, hnone, hnamed⟩ := mem_gone.1 hr
    rw [hlookup] at hnone
    split at hnone
    next hremoved =>
      obtain ⟨htarget, hpath, hposition⟩ := hremoved
      obtain ⟨target, htarget⟩ := Option.isSome_iff_exists.1 htarget
      have hkeys := keys_stored htarget hunused pending.flags data r.path
      rw [← hbefore] at hkeys
      rw [Account.atPosition, hkeys] at hposition
      split at hposition
      next hpos =>
        rw [hnamed]
        exact hplace pending hpending (selected, sequence) hreplace hauth hpos target htarget r.path
          hpath r.id hposition
      next => cases hposition
    next =>
      rw [hnone] at hthere
      cases hthere

end

theorem stored_eq_some {data : List UInt8} (h : stored w (.literal env data) = some before) :
    ∃ pending selected sequence, w.session.pendingAppend = some pending ∧
      pending.replace = some (selected, sequence) ∧ authenticated w.session = true ∧
      before = ((appendTo w.session.crypto pending.mailbox pending.flags data (env.stamp 0)).run
        Account.exec w.account).2 := by
  obtain ⟨pending, hfilter, hbefore⟩ := Option.map_eq_some_iff.1 h
  obtain ⟨hpending, hreplace⟩ := Option.filter_eq_some_iff.1 hfilter
  rw [Bool.and_eq_true] at hreplace
  obtain ⟨⟨selected, sequence⟩, hp⟩ := Option.isSome_iff_exists.1 hreplace.1
  exact ⟨pending, selected, sequence, hpending, hp, hreplace.2, hbefore.symm⟩

theorem inPlace_of_stored_eq_none (h : stored w e = none) : InPlace w e := by
  cases e with
  | literal env data =>
    intro pending hpending p hp hauth
    have hfilter := Option.map_eq_none_iff.1 h
    rw [Option.mem_def.1 hpending, Option.filter_eq_none_iff] at hfilter
    refine absurd ?_ (hfilter pending rfl)
    rw [Option.mem_def.1 hp, hauth]
    rfl
  | _ => trivial

section

variable (h : w.account.Tidy w.used) (henabled : machine.enabled w e)
include h henabled

theorem named_step_iff (hsofar : ∀ r ∈ w.removals, r.named = some r.id) :
    (∀ r ∈ (machine.step w e).removals, r.named = some r.id) ↔ InPlace w e := by
  cases hstored : stored w e with
  | none =>
    have hremovals : (machine.step w e).removals = w.removals := by simp [machine, hstored]
    rw [hremovals]
    exact iff_of_true hsofar (inPlace_of_stored_eq_none hstored)
  | some before =>
    have hremovals : (machine.step w e).removals = gone before (next w e).2 w.named ++
      w.removals := by
      simp [machine, hstored]
    rw [hremovals, List.forall_mem_append, and_iff_left hsofar]
    cases e with
    | literal env data =>
      obtain ⟨pending, selected, sequence, hpending, hreplace, hauth, hbefore⟩ :=
        stored_eq_some hstored
      exact named_gone_iff h (henabled.2.unused _ (List.mem_singleton_self _)) data
        hpending hreplace
        hauth hbefore
    | _ => cases hstored

theorem tidy_step : (machine.step w e).account.Tidy (machine.step w e).used := by
  have hnew := henabled.2
  cases e with
  | command env tag command =>
    refine takes_apply hnew tag command (fun snapshot hsnapshot ↦ ?_) w.account h
    rw [Option.mem_def.1 hsnapshot, Option.elim_some]
  | literal env data =>
    exact takes_literalDone (hnew.unused _ (List.mem_singleton_self _)) data w.session w.account h
  | poll env => exact takes_checkIdle w.session w.account h
  | done => exact h
  | deliver crypto mailbox data flagTokens stamp =>
    exact takes_deliverTo crypto mailbox data flagTokens
      (hnew.unused _ (List.mem_singleton_self _)) w.account h
  | other path crypto snapshot command =>
    exact takes_inMailbox (List.subset_append_right _ _)
      (takes_body (fun id hid ↦ hnew.unused id (by simpa [drawn] using hid)) crypto snapshot) path
      w.account h

end

/-- **REPLACE removes the message that was named, unless another one has got into its place.** In
every run in which the message at the position kept for a REPLACE is the one that its client named,
or there is none, whenever the literal has been read, REPLACE has removed only named messages. The
next event keeps it so if and only if the same is true of it. -/
theorem replaces_named_iff {s : Session} {w : World} (hreach : machine.Reach InPlace (.start s) w) :
    (∀ r ∈ w.removals, r.named = some r.id) ∧ ∀ e, machine.enabled w e →
      ((∀ r ∈ (machine.step w e).removals, r.named = some r.id) ↔ InPlace w e) := by
  have hinv : w.account.Tidy w.used ∧ ∀ r ∈ w.removals, r.named = some r.id := by
    refine hreach.invariant
      (I := fun w ↦ w.account.Tidy w.used ∧ ∀ r ∈ w.removals, r.named = some r.id)
      ⟨Account.Tidy.empty, by simp [World.start]⟩ ?_
    rintro w e ⟨h, hsofar⟩ henabled hplace
    exact ⟨tidy_step h henabled, (named_step_iff h henabled hsofar).2 hplace⟩
  exact ⟨hinv.2, fun e henabled ↦ named_step_iff hinv.1 henabled hinv.2⟩

/-! ## Runs of one client -/

instance (w : World) (e : Event) : Decidable (machine.enabled w e) :=
  inferInstanceAs (Decidable ((∀ p ∈ e.phase?, SequenceSync.phase w.session = p) ∧ _))

instance (w : World) : (e : Event) → Decidable (InPlace w e)
  | .literal _ _ => by dsimp only [InPlace]; infer_instance
  | .command .. | .poll _ | .done | .deliver .. | .other .. => isTrue trivial

def delivery (t : ℕ) : Event := .deliver .disabled none [65] [] ((envAt t).stamp 0)

def line (t : ℕ) (command : Session.Command) : Event := .command (envAt t) "a".toList command

/-- Two messages arrive, and the client asks for the first one to be replaced. -/
def asking : List Event :=
  [delivery 10, delivery 11, line 20 (.select "INBOX".toList none),
    line 21 (.replace 1 "INBOX".toList [] 1 false)]

def replacing : List Event := asking ++ [.literal (envAt 30) [66]]

theorem replaces_named_replacing :
    (replacing.foldl machine.step (.start Session.loggedIn)).removals.map Removal.id = [.ofNat 10] ∧
      ∀ r ∈ (replacing.foldl machine.step (.start Session.loggedIn)).removals,
        r.named = some r.id :=
  ⟨by decide, (replaces_named_iff (.of_passes (by decide))).1⟩

/-- What another session shows of the first message. -/
def otherView : Snapshot := { Snapshot.empty with
  mailbox := "INBOX".toList, messages := [⟨1, .ofNat 10, 1, [], ⟨10, 0⟩, 1⟩] }

/-- Before the literal arrives another session removes the message. -/
def replacingGone : List Event :=
  asking ++ [.other .inbox .disabled otherView (.removeAt 1), .literal (envAt 30) [66]]

/-- The message after it is removed in its place. -/
theorem other_replaced :
    ∃ r ∈ (replacingGone.foldl machine.step (.start Session.loggedIn)).removals,
      r.id = .ofNat 11 ∧ r.named = some (.ofNat 10) := by
  decide

end Replacing

end Epistle.Imap
