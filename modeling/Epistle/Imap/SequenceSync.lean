import Epistle.Imap.Opening
import Epistle.Imap.Session
import Epistle.Interleaving.Machine

/-!
# Sequence numbers on both ends

A client knows the messages of the selected mailbox by their sequence numbers. It learns how many
there are from EXISTS and which are gone from EXPUNGE, and renumbers the others itself. This file
follows one connection together with such a client, while other sessions do what they like to the
account, and compares the client's list with the session's live snapshot.

Of the handlers, only those that replace the live snapshot by a freshly opened one can part the two.
A poll during IDLE sends EXISTS alone; that is right if the fresh snapshot extends the live one, and
wrong if a message in the middle is gone. A REPLACE sends the EXPUNGE of the replaced message alone;
that is wrong as soon as the fresh snapshot differs in anything else, and when the new message goes
to the selected mailbox it always does. Everything else keeps the two in step
(`synced_of_steady`).
-/

namespace Epistle.Imap

open TextFormat Interleaving

/-- The messages of the live snapshot, in sequence order. -/
def Session.ids (s : Session) : List Uuid := s.snapshot?.elim [] Snapshot.ids

namespace SequenceSync

/-! ## The client -/

/-- What a client makes of a response. The messages that EXISTS announces are those the session
shows at the new sequence numbers. -/
def receive (live view : List Uuid) : Response → List Uuid
  | .existing count => view.take count ++ (live.drop view.length).take (count - view.length)
  | .expunge sequence => view.eraseIdx (sequence - 1)
  | _ => view

/-- Responses that do not renumber. -/
def quiet : Response → Bool
  | .existing _ | .expunge _ => false
  | _ => true

def AllQuiet (responses : List Response) : Prop := ∀ r ∈ responses, quiet r = true

theorem AllQuiet.append {l l' : List Response} (h : AllQuiet l) (h' : AllQuiet l') :
    AllQuiet (l ++ l') := by
  intro r hr
  rcases List.mem_append.1 hr with hr | hr
  · exact h r hr
  · exact h' r hr

theorem AllQuiet.tagged (tag : Text) (status : Status) (text : Text) :
    AllQuiet [.tagged tag status text] := by
  intro r hr
  rw [List.mem_singleton.1 hr]
  rfl

variable {live view : List Uuid} {n : ℕ} {env : Env}

theorem foldl_receive_of_quiet {responses : List Response}
    (h : AllQuiet responses) : responses.foldl (receive live) view = view := by
  induction responses with
  | nil => rfl
  | cons r responses ih =>
    have hr : receive live view r = view := by
      have hquiet := h r List.mem_cons_self
      cases r with
      | existing count | expunge sequence => cases hquiet
      | _ => rfl
    rw [List.foldl_cons, hr]
    exact ih fun r hr ↦ h r (List.mem_cons_of_mem _ hr)

/-- Remove the messages at the given sequence numbers, one after the other. -/
def removeAll (view : List Uuid) (sequences : List ℕ) : List Uuid :=
  sequences.foldl (fun view n ↦ view.eraseIdx (n - 1)) view

theorem foldl_receive_expunge (live view : List Uuid) (sequences : List ℕ) :
    (sequences.map Response.expunge).foldl (receive live) view = removeAll view sequences := by
  rw [List.foldl_map]
  rfl

/-! ## The connection -/

structure World where
  account : Account
  session : Session
  view : List Uuid

inductive Event
  /-- The client sends a command line. -/
  | command (env : Env) (tag : Text) (command : Session.Command)
  /-- The literal of an APPEND or REPLACE has been read. -/
  | literal (env : Env) (data : List UInt8)
  /-- The poll interval of an IDLE has passed. -/
  | poll (env : Env)
  /-- The client sends DONE. -/
  | done
  /-- Other sessions do something to the account. -/
  | others (change : Account → Account)

inductive Phase
  | command
  | literal
  | idling
  deriving DecidableEq

/-- A literal is read before anything else, and an IDLE ends before the next command. -/
def phase (s : Session) : Phase :=
  if s.pendingAppend.isSome then .literal else if s.idleTag.isSome then .idling else .command

/-- The phase in which something can happen, if not any. -/
def Event.phase? : Event → Option Phase
  | .command .. => some .command
  | .literal .. => some .literal
  | .poll _ | .done => some .idling
  | .others _ => none

def respond (w : World) : Event → List Response × Session × Account
  | .command env tag command =>
    let r := (w.session.apply env tag command).run Account.exec w.account
    (r.1.1.responses, r.1.2, r.2)
  | .literal env data =>
    let r := (w.session.literalDone env data).run Account.exec w.account
    (r.1.1.responses, r.1.2, r.2)
  | .poll env =>
    let r := (w.session.checkIdle env).run Account.exec w.account
    (r.1.1.elim [] Output.responses, r.1.2, r.2)
  | .done => (w.session.idleDone.1.responses, w.session.idleDone.2, w.account)
  | .others change => ([], w.session, change w.account)

/-- Whether an event asks for a mailbox to be selected. -/
def Event.selects : Event → Bool
  | .command _ _ (.select _ _) | .command _ _ (.examine _ _) => true
  | _ => false

/-- The list the client applies the responses to: a new one for a mailbox that has been selected,
which the number of its messages tells. -/
def startView (e : Event) (responses : List Response) (view : List Uuid) : List Uuid :=
  if e.selects && !responses.all quiet then [] else view

def machine : Machine World Event where
  enabled := fun w e ↦ ∀ p ∈ e.phase?, phase w.session = p
  step := fun w e ↦
    let r := respond w e
    ⟨r.2.2, r.2.1, r.1.foldl (receive r.2.1.ids) (startView e r.1 w.view)⟩

/-- At each sequence number the client has the message that the live snapshot has, and as many. -/
def Synced (w : World) : Prop :=
  ∀ snapshot, w.session.snapshot? = some snapshot →
    w.view.length = snapshot.messages.length ∧
      ∀ n, 0 < n → w.view[n - 1]? = (snapshot.bySequence n).map MessageRef.id

/-! ## Steady runs -/

/-- Whether a command expunges what is marked as deleted. -/
def expunges : Session.Command → Bool
  | .expunge | .uidExpunge _ => true
  | _ => false

def selected? (s : Session) : Option (Text × Snapshot) :=
  match s.state with
  | .selected mailbox snapshot _ => some (mailbox, snapshot)
  | _ => none

/-- The account when the message of an APPEND or REPLACE has been stored. -/
def appended (w : World) (env : Env) (data : List UInt8) (pending : PendingLiteral) : Account :=
  ((appendTo w.session.crypto pending.mailbox pending.flags data (env.stamp 0)).run
    Account.exec w.account).2

def Steady (w : World) : Event → Prop
  /- Positions are sent as 32-bit numbers. -/
  | .command _ _ command => expunges command = true → w.session.ids.length ≤ u32Max
  /- The mailbox that is polled shows what the snapshot shows, and possibly more after it; unless
  the poll does not notice that anything has changed. -/
  | .poll env => ∀ live ∈ selected? w.session, ∀ path ∈ mailboxDir live.1,
      (w.account.validity path env.clock ≠ live.2.uidValidity ∨
        (w.account.shown path).length ≠ live.2.messages.length) →
      live.2.ids <+: w.account.shown path
  /- Once the new message is stored, and but for the replaced one, the mailbox shows what the
  snapshot shows; unless it has become too short for the message to be replaced. -/
  | .literal env data => ∀ pending ∈ w.session.pendingAppend, ∀ replaced ∈ pending.replace,
      ∀ path ∈ mailboxDir replaced.1,
      replaced.2 ≤ ((appended w env data pending).shown path).length →
        ((appended w env data pending).shown path).eraseIdx (replaced.2 - 1) =
          w.session.ids.eraseIdx (replaced.2 - 1)
  | .done => True
  | .others _ => True

instance (w : World) (e : Event) : Decidable (machine.enabled w e) :=
  Option.decidableForallMem e.phase?

instance (w : World) : (e : Event) → Decidable (Steady w e)
  | .command _ _ _ | .poll _ | .literal _ _ => by dsimp only [Steady]; infer_instance
  | .done => isTrue trivial
  | .others _ => isTrue trivial

/-! ## What a handler does to the client's list -/

def PendingSelected (s : Session) : Prop :=
  ∀ pending, s.pendingAppend = some pending → ∀ mailbox sequence,
    pending.replace = some (mailbox, sequence) →
    ∃ snapshot readOnly, s.state = .selected mailbox snapshot readOnly

/-- The responses take the list of the snapshot before to the list of the snapshot after. -/
structure Tracks (s : Session) (responses : List Response) (s' : Session) : Prop where
  uidonly : s'.uidonly = s.uidonly
  pending : PendingSelected s'
  view : ∀ after, s'.snapshot? = some after → ∃ before, s.snapshot? = some before ∧
    responses.foldl (receive after.ids) before.ids = after.ids

/-- The responses of a handler do so. -/
abbrev Followed (s : Session) (handler : AccountM (Output × Session)) : Prop :=
  handler.Returns fun r ↦ Tracks s r.1.responses r.2

variable {s : Session} {responses : List Response}
variable (snapshot : Snapshot)

theorem pendingSelected_of_none (h : s.pendingAppend = none) : PendingSelected s := by
  intro pending hpending
  rw [h] at hpending
  cases hpending

theorem Tracks.same (hs : PendingSelected s) (h : AllQuiet responses) :
    Tracks s responses s where
  uidonly := rfl
  pending := hs
  view := fun after hafter ↦ ⟨after, hafter, foldl_receive_of_quiet h⟩

theorem Tracks.tagged (hs : PendingSelected s) (tag : Text) (status : Status) (text : Text) :
    Tracks s [.tagged tag status text] s :=
  .same hs (.tagged tag status text)

section

variable (hs : s.pendingAppend = none)
include hs

theorem Tracks.refused {tag text : Text} {status : Status} : Tracks s [.tagged tag status text] s :=
  .tagged (pendingSelected_of_none hs) tag status text

variable {left : Snapshot} {readOnly : Bool}

theorem Tracks.selected {mailbox : Text} {snapshot : Snapshot}
    (hstate : s.state = .selected mailbox snapshot readOnly)
    (h : responses.foldl (receive left.ids) snapshot.ids = left.ids) :
    Tracks s responses { s with state := .selected mailbox left readOnly } where
  uidonly := rfl
  pending := pendingSelected_of_none hs
  view := by
    intro after hafter
    obtain rfl : left = after := Option.some.inj hafter
    refine ⟨snapshot, ?_, h⟩
    rw [Session.snapshot?, hstate]

theorem Tracks.selected_of_quiet {mailbox : Text} {snapshot : Snapshot}
    (hstate : s.state = .selected mailbox snapshot readOnly) (hids : left.ids = snapshot.ids)
    (h : AllQuiet responses) :
    Tracks s responses { s with state := .selected mailbox left readOnly } := by
  refine .selected hs hstate ?_
  rw [foldl_receive_of_quiet h, hids]

end

/-! ## EXPUNGE -/

theorem receive_append_tagged (live view : List Uuid) (responses : List Response) (tag : Text)
    (status : Status) (text : Text) :
    (responses ++ [Response.tagged tag status text]).foldl (receive live) view =
      responses.foldl (receive live) view := by
  rw [List.foldl_append]
  rfl

section

variable (snapshot : Snapshot) (keep : UInt32 → Bool)

/-- The sequence numbers of an expunge are right when they are sent. The messages before position
`index` have been kept. -/
theorem returns_expungeLoop_removeAll (kept : List Uuid) (messages : List MessageRef)
    (hlen : kept.length + messages.length ≤ u32Max) :
    (snapshot.expungeLoop keep kept.length messages).Returns fun r ↦
      removeAll (kept ++ messages.map MessageRef.id) r.2.1 = kept ++ r.1.map MessageRef.id := by
  induction messages generalizing kept with
  | nil => rfl
  | cons message rest ih =>
    rw [List.length_cons] at hlen
    rw [Snapshot.expungeLoop]
    split
    · refine .bind (.trivial _) fun _ _ ↦ ?_
      refine .bind (ih kept (by omega)) fun r hr ↦ ?_
      have hnumber : Snapshot.sequenceNumber kept.length - 1 = kept.length := by
        rw [Snapshot.sequenceNumber]
        rw [u32Max] at hlen
        omega
      change removeAll _ (Snapshot.sequenceNumber kept.length :: r.2.1) = kept ++
        r.1.map MessageRef.id
      rw [← hr, removeAll, List.foldl_cons, hnumber, List.map_cons,
        List.eraseIdx_append_of_length_le (le_refl _), Nat.sub_self, List.eraseIdx_cons_zero]
      rfl
    · have hkept : (kept ++ [message.id]).length = kept.length + 1 := by simp
      have hrest := ih (kept ++ [message.id]) (by omega)
      rw [hkept] at hrest
      refine .bind hrest fun r hr ↦ ?_
      change removeAll (kept ++ (message :: rest).map MessageRef.id) r.2.1 =
        kept ++ (message :: r.1).map MessageRef.id
      rw [List.map_cons, List.map_cons, ← List.singleton_append, ← List.append_assoc, hr,
        List.append_assoc, List.singleton_append]

theorem returns_expungeWhere_removeAll (hlen : snapshot.ids.length ≤ u32Max) :
    (snapshot.expungeWhere keep).Returns fun r ↦ removeAll snapshot.ids r.1 = r.2.ids := by
  rw [Snapshot.ids, List.length_map] at hlen
  have hloop :=
    returns_expungeLoop_removeAll snapshot keep [] snapshot.messages (by simpa using hlen)
  refine .bind hloop fun r hr ↦ .bind (.trivial _) fun _ _ ↦ ?_
  exact hr

end

theorem tracks_expungeWith (hs : s.pendingAppend = none) (huid : s.uidonly = false)
    (hlen : s.ids.length ≤ u32Max) (tag : Text) {operation : Snapshot → FileM (List ℕ × Snapshot)}
    (hoperation : ∀ snapshot, snapshot.ids.length ≤ u32Max →
      (operation snapshot).Returns fun r ↦ removeAll snapshot.ids r.1 = r.2.ids)
    (deletedUids : Snapshot → List UInt32) :
    Followed s (s.expungeWith tag operation deletedUids) := by
  rw [Session.expungeWith]
  split
  next mailbox snapshot readOnly hstate =>
    split
    · exact .refused hs
    · have hlive : s.ids = snapshot.ids := by
        rw [Session.ids, Session.snapshot?, hstate, Option.elim_some]
      rw [hlive] at hlen
      refine .bind (returns_inMailbox _ (hoperation snapshot hlen)) fun r hr ↦ ?_
      refine Tracks.selected hs hstate ?_
      change List.foldl _ _ (_ ++ [_]) = _
      rw [receive_append_tagged, expungeResponse, huid, if_neg Bool.false_ne_true,
        foldl_receive_expunge, hr]
  next => exact .refused hs

/-! ## FETCH -/

theorem returns_vanishedSince_allQuiet (modseq : ℕ) :
    (do
      let uids ← snapshot.vanishedSince modseq
      pure (if uids.isEmpty then [] else [Response.vanished true uids]) :
      AccountM (List Response)).Returns AllQuiet := by
  refine .bind (.trivial _) fun uids _ ↦ ?_
  intro r hr
  split at hr
  · cases hr
  · rw [List.mem_singleton.1 hr]
    rfl

theorem returns_fetchVanished (vanished : Bool) (changedSince : Option ℕ) :
    (Session.fetchVanished snapshot vanished changedSince).Returns AllQuiet := by
  unfold Session.fetchVanished
  split
  · exact returns_vanishedSince_allQuiet snapshot _
  · exact fun r hr ↦ absurd hr List.not_mem_nil

theorem returns_fetchLoop (uidonly uid : Bool) (snapshot : Snapshot) (sequence : SequenceSet)
    (saved : List ℕ) (items : List FetchItem) (changedSince : Option ℕ) (numbers : List ℕ) :
    (Session.fetchLoop uidonly uid snapshot sequence saved items changedSince numbers).Returns
      fun r ↦ ∀ responses ∈ r, AllQuiet responses := by
  induction numbers with
  | nil =>
    rintro _ ⟨⟩ r hr
    cases hr
  | cons n rest ih =>
    rw [Session.fetchLoop]
    split
    · exact ih
    · split
      · exact ih
      · refine .bind (.trivial _) fun data _ ↦ ?_
        cases data with
        | none => exact fun _ h ↦ by cases h
        | some data =>
          refine .bind ih fun r hr ↦ ?_
          cases r with
          | none => exact fun _ h ↦ by cases h
          | some responses =>
            rintro _ ⟨⟩ r hmem
            rcases List.mem_cons.1 hmem with rfl | hmem
            · split <;> rfl
            · exact hr responses rfl r hmem

theorem tracks_fetch (hs : s.pendingAppend = none) (tag : Text) (sequence : SequenceSet)
    (items : List FetchItem) (uid : Bool) (changedSince : Option ℕ) (vanished : Bool) :
    Followed s (s.fetch tag sequence items uid changedSince vanished) := by
  rw [Session.fetch]
  split
  · exact .refused hs
  · refine .bind (returns_fetchVanished _ _ _) fun earlier hearlier ↦ ?_
    refine .bind (returns_fetchLoop _ _ _ _ _ _ _ _) fun r hr ↦ ?_
    cases r with
    | none => exact .refused hs
    | some responses =>
      refine .same (pendingSelected_of_none hs) ?_
      exact (hearlier.append (hr responses rfl)).append (.tagged _ _ _)

/-! ## STORE -/

theorem storeResponse_allQuiet (uidonly : Bool) (args : Session.StoreArgs) (n : ℕ) (uid : UInt32)
    (stored : List Flag) (modseq : Option ℕ) :
    AllQuiet (Session.storeResponse uidonly args n uid stored modseq) := by
  intro r hr
  unfold Session.storeResponse at hr
  generalize (if args.unchangedSince.isSome then _ else _ : List FetchData) = data at hr
  dsimp only at hr
  split at hr
  · cases hr
  · split at hr <;>
    · rw [List.mem_singleton.1 hr]
      rfl

/-- A STORE keeps the messages of the snapshot, whatever becomes of their flags. -/
theorem returns_storeLoop (uidonly : Bool) (args : Session.StoreArgs) (saved : List ℕ) (total : ℕ)
    (numbers : List ℕ) (snapshot : Snapshot) :
    (Session.storeLoop uidonly args saved total numbers snapshot).Returns fun r ↦
      r.2.ids = snapshot.ids ∧ ∀ result ∈ r.1, AllQuiet result.1 := by
  induction numbers generalizing snapshot with
  | nil =>
    refine ⟨rfl, ?_⟩
    rintro _ ⟨⟩ r hr
    cases hr
  | cons n rest ih =>
    rw [Session.storeLoop]
    split
    · exact ih snapshot
    · split
      · exact ih snapshot
      · split
        · refine .bind (ih snapshot) fun r hr ↦ ⟨hr.1, fun result hresult ↦ ?_⟩
          obtain ⟨result', hresult', rfl⟩ := Option.map_eq_some_iff.1 hresult
          exact hr.2 result' hresult'
        · refine .bind (returns_inMailbox _ (returns_storeFlags_ids _ _ _)) fun r hr ↦ ?_
          obtain ⟨stored, left⟩ := r
          cases stored with
          | none => exact ⟨hr, fun _ h ↦ by cases h⟩
          | some stored =>
            refine .bind (ih left) fun r' hr' ↦ ⟨hr'.1.trans hr, ?_⟩
            intro result hresult
            obtain ⟨result', hresult', rfl⟩ := Option.map_eq_some_iff.1 hresult
            exact (storeResponse_allQuiet _ _ _ _ _ _).append (hr'.2 result' hresult')

theorem tracks_store (hs : s.pendingAppend = none) (tag : Text) (sequence : SequenceSet)
    (mode : StoreMode) (flagTokens : List Text) (silent uid : Bool) (unchangedSince : Option ℕ) :
    Followed s (s.store tag sequence mode flagTokens silent uid unchangedSince) := by
  rw [Session.store]
  split
  next mailbox snapshot readOnly hstate =>
    split
    · exact .refused hs
    · split
      · exact .refused hs
      · refine .bind (returns_storeLoop _ _ _ _ _ _) fun r hr ↦ ?_
        obtain ⟨result, left⟩ := r
        cases result with
        | none => exact .selected_of_quiet hs hstate hr.1 (.tagged _ _ _)
        | some result =>
          exact .selected_of_quiet hs hstate hr.1 ((hr.2 result rfl).append (.tagged _ _ _))
  next => exact .refused hs

/-! ## COPY and MOVE -/

theorem returns_removeAt_spec (n : ℕ) :
    (snapshot.removeAt n).Returns fun r ↦
      if 0 < n ∧ n ≤ snapshot.messages.length then
        r.1 = true ∧ r.2.messages = snapshot.messages.eraseIdx (n - 1)
      else r = (false, snapshot) := by
  rw [Snapshot.removeAt, Snapshot.indexOf]
  by_cases hn : 0 < n ∧ n ≤ snapshot.messages.length
  · have hpos : 0 < n ∧ n - 1 < snapshot.messages.length := by omega
    simp only [if_pos hn, if_pos hpos, List.getElem?_eq_getElem hpos.2]
    exact .bind (.trivial _) fun _ _ ↦ .bind (.trivial _) fun _ _ ↦ ⟨rfl, rfl⟩
  · have hneg : ¬(0 < n ∧ n - 1 < snapshot.messages.length) := by omega
    simp only [if_neg hn, if_neg hneg]
    rfl

theorem ids_of_eraseIdx {snapshot left : Snapshot} {i : ℕ}
    (h : left.messages = snapshot.messages.eraseIdx i) : left.ids = snapshot.ids.eraseIdx i := by
  rw [Snapshot.ids, Snapshot.ids, h, List.eraseIdx_map]

/-- The messages of a MOVE are all removed, the sequence numbers are right when they are sent, and
the other messages stay. `offset` messages before the remaining ones are gone already. -/
theorem returns_moveLoop {numbers : List ℕ} (hsorted : numbers.Pairwise (· < ·)) (offset : ℕ)
    (snapshot : Snapshot) (hlow : ∀ n ∈ numbers, offset < n)
    (hhigh : ∀ n ∈ numbers, n ≤ snapshot.messages.length + offset ∧ n ≤ u32Max) :
    (Session.moveLoop offset numbers snapshot).Returns fun r ↦
      (r.1 = true ∧ removeAll snapshot.ids r.2.1 = r.2.2.ids) ∧
        ∀ i message, snapshot.messages[i]? = some message → i + 1 + offset ∉ numbers →
          message ∈ r.2.2.messages := by
  induction numbers generalizing offset snapshot with
  | nil => exact ⟨⟨rfl, rfl⟩, fun i message hmessage _ ↦ List.mem_of_getElem? hmessage⟩
  | cons n rest ih =>
    obtain ⟨hn, hrest⟩ := List.pairwise_cons.1 hsorted
    have hlow' := hlow n List.mem_cons_self
    have hhigh' := hhigh n List.mem_cons_self
    have hoffset : offset ≤ u32Max := by omega
    rw [Session.moveLoop, if_pos hoffset]
    refine .bind (returns_removeAt_spec snapshot (n - offset)) fun r hr ↦ ?_
    rw [if_pos (by omega)] at hr
    obtain ⟨removed, left⟩ := r
    obtain ⟨rfl, hleft⟩ : removed = true ∧
      left.messages = snapshot.messages.eraseIdx (n - offset - 1) := hr
    have hlen : left.messages.length + 1 = snapshot.messages.length := by
      rw [hleft, List.length_eraseIdx_of_lt (by omega)]
      omega
    refine .bind (ih hrest (offset + 1) left ?_ ?_) fun r hr ↦ ?_
    · intro m hm
      have := hn m hm
      omega
    · intro m hm
      have := hhigh m (List.mem_cons_of_mem _ hm)
      omega
    · refine ⟨⟨hr.1.1, ?_⟩, fun i message hmessage hi ↦ ?_⟩
      · rw [← hr.1.2, ids_of_eraseIdx hleft]
        rfl
      · have hne : i + 1 + offset ≠ n := fun heq ↦ hi (heq ▸ List.mem_cons_self)
        -- the messages after the removed one move up by one
        by_cases hbefore : i < n - offset - 1
        · refine hr.2 i message ?_ fun hmem ↦ ?_
          · rw [hleft, List.getElem?_eraseIdx_of_lt hbefore, hmessage]
          · have := hn _ hmem
            omega
        · refine hr.2 (i - 1) message ?_ fun hmem ↦ hi (List.mem_cons_of_mem _ ?_)
          · have hle : n - offset - 1 ≤ i - 1 := by omega
            rw [hleft, List.getElem?_eraseIdx_of_ge hle, Nat.sub_add_cancel (by omega), hmessage]
          · have hshift : i - 1 + 1 + (offset + 1) = i + 1 + offset := by omega
            rwa [hshift] at hmem

theorem matching_fst_sublist (sequence : SequenceSet) (uid : Bool)
    (saved : List ℕ) :
    ((Session.matching snapshot sequence uid saved).map Prod.fst).Sublist
      snapshot.sequenceNumbers := by
  rw [Session.matching]
  induction snapshot.sequenceNumbers with
  | nil => exact .slnil
  | cons n rest ih =>
    rw [List.filterMap_cons]
    cases h : (snapshot.bySequence n).bind fun message ↦
        if sequence.contains (selector uid n message) snapshot.total saved then some (n, message)
        else none with
    | none => exact ih.cons n
    | some p =>
      obtain ⟨message, -, hp⟩ := Option.bind_eq_some_iff.1 h
      split at hp
      · obtain rfl := Option.some.inj hp
        exact ih.cons_cons n
      · cases hp

theorem mem_sequenceNumbers {snapshot : Snapshot} (h : n ∈ snapshot.sequenceNumbers) :
    0 < n ∧ n ≤ snapshot.messages.length ∧ n ≤ u32Max := by
  obtain ⟨i, hi, rfl⟩ := List.mem_map.1 h
  rw [List.mem_range, Snapshot.total] at hi
  omega

theorem returns_moveLoop_matching (snapshot : Snapshot) (sequence : SequenceSet) (uid : Bool)
    (saved : List ℕ) :
    let numbers := (Session.matching snapshot sequence uid saved).map Prod.fst
    (Session.moveLoop 0 numbers snapshot).Returns fun r ↦
      (r.1 = true ∧ removeAll snapshot.ids r.2.1 = r.2.2.ids) ∧
        ∀ i message, snapshot.messages[i]? = some message → i + 1 ∉ numbers →
          message ∈ r.2.2.messages := by
  have hsub := matching_fst_sublist snapshot sequence uid saved
  have hsorted : snapshot.sequenceNumbers.Pairwise (· < ·) := by
    rw [Snapshot.sequenceNumbers, List.pairwise_map]
    exact List.pairwise_lt_range.imp fun h ↦ Nat.succ_lt_succ h
  exact returns_moveLoop (hsorted.sublist hsub) 0 snapshot
    (fun n hn ↦ (mem_sequenceNumbers (hsub.subset hn)).1)
    fun n hn ↦ (mem_sequenceNumbers (hsub.subset hn)).2

section

variable (hs : s.pendingAppend = none)
include hs

theorem tracks_copy (huid : s.uidonly = false) (env : Env) (tag : Text) (sequence : SequenceSet)
    (target : Text) (uid removeSource : Bool) :
    Followed s (s.copy env tag sequence target uid removeSource) := by
  rw [Session.copy]
  split
  next mailbox snapshot readOnly hstate =>
    split
    · exact .refused hs
    · refine .bind (.trivial _) fun found _ ↦ ?_
      split
      · refine .bind (.trivial _) fun copied _ ↦ ?_
        cases copied with
        | error error => exact .refused hs
        | ok destIds =>
          refine .bind (.trivial _) fun code _ ↦ ?_
          split
          · refine .bind (returns_inMailbox _ (returns_moveLoop_matching _ _ _ _)) fun r hr ↦ ?_
            obtain ⟨done, sent, left⟩ := r
            obtain ⟨⟨rfl, hids⟩, -⟩ := hr
            refine Tracks.selected hs hstate ?_
            change List.foldl _ _ (_ ++ [_]) = _
            rw [receive_append_tagged, expungeResponse, huid, if_neg Bool.false_ne_true,
              foldl_receive_expunge, hids]
          · exact .refused hs
      · exact .refused hs
  next => exact .refused hs

/-! ## Commands that leave the snapshot alone -/

theorem tracks_mailboxOp (tag : Text) (verb : String) (operation : AccountM (Except Text Unit)) :
    Followed s (s.mailboxOp tag verb operation) := by
  unfold Session.mailboxOp
  split
  · exact .refused hs
  · refine .bind (.trivial _) fun r _ ↦ ?_
    cases r <;> exact .refused hs

theorem tracks_leave (tag : Text) (completed : String) : Followed s (s.leave tag completed) := by
  unfold Session.leave
  split
  · exact ⟨rfl, pendingSelected_of_none hs, nofun⟩
  · exact .refused hs

theorem tracks_idle (tag : Text) : Followed s (s.idle tag) := by
  unfold Session.idle
  split
  · exact .refused hs
  · exact ⟨rfl, pendingSelected_of_none hs, fun after hafter ↦ ⟨after, hafter, rfl⟩⟩

section

variable (tag mailbox : Text) (flagTokens : List Text) (size : ℕ)

theorem tracks_beginLiteral {replace : Option (Text × ℕ)} (hreplace : ∀ selected sequence, replace =
    some (selected, sequence) → ∃ snapshot readOnly, s.state = .selected selected snapshot readOnly)
    : Followed s (s.beginLiteral tag mailbox flagTokens size replace) := by
  refine .bind (.trivial _) fun found _ ↦ ?_
  split
  · refine .bind (.trivial _) fun usage _ ↦ ?_
    split
    · exact .refused hs
    · split
      · exact .refused hs
      · refine ⟨rfl, ?_, fun after hafter ↦ ⟨after, hafter, rfl⟩⟩
        rintro pending ⟨⟩ selected sequence hpending
        exact hreplace selected sequence hpending
  · exact .refused hs

theorem tracks_appendBegin : Followed s (s.appendBegin tag mailbox flagTokens size) := by
  unfold Session.appendBegin
  split
  · exact .refused hs
  · exact tracks_beginLiteral hs _ _ _ _ nofun

end

theorem tracks_replaceBegin (tag : Text) (sequence : ℕ) (mailbox : Text) (flagTokens : List Text)
    (size : ℕ) (uid : Bool) :
    Followed s (s.replaceBegin tag sequence mailbox flagTokens size uid) := by
  unfold Session.replaceBegin
  split
  next selected snapshot readOnly hstate =>
    split
    · exact .refused hs
    · split
      · exact .refused hs
      next seq _ =>
        refine tracks_beginLiteral hs _ _ _ _ fun mailbox' sequence' h ↦ ?_
        obtain ⟨rfl, rfl⟩ := Prod.ext_iff.1 (Option.some.inj h)
        exact ⟨snapshot, readOnly, hstate⟩
  next => exact .refused hs

end

/-! ## SELECT -/

/-- A SELECT tells a client without a list all it needs, or leaves the session as it was. -/
structure Selects (s : Session) (responses : List Response) (s' : Session) : Prop where
  uidonly : s'.uidonly = s.uidonly
  pending : s'.pendingAppend = s.pendingAppend
  view : AllQuiet responses ∧ s' = s ∨ ¬AllQuiet responses ∧ ∃ after, s'.snapshot? = some after ∧
    responses.foldl (receive after.ids) [] = after.ids

theorem selects_select (s : Session) (env : Env) (tag mailbox : Text) (readOnly : Bool)
    (qresync : Option (UInt32 × ℕ)) :
    (s.select env tag mailbox readOnly qresync).Returns fun r ↦ Selects s r.1.responses r.2 := by
  have hrefused : ∀ text, Selects s [.tagged tag .no text] s := fun text ↦
    ⟨rfl, rfl, .inl ⟨.tagged _ _ _, rfl⟩⟩
  unfold Session.select
  split
  · exact hrefused _
  · refine .bind (.trivial _) fun found _ ↦ ?_
    split
    · refine .bind (.trivial _) fun opened _ ↦ ?_
      cases opened with
      | none => exact hrefused _
      | some snapshot =>
        have hvanished : (Session.selectVanished snapshot qresync).Returns AllQuiet := by
          unfold Session.selectVanished
          split
          · split
            · exact returns_vanishedSince_allQuiet snapshot _
            · exact fun r hr ↦ absurd hr List.not_mem_nil
          · exact fun r hr ↦ absurd hr List.not_mem_nil
        refine .bind hvanished fun vanished hquiet ↦ ?_
        refine ⟨rfl, rfl, .inr ⟨fun h ↦ ?_, snapshot, rfl, ?_⟩⟩
        · exact absurd (h (.existing snapshot.messages.length) List.mem_cons_self) (by simp [quiet])
        · change List.foldl _ [] (Session.selectResponses snapshot ++ vanished ++ [_]) = _
          rw [receive_append_tagged, List.foldl_append, foldl_receive_of_quiet hquiet]
          simp [Session.selectResponses, receive, Snapshot.ids, List.take_of_length_le]
    · exact hrefused _

/-! ## IDLE -/

/-- EXISTS alone is right when messages have only been added at the end. -/
theorem receive_existing_of_prefix (h : view <+: live) :
    receive live view (.existing live.length) = live := by
  obtain ⟨rest, rfl⟩ := h
  rw [receive, List.drop_left, List.length_append, Nat.add_sub_cancel_left, List.take_length,
    List.take_of_length_le (Nat.le_add_right _ _)]

variable {w : World} {a : Account} {command : Session.Command} {e : Event}

theorem tracks_checkIdle (hs : w.session.pendingAppend = none) (hsteady : Steady w (.poll env)) :
    let r := (w.session.checkIdle env).run Account.exec w.account
    Tracks w.session (r.1.1.elim [] Output.responses) r.1.2 := by
  have hsame : Tracks w.session [] w.session :=
    .same (pendingSelected_of_none hs) fun r hr ↦ absurd hr List.not_mem_nil
  unfold Session.checkIdle
  split
  next mailbox snapshot readOnly _ hstate =>
    rw [Session.openSnapshot, Prog.run_bind]
    cases hpath : mailboxDir mailbox with
    | none =>
      rw [openMailbox, hpath]
      exact hsame
    | some path =>
      obtain ⟨fresh, a, hrun, -, hids, hvalidity, -⟩ := run_openMailbox hpath w.session.crypto
        w.session.retentionDays env.clock w.account
      have hlive : (mailbox, snapshot) ∈ selected? w.session := by
        rw [selected?, hstate]
        rfl
      have hinit := hsteady (mailbox, snapshot) hlive path hpath
      have hlen : fresh.messages.length = (w.account.shown path).length := by
        rw [← hids, Snapshot.ids, List.length_map]
      rw [hrun]
      dsimp only
      split
      next hchanged =>
        rw [hvalidity, hlen] at hchanged
        have hview := receive_existing_of_prefix (hinit hchanged)
        rw [← hids] at hview
        refine Tracks.selected hs hstate ?_
        rw [hlen, ← hids]
        exact hview
      next => exact hsame
  next => exact hsame

/-! ## The literals of APPEND and REPLACE -/

section

variable (mailbox : Text) (id : Uuid) (clock : SystemTime) (a : Account)

theorem run_appenduidCode :
    ((Session.appenduidCode mailbox id clock).run Account.exec a).2 =
      ((openMailbox .disabled mailbox 0 clock).run Account.exec a).2 := by
  rw [Session.appenduidCode, Prog.run_bind, appenduid, Prog.run_bind]
  generalize (openMailbox .disabled mailbox 0 clock).run Account.exec a = r
  obtain ⟨opened, a'⟩ := r
  cases opened with
  | none => rfl
  | some snapshot =>
    dsimp only
    cases snapshot.messages.find? fun message ↦ message.id == id <;> rfl

theorem shown_appenduidCode (path : Path) :
    ((Session.appenduidCode mailbox id clock).run Account.exec a).2.shown path = a.shown path := by
  rw [run_appenduidCode]
  cases hmailbox : mailboxDir mailbox with
  | none =>
    rw [openMailbox, hmailbox]
    rfl
  | some opened =>
    obtain ⟨_, a', heq, -, -, -, hshown⟩ := run_openMailbox hmailbox .disabled 0 clock a
    rw [heq]
    exact hshown path

end

/-- The end of a REPLACE, in an account that shows what the live snapshot shows but for the message
that is replaced. -/
theorem tracks_replaceExpunge (hs : s.pendingAppend = none) {selected : Text}
    {snapshot : Snapshot} {readOnly : Bool} (hstate : s.state =
      .selected selected snapshot readOnly)
    (env : Env) (tag : Text) (sequence : ℕ) (code : Text)
    (h : ∀ path ∈ mailboxDir selected, sequence ≤ (a.shown path).length →
      (a.shown path).eraseIdx (sequence - 1) = snapshot.ids.eraseIdx (sequence - 1)) :
    let r := (s.replaceExpunge env tag selected sequence code).run Account.exec a
    Tracks s r.1.1.responses r.1.2 := by
  rw [Session.replaceExpunge, Session.openSnapshot, Prog.run_bind]
  cases hpath : mailboxDir selected with
  | none =>
    rw [openMailbox, hpath]
    exact .refused hs
  | some path =>
    obtain ⟨fresh, a', hrun, -, hids, -, -⟩ := run_openMailbox hpath s.crypto s.retentionDays
      env.clock a
    rw [hrun]
    dsimp only
    rw [Prog.run_bind]
    have hspec := (returns_inMailbox fresh.path
      (returns_removeAt_spec fresh sequence)).run Account.exec a'
    generalize (inMailbox fresh.path (fresh.removeAt sequence)).run Account.exec a' = r at hspec
    obtain ⟨⟨removed, left⟩, a''⟩ := r
    dsimp only at hspec ⊢
    split at hspec
    next hrange =>
      obtain ⟨rfl, hleft⟩ := hspec
      have hlen : sequence ≤ (a.shown path).length := by
        rw [← hids, Snapshot.ids, List.length_map]
        exact hrange.2
      have hview := h path hpath hlen
      have hrefresh :
        s.refresh selected left = { s with state := .selected selected left readOnly } := by
        rw [Session.refresh, hstate]
        exact if_pos rfl
      rw [if_pos rfl, Prog.pure_eq_ret, Prog.run_ret, hrefresh]
      refine Tracks.selected hs hstate ?_
      change snapshot.ids.eraseIdx (sequence - 1) = left.ids
      rw [ids_of_eraseIdx hleft, hids, hview]
    next =>
      obtain rfl : removed = false := congrArg Prod.fst hspec
      exact .refused hs

theorem tracks_literalDone {data : List UInt8}
    (hpending : PendingSelected w.session) (hsteady : Steady w (.literal env data)) :
    let r := (w.session.literalDone env data).run Account.exec w.account
    Tracks w.session r.1.1.responses r.1.2 := by
  unfold Session.literalDone
  split
  next hnone =>
    refine .same (pendingSelected_of_none hnone) fun r hr ↦ ?_
    rw [List.mem_singleton.1 hr]
    rfl
  next pending hsome =>
    -- the session from which the rest of the handler goes on
    let s := { w.session with pendingAppend := none }
    suffices h : ∀ r : (Output × Session) × Account, Tracks s r.1.1.responses r.1.2 →
        Tracks w.session r.1.1.responses r.1.2 by
      apply h
      have hsame : PendingSelected s := pendingSelected_of_none rfl
      dsimp only
      split
      · exact .tagged hsame _ _ _
      · rw [Prog.run_bind]
        have haccount : ((appendTo w.session.crypto pending.mailbox pending.flags data
            (env.stamp 0)).run Account.exec w.account).2 = appended w env data pending := rfl
        rw [haccount]
        generalize ((appendTo w.session.crypto pending.mailbox pending.flags data
          (env.stamp 0)).run Account.exec w.account).1 = stored
        cases stored with
        | none => exact .tagged hsame _ _ _
        | some id =>
          rw [Prog.run_bind]
          split
          · exact .tagged hsame _ _ _
          next selected sequence hreplace =>
            obtain ⟨snapshot, readOnly, hstate⟩ := hpending pending hsome selected sequence hreplace
            refine tracks_replaceExpunge (s := s) rfl hstate env _ _ _ fun path hpath ↦ ?_
            rw [shown_appenduidCode]
            have hlive : w.session.ids = snapshot.ids := by
              rw [Session.ids, Session.snapshot?, hstate, Option.elim_some]
            rw [← hlive]
            exact hsteady pending hsome (selected, sequence) hreplace path hpath
    exact fun r h ↦ ⟨h.uidonly, h.pending, h.view⟩

/-! ## Runs -/

structure Inv (w : World) : Prop where
  uidonly : w.session.uidonly = false
  pending : PendingSelected w.session
  view : ∀ snapshot, w.session.snapshot? = some snapshot → w.view = snapshot.ids

/-- A command other than SELECT and EXAMINE. -/
theorem tracks_handle (hs : s.pendingAppend = none) (huid : s.uidonly = false) (env : Env)
    (tag : Text) (hselects : (Event.command env tag command).selects = false)
    (hlen : expunges command = true → s.ids.length ≤ u32Max) :
    Followed s (s.handle env tag command) := by
  cases command with
  | noop => exact .refused hs
  | select mailbox qresync | examine mailbox qresync => cases hselects
  | close | unselect => exact tracks_leave hs _ _
  | create mailbox | delete mailbox | rename source target => exact tracks_mailboxOp hs _ _ _
  | expunge | uidExpunge sequence =>
    exact tracks_expungeWith hs huid (hlen rfl) _
      (fun snapshot h ↦ returns_expungeWhere_removeAll snapshot _ h) _
  | idle => exact tracks_idle hs _
  | append mailbox flags size => exact tracks_appendBegin hs _ _ _ _
  | replace sequence mailbox flags size uid => exact tracks_replaceBegin hs _ _ _ _ _ _
  | fetch sequence items uid changedSince vanished => exact tracks_fetch hs _ _ _ _ _ _
  | store sequence mode flags silent uid unchangedSince => exact tracks_store hs _ _ _ _ _ _ _
  | copy sequence mailbox uid removeSource => exact tracks_copy hs huid _ _ _ _ _ _

theorem Inv.of_tracks (hw : Inv w) {responses : List Response} {s : Session}
    (h : Tracks w.session responses s) :
    Inv ⟨a, s, responses.foldl (receive s.ids) w.view⟩ where
  uidonly := h.uidonly.trans hw.uidonly
  pending := h.pending
  view := by
    intro after hafter
    obtain ⟨before, hbefore, hview⟩ := h.view after hafter
    have hlive : s.ids = after.ids := by
      rw [Session.ids, hafter, Option.elim_some]
    dsimp only
    rw [hlive, hw.view before hbefore, hview]

theorem tracks_apply (hs : s.pendingAppend = none) (huid : s.uidonly = false) (env : Env)
    (tag : Text) (hselects : (Event.command env tag command).selects = false)
    (hlen : expunges command = true → s.ids.length ≤ u32Max) :
    Followed s (s.apply env tag command) := by
  rw [Session.apply]
  split
  · exact .refused hs
  · exact tracks_handle hs huid env tag hselects hlen

theorem selects_apply (s : Session) (env : Env) (tag : Text)
    (hselects : (Event.command env tag command).selects = true) :
    (s.apply env tag command).Returns fun r ↦ Selects s r.1.responses r.2 := by
  have hrefusal : s.refusal command = none := by
    cases command with
    | select mailbox qresync =>
      simp [Session.refusal, Session.sequenceCommand, Session.dollarCommand]
    | examine mailbox qresync =>
      simp [Session.refusal, Session.sequenceCommand, Session.dollarCommand]
    | _ => cases hselects
  rw [Session.apply, hrefusal]
  cases command with
  | select mailbox qresync => exact selects_select s env tag mailbox false qresync
  | examine mailbox qresync => exact selects_select s env tag mailbox true qresync
  | _ => cases hselects

theorem all_quiet_iff {responses : List Response} :
    responses.all quiet = true ↔ AllQuiet responses := List.all_eq_true

/-- A SELECT that is answered starts a new list; one that is refused changes nothing. -/
theorem Inv.of_selects (hw : Inv w) (hs : w.session.pendingAppend = none)
    (he : e.selects = true) {responses : List Response} {s : Session}
    (h : Selects w.session responses s) :
    Inv ⟨a, s, responses.foldl (receive s.ids) (startView e responses w.view)⟩ where
  uidonly := h.uidonly.trans hw.uidonly
  pending := pendingSelected_of_none (h.pending.trans hs)
  view := by
    intro after hafter
    dsimp only
    rcases h.view with ⟨hquiet, rfl⟩ | ⟨hquiet, snapshot, hsnapshot, hview⟩
    · rw [startView, he, all_quiet_iff.2 hquiet, foldl_receive_of_quiet hquiet]
      exact hw.view after hafter
    · obtain rfl : snapshot = after := Option.some.inj (hsnapshot.symm.trans hafter)
      have hnot : responses.all quiet = false := by
        rw [← Bool.not_eq_true, all_quiet_iff]
        exact hquiet
      rw [startView, he, hnot, Session.ids, hafter, Option.elim_some]
      exact hview

theorem startView_of_not_selects (he : e.selects = false) (responses : List Response)
    (view : List Uuid) : startView e responses view = view := by
  rw [startView, he]
  rfl

theorem pendingAppend_of_phase (h : phase s ≠ .literal) : s.pendingAppend = none := by
  rw [phase] at h
  split at h
  · exact absurd rfl h
  next hnone => exact Option.not_isSome_iff_eq_none.1 hnone

theorem Inv.step (hw : Inv w) (henabled : machine.enabled w e)
    (hsteady : Steady w e) : Inv (machine.step w e) := by
  cases e with
  | command env tag command =>
    have hphase : phase w.session = .command := henabled _ rfl
    have hs := pendingAppend_of_phase (s := w.session) (by rw [hphase]; nofun)
    cases he : (Event.command env tag command).selects with
    | true => exact hw.of_selects hs he ((selects_apply w.session env tag he).run Account.exec _)
    | false =>
      have htracks := (tracks_apply hs hw.uidonly env tag he hsteady).run Account.exec w.account
      rw [machine]
      dsimp only
      rw [startView_of_not_selects he]
      exact hw.of_tracks htracks
  | literal env data => exact hw.of_tracks (tracks_literalDone hw.pending hsteady)
  | poll env =>
    have hphase : phase w.session = .idling := henabled _ rfl
    have hs := pendingAppend_of_phase (s := w.session) (by rw [hphase]; nofun)
    exact hw.of_tracks (tracks_checkIdle hs hsteady)
  | done =>
    have htracks : Tracks w.session w.session.idleDone.1.responses w.session.idleDone.2 := by
      rw [Session.idleDone]
      split
      · exact ⟨rfl, hw.pending, fun after hafter ↦ ⟨after, hafter, rfl⟩⟩
      · exact .same hw.pending fun r hr ↦ by rw [List.mem_singleton.1 hr]; rfl
    exact hw.of_tracks htracks
  | others change => exact ⟨hw.uidonly, hw.pending, hw.view⟩

/-- The client's list as the invariant has it, number by number. -/
theorem Inv.synced (hw : Inv w) : Synced w := by
  intro snapshot hsnapshot
  rw [hw.view snapshot hsnapshot]
  refine ⟨List.length_map _, fun n hn ↦ ?_⟩
  rw [Snapshot.bySequence, if_pos hn, Snapshot.ids, List.getElem?_map]

/-- A session that has logged in and selected nothing yet. -/
structure Fresh (s : Session) : Prop where
  state : s.state = .authenticated
  pending : s.pendingAppend = none
  idle : s.idleTag = none
  uidonly : s.uidonly = false

/-- In every run whose events are all steady, the client and the session agree on every sequence
number, whatever other sessions do to the account. -/
theorem synced_of_steady {a : Account} {s : Session} (hs : Fresh s) {view : List Uuid} {w : World}
    (h : machine.Reach Steady ⟨a, s, view⟩ w) : Synced w := by
  refine (h.invariant (I := Inv) ?_ fun _ _ hw henabled hsteady ↦ hw.step henabled hsteady).synced
  refine ⟨hs.uidonly, pendingSelected_of_none hs.pending, fun snapshot hsnapshot ↦ ?_⟩
  rw [Session.snapshot?, hs.state] at hsnapshot
  cases hsnapshot

/-! ## Runs of one client -/

open Session (loggedIn)

def delivery (t : ℕ) : Event :=
  .others fun a ↦ ((deliverTo .disabled none [65] [] ((envAt t).stamp 0)).run Account.exec a).2

/-- Another session opens the INBOX and removes its first message. -/
def removal (t : ℕ) : Event :=
  .others fun a ↦
    let r := (openMailbox .disabled "INBOX".toList 0 ⟨t, 0⟩).run Account.exec a
    ((inMailbox .inbox ((r.1.getD .empty).removeAt 1)).run Account.exec r.2).2

def line (t : ℕ) (command : Session.Command) : Event := .command (envAt t) "a".toList command

/-- The client selects an INBOX with one message and idles; another message arrives and is
announced; the client marks the first one as deleted and expunges it. -/
def steadyRun : List Event :=
  [delivery 10, line 20 (.select "INBOX".toList none), line 21 .idle, delivery 30, .poll (envAt 40),
    .done, line 50 (.store ⟨[(1, none)], false⟩ .add ["\\Deleted".toList] false false none),
    line 51 .expunge]

def after (events : List Event) : World := events.foldl machine.step ⟨.empty, loggedIn, []⟩

theorem synced_after_steadyRun :
    Fresh loggedIn ∧ machine.Reach Steady ⟨.empty, loggedIn, []⟩ (after steadyRun) ∧
      (after steadyRun).session.ids = [.ofNat 30] ∧ Synced (after steadyRun) := by
  have hfresh : Fresh loggedIn := ⟨rfl, rfl, rfl, rfl⟩
  have hreach : machine.Reach Steady ⟨.empty, loggedIn, []⟩ (after steadyRun) :=
    .of_passes (by decide)
  exact ⟨hfresh, hreach, by decide, synced_of_steady hfresh hreach⟩

/-- Two messages; the client selects the INBOX and idles; the first message is removed by another
session and the mailbox is polled. -/
def idleRun : List Event :=
  [delivery 10, delivery 11, line 20 (.select "INBOX".toList none), line 21 .idle, removal 30,
    .poll (envAt 40)]

/-- One message, which the client replaces by another in the same mailbox. -/
def replaceRun : List Event :=
  [delivery 10, line 20 (.select "INBOX".toList none),
    line 21 (.replace 1 "INBOX".toList [] 1 false), .literal (envAt 30) [66]]

theorem not_synced_of_ne (hn : 0 < n) (h : (w.session.snapshot?.any fun snapshot ↦
      decide (w.view[n - 1]? ≠ (snapshot.bySequence n).map MessageRef.id)) = true) : ¬Synced w := by
  intro hsynced
  rw [Option.any_eq_true] at h
  obtain ⟨snapshot, hsnapshot, hne⟩ := h
  exact of_decide_eq_true hne ((hsynced snapshot hsnapshot).2 n hn)

/-- After the poll of `idleRun` the client takes the removed message for the first one; after
`replaceRun` it takes the mailbox for empty. -/
theorem idle_replace_not_synced :
    (machine.Reach (fun _ _ ↦ True) ⟨.empty, loggedIn, []⟩ (after idleRun) ∧
      ¬Synced (after idleRun)) ∧
    machine.Reach (fun _ _ ↦ True) ⟨.empty, loggedIn, []⟩ (after replaceRun) ∧
      ¬Synced (after replaceRun) := by
  refine ⟨⟨.of_passes (by decide), ?_⟩,
    .of_passes (by decide), ?_⟩
  · exact not_synced_of_ne (n := 1) Nat.one_pos (by decide)
  · exact not_synced_of_ne (n := 1) Nat.one_pos (by decide)

end SequenceSync

end Epistle.Imap
