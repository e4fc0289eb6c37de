import Epistle.Queue.Attempts

/-!
# Runs of the queue

The queue is a machine whose events are visits to entries and new entries. A pass is a row of visits
(`reach_pass`); new entries may come between any two of them. A visit leaves other entries alone.
-/

namespace Epistle.Queue

open TextFormat Storage Interleaving

variable {p : Smtp.Primitives} {w : Worker} {v : Visit}

/-! ## The machine -/

/-- The entry that something has happened to. -/
def Happening.id : Happening → Uuid
  | .conversation c => c.id
  | .report r => r.id
  | .mark m => m.id

inductive Event
  | visit (now : ℕ) (v : Visit) (id : Uuid)
  | store (id : Uuid) (message : Smtp.AcceptedMessage)

/-- An entry that is visited is in the spool, and a new one has a new id. -/
def State.allows (q : State) : Event → Prop
  | .visit _ _ id => (q.spool.load id).isSome = true
  | .store id _ => q.spool.load id = none ∧ ∀ happening ∈ q.history, happening.id ≠ id

instance (q : State) : ∀ event, Decidable (q.allows event)
  | .visit _ _ _ | .store _ _ => by dsimp only [State.allows]; infer_instance

def machine (p : Smtp.Primitives) (w : Worker) : Machine State Event where
  enabled := State.allows
  step := fun q event ↦
    match event with
    | .visit now v id => (visitEntry p w v now id q).1
    | .store id message => { q with spool := q.spool.store id message }

instance (q : State) (event : Event) : Decidable ((machine p w).enabled q event) :=
  inferInstanceAs (Decidable (q.allows event))

/-! ## What a visit does to the spool -/

/-- The entries but one are the same. -/
def Frame (id : Uuid) (q q' : State) : Prop :=
  ∀ other, other ≠ id → q'.spool.load other = q.spool.load other

variable {id : Uuid} {q : State} {now : ℕ} {entry : SpoolEntry}

/-- What visits to an entry do to the spool: they rewrite it, leaving the message the same, or
remove it. -/
inductive Touches (id : Uuid) (spool : Spool) : Spool → Prop
  | refl : Touches id spool spool
  | remove {spool' : Spool} (h : Touches id spool spool') : Touches id spool (spool'.remove id)
  | rewrite {spool' : Spool} (h : Touches id spool spool') {f : Envelope → Envelope}
      (hf : ∀ entry : SpoolEntry, entry.SameMessage { entry with envelope := f entry.envelope }) :
      Touches id spool (spool'.rewrite id f)

section

variable {spool spool' : Spool} (h : Touches id spool spool')
include h

theorem Touches.load_of_ne {other : Uuid} (hne : other ≠ id) :
    spool'.load other = spool.load other := by
  induction h with
  | refl => rfl
  | remove _ ih => rw [Spool.load_remove, if_neg hne, ih]
  | rewrite _ hf ih =>
    rw [Spool.load_rewrite fun envelope ↦ (hf ⟨envelope, []⟩).id, ih]
    simp [hne]

theorem Touches.sameMessage {other : Uuid} {entry' : SpoolEntry}
    (hload : spool'.load other = some entry') :
    ∃ entry, spool.load other = some entry ∧ entry.SameMessage entry' := by
  induction h generalizing entry' with
  | refl => exact ⟨entry', hload, .refl entry'⟩
  | remove _ ih =>
    rw [Spool.load_remove] at hload
    split at hload
    · cases hload
    · exact ih hload
  | rewrite _ hf ih =>
    obtain ⟨old, hold, hcases⟩ :=
      Spool.load_rewrite_cases (fun envelope ↦ (hf ⟨envelope, []⟩).id) hload
    obtain ⟨entry, hentry, hsame⟩ := ih hold
    refine ⟨entry, hentry, hsame.trans ?_⟩
    rcases hcases with rfl | ⟨-, rfl⟩
    · exact .refl _
    · exact hf old

theorem Touches.ids_sublist :
    (spool'.map (·.envelope.id)).Sublist (spool.map (·.envelope.id)) := by
  induction h with
  | refl => exact .refl _
  | remove _ ih => exact (List.filter_sublist.map _).trans ih
  | rewrite _ hf ih => rwa [Spool.ids_rewrite fun envelope ↦ (hf ⟨envelope, []⟩).id]

end

section

variable {spool : Spool} (h : Touches id spool q.spool)
include h

theorem Touches.removeEntry (delivered : Bool) :
    Touches id spool (removeEntry v id delivered q).1.spool := by
  unfold Queue.removeEntry
  split
  · exact h.remove
  · exact h.remove
  · exact h

theorem Touches.warnDelayed (reason : Text) :
    Touches id spool (warnDelayed p w v id reason q).spool := by
  unfold Queue.warnDelayed
  split
  · exact h
  · split
    · exact h
    · rename_i entry _ _
      rw [← (quiet_report (p := p) (w := w) (v := v) .delayed id entry reason q).spool] at h
      dsimp only
      split
      · exact h.rewrite fun _ ↦ ⟨rfl, rfl, rfl, rfl, rfl, rfl⟩
      · exact h

end

/-- What is in the spool when an attempt is recorded. -/
def recorded (v : Visit) (now : ℕ) (id : Uuid) (q : State) : State :=
  if v.io .record then
    { q with spool := q.spool.recordAttempt id (backoffUntil now
      ((((v.load .prior id q).map (·.envelope.attempts)).getD 0 + 1) % 2 ^ 32)) }
  else q

section

variable (now : ℕ) (id : Uuid)

theorem retryEntry_eq (reason : Text) (q : State) :
    retryEntry p w v now id reason q =
      if v.messageAge now ≥ w.maxAgeSecs then
        removeEntry v id false (bounce p w v id reason (recorded v now id q))
      else if v.messageAge now ≥ delayWarningSecs then
        (warnDelayed p w v id reason (recorded v now id q), some false)
      else (recorded v now id q, some false) := rfl

theorem touches_retryEntry (reason : Text) (q : State) :
    Touches id q.spool (retryEntry p w v now id reason q).1.spool := by
  have hrecorded : Touches id q.spool (recorded v now id q).spool := by
    unfold recorded
    split
    · exact Touches.refl.rewrite fun _ ↦ ⟨rfl, rfl, rfl, rfl, rfl, rfl⟩
    · exact .refl
  rw [retryEntry_eq]
  split
  · refine .removeEntry ?_ false
    rwa [(quiet_bounce _ _ _).spool]
  · split
    · exact hrecorded.warnDelayed reason
    · exact hrecorded

end

def State.held (conversations : List Conversation) (q : State) : State :=
  { q with history := q.history ++ conversations.map .conversation }

theorem State.held_history (conversations : List Conversation) (q : State) :
    (q.held conversations).history = q.history ++ conversations.map .conversation := rfl

theorem visitEntry_notDue (h : v.notDue now id q = true) :
    visitEntry p w v now id q = (q, some false) := if_pos h

/-- A visit to an entry that is due: the attempt, and what its outcome calls for. -/
theorem visitEntry_due (h : v.notDue now id q = false) :
    visitEntry p w v now id q =
      match (deliverEntry p w v id q).2 with
      | .delivered => removeEntry v id true (q.held (deliverEntry p w v id q).1)
      | .dropped reason => removeEntry v id false
          (suppressEntry p w v id (bounce p w v id reason (q.held (deliverEntry p w v id q).1)))
      | .suppressed => removeEntry v id false (q.held (deliverEntry p w v id q).1)
      | .retry reason => retryEntry p w v now id reason (q.held (deliverEntry p w v id q).1) := by
  unfold visitEntry
  rw [h]
  rfl

/-- **What a visit does to the spool.** -/
theorem touches_visitEntry (now : ℕ) (id : Uuid) (q : State) :
    Touches id q.spool (visitEntry p w v now id q).1.spool := by
  have hheld : ∀ conversations, Touches id q.spool (q.held conversations).spool := fun _ ↦ .refl
  cases hdue : v.notDue now id q with
  | true =>
    rw [visitEntry_notDue hdue]
    exact .refl
  | false =>
    rw [visitEntry_due hdue]
    split
    · exact (hheld _).removeEntry true
    · refine .removeEntry ?_ false
      rw [(quiet_suppressEntry _ _).spool, (quiet_bounce _ _ _).spool]
      exact hheld _
    · exact (hheld _).removeEntry false
    · exact touches_retryEntry now id _ (q.held _)

theorem frame_visitEntry (now : ℕ) (id : Uuid) (q : State) :
    Frame id q (visitEntry p w v now id q).1 :=
  fun _ hne ↦ (touches_visitEntry now id q).load_of_ne hne

/-- The groups of an entry in a state, unless a recipient cannot be read. -/
def State.groups (p : Smtp.Primitives) (w : Worker) (entry : SpoolEntry) (q : State) :
    List (Text × List Text) :=
  match groupByDomain p (q.openRecipients p w entry.envelope) with
  | .ok groups => groups
  | .error _ => []

/-! ## What an attempt comes to -/

/-- What an attempt with an entry comes to, in terms of its groups. -/
theorem deliverEntry_spec (hload : v.load .entry id q = some entry) :
    (deliverEntry p w v id q = ([], .suppressed) ∧ q.openRecipients p w entry.envelope = [] ∨
        ∃ recipient, groupByDomain p (q.openRecipients p w entry.envelope) = .error recipient ∧
          deliverEntry p w v id q =
            ([], .dropped ("unparseable recipient ".toList ++ recipient))) ∨
      Grouped p (q.groups p w entry) ∧ (∀ recipient, grouped (q.groups p w entry) recipient ↔
          recipient ∈ q.openRecipients p w entry.envelope) ∧
        Attempted p w v entry (q.groups p w entry) (deliverEntry p w v id q) := by
  unfold deliverEntry
  rw [hload]
  dsimp only
  split
  · rename_i hempty
    exact .inl (.inl ⟨rfl, List.isEmpty_iff.mp hempty⟩)
  · split
    · rename_i recipient hgroups
      exact .inl (.inr ⟨recipient, hgroups, rfl⟩)
    · rename_i groups hgroups
      have heq : q.groups p w entry = groups := by rw [State.groups, hgroups]
      rw [heq]
      obtain ⟨hgrouped, hmem⟩ := groupByDomain_spec hgroups
      exact .inr ⟨hgrouped, hmem, deliverGroups_spec p w v entry groups⟩

/-- If anything was said, then the entry was read and tried. -/
theorem attempted_of_mem {c : Conversation} (hc : c ∈ (deliverEntry p w v id q).1) :
    ∃ entry, v.load .entry id q = some entry ∧ Grouped p (q.groups p w entry) ∧
      Attempted p w v entry (q.groups p w entry) (deliverEntry p w v id q) := by
  cases hload : v.load .entry id q with
  | none =>
    rw [deliverEntry, hload] at hc
    cases hc
  | some entry =>
    rcases deliverEntry_spec (p := p) (w := w) hload with
      (⟨heq, -⟩ | ⟨unread, -, heq⟩) | ⟨hgrouped, -, hattempted⟩
    · rw [heq] at hc
      cases hc
    · rw [heq] at hc
      cases hc
    · exact ⟨entry, rfl, hgrouped, hattempted⟩

theorem load_of_visitLoad {site : Site}
    (h : v.load site id q = some entry) : q.spool.load id = some entry := by
  unfold Visit.load at h
  split at h
  · exact h
  · exact absurd h nofun

/-- The conversations of an attempt are about the entry, and about different recipients. -/
theorem deliverEntry_talks (p : Smtp.Primitives) (w : Worker) (v : Visit) (id : Uuid) (q : State) :
    (∀ c ∈ (deliverEntry p w v id q).1, c.id = id) ∧
      (deliverEntry p w v id q).1.Pairwise fun earlier later ↦
        ∀ recipient ∈ earlier.recipients, recipient ∉ later.recipients := by
  by_cases hnone : (deliverEntry p w v id q).1 = []
  · rw [hnone]
    exact ⟨nofun, List.Pairwise.nil⟩
  · obtain ⟨c, hc⟩ := List.exists_mem_of_ne_nil _ hnone
    obtain ⟨entry, hload, hgrouped, hattempted⟩ := attempted_of_mem hc
    have hid := (Spool.mem_of_load (load_of_visitLoad hload)).2
    refine ⟨fun c hc ↦ (hattempted.id c hc).trans hid, ?_⟩
    have hgroups : ((q.groups p w entry).map Prod.snd).Pairwise fun recipients others ↦
        ∀ recipient ∈ recipients, recipient ∉ others := List.pairwise_map.mpr hgrouped.disjoint
    exact List.pairwise_map.mp (hgroups.sublist hattempted.recipients)

/-! ## What a visit does to the history -/

theorem load_removeEntry {delivered : Bool} (h : v.removal ≠ .failed) :
    (removeEntry v id delivered q).1.spool.load id = none := by
  unfold removeEntry
  split
  · exact (Spool.load_remove id id q.spool).trans (if_pos rfl)
  · exact (Spool.load_remove id id q.spool).trans (if_pos rfl)
  · rename_i hfailed
    exact absurd hfailed h

theorem history_removeEntry (id : Uuid) (delivered : Bool) (q : State) :
    (removeEntry v id delivered q).1.history = q.history := by
  unfold removeEntry
  split <;> rfl

theorem talks_warnDelayed (id : Uuid) (reason : Text) (q : State) :
    talks (warnDelayed p w v id reason q).history = talks q.history := by
  unfold warnDelayed
  split
  · rfl
  · split
    · rfl
    · split <;> exact (quiet_report _ _ _ _ _).talks

section

variable (now : ℕ) (id : Uuid)

theorem history_recorded (q : State) : (recorded v now id q).history = q.history := by
  unfold recorded
  split <;> rfl

theorem talks_retryEntry (reason : Text) (q : State) :
    talks (retryEntry p w v now id reason q).1.history = talks q.history := by
  rw [retryEntry_eq]
  split
  · rw [history_removeEntry, (quiet_bounce _ _ _).talks, history_recorded]
  · split
    · rw [talks_warnDelayed, history_recorded]
    · rw [history_recorded]

theorem talks_visitEntry (q : State) (hdue : v.notDue now id q = false) :
    talks (visitEntry p w v now id q).1.history =
      talks q.history ++ (deliverEntry p w v id q).1 := by
  rw [visitEntry_due hdue]
  split
  · rw [history_removeEntry, State.held_history, talks_append, talks_map]
  · rw [history_removeEntry, (quiet_suppressEntry _ _).talks, (quiet_bounce _ _ _).talks,
      State.held_history, talks_append, talks_map]
  · rw [history_removeEntry, State.held_history, talks_append, talks_map]
  · rw [talks_retryEntry, State.held_history, talks_append, talks_map]

end

def reportOf (p : Smtp.Primitives) (w : Worker) (v : Visit) (kind : Kind) (id : Uuid)
    (entry : SpoolEntry) (reason : Text) : Option Report :=
  if (dsnRecipients entry.envelope).isEmpty then none
  else (buildReport p kind w.ehloHostname entry.envelope.reversePath (dsnRecipients entry.envelope)
    reason entry.data v.date).map fun message ↦
      ⟨id, kind, dsnRecipients entry.envelope, message, w.bounceSink && v.sinkAccepts⟩

theorem history_report (kind : Kind) (id : Uuid) (entry : SpoolEntry) (reason : Text) (q : State) :
    (q.report p w v kind id entry reason).history =
      q.history ++ (reportOf p w v kind id entry reason).toList.map .report := by
  unfold State.report reportOf
  dsimp only
  split
  · rw [Option.toList_none, List.map_nil, List.append_nil]
  · cases buildReport p kind w.ehloHostname entry.envelope.reversePath
      (dsnRecipients entry.envelope) reason entry.data v.date with
    | none => exact (List.append_nil _).symm
    | some message => rfl

theorem mem_dsnRecipients {envelope : Envelope} {recipient : Text} :
    recipient ∈ dsnRecipients envelope ↔
      recipient ∈ envelope.recipients ∧ recipient ∉ envelope.noDsn := by
  rw [dsnRecipients, List.mem_filter]
  simp

theorem history_bounce (id : Uuid) (reason : Text) (q : State) :
    (bounce p w v id reason q).history = q.history ++
      ((v.load .bounce id q).bind fun entry ↦ reportOf p w v .failed id entry reason).toList.map
        .report := by
  unfold bounce
  cases v.load .bounce id q with
  | none => exact (List.append_nil _).symm
  | some entry => exact history_report _ _ _ _ _

theorem load_recorded (now : ℕ) (hload : q.spool.load id = some entry) :
    ∃ entry', (recorded v now id q).spool.load id = some entry' ∧ entry.SameMessage entry' := by
  unfold recorded
  split
  · exact ⟨_, Spool.load_recordAttempt hload _, rfl, rfl, rfl, rfl, rfl, rfl⟩
  · exact ⟨entry, hload, .refl entry⟩

/-! ## Passes -/

section

variable {guard : State → Event → Prop} {visits : Uuid → Visit}

/-- Visits to different entries of the spool are a run, if each meets the condition in the state in
which the visits before it have left the queue. -/
theorem reach_visitAll {q₀ : State} {ids : List Uuid} (hnodup : ids.Nodup) :
    ∀ (delivered : ℕ) (q : State), (machine p w).Reach guard q₀ q →
      (∀ id ∈ ids, (q.spool.load id).isSome = true) →
      (∀ done id rest q' n, ids = done ++ id :: rest →
        visitAll p w visits now done delivered q = (q', some n) →
          guard q' (.visit now (visits id) id)) →
      (machine p w).Reach guard q₀ (visitAll p w visits now ids delivered q).1 := by
  induction ids with
  | nil => exact fun delivered q hreach _ _ ↦ hreach
  | cons id ids ih =>
    intro delivered q hreach hids hguard
    rw [List.nodup_cons] at hnodup
    have henabled : (machine p w).enabled q (.visit now (visits id) id) :=
      hids id List.mem_cons_self
    have hnext := hreach.step henabled (hguard [] id ids q delivered rfl rfl)
    change (machine p w).Reach guard q₀ (visitEntry p w (visits id) now id q).1 at hnext
    rw [visitAll]
    split
    · rename_i q' heq
      rwa [heq] at hnext
    · rename_i q' taken heq
      rw [heq] at hnext
      refine ih hnodup.2 _ q' hnext (fun other hother ↦ ?_) fun done other rest q'' n hsplit hdone ↦
        ?_
      · have hne : other ≠ id := fun h ↦ hnodup.1 (h ▸ hother)
        have hframe := frame_visitEntry (p := p) (w := w) (v := visits id) now id q other hne
        rw [heq] at hframe
        rw [hframe]
        exact hids other (List.mem_cons_of_mem _ hother)
      · refine hguard (id :: done) other rest q'' n (by rw [hsplit, List.cons_append]) ?_
        rw [visitAll, heq]
        exact hdone

/-- **A pass is a run** under every condition that its visits meet, each in the state in which it
finds the queue. -/
theorem reach_pass {q₀ : State} (hreach : (machine p w).Reach guard q₀ q)
    (hids : (q.spool.map (·.envelope.id)).Nodup)
    (hguard : ∀ done id rest q' n, q.spool.list = done ++ id :: rest →
      visitAll p w visits now done 0 q = (q', some n) → guard q' (.visit now (visits id) id)) :
    (machine p w).Reach guard q₀ (pass p w visits now q).1 := by
  have hperm : q.spool.list.Perm (q.spool.map (·.envelope.id)) := List.perm_insertionSort _ _
  refine reach_visitAll (hperm.nodup_iff.mpr hids) 0 q hreach (fun id hid ↦ ?_) hguard
  exact Spool.load_isSome_of_mem (hperm.mem_iff.mp hid)

end

/-! ## A small queue -/

/-- A remote that takes everything. -/
def Peer.accepting : Peer where
  answer := fun sent ↦ match sent.getLast? with
    | some .connect => .reply 220 []
    | some .data => .reply 354 []
    | _ => .reply 250 []
  handshake := fun _ ↦ .ok ()
  daneMatches := false

/-- An exchanger that is there. -/
def Hop.accepting : Hop := ⟨.absent, .ok "mx".toList, some false, .accepting⟩

/-- A remote that refuses all recipients. -/
def Peer.refusing : Peer where
  answer := fun sent ↦ match sent.getLast? with
    | some .connect => .reply 220 []
    | some (.rcptTo _) => .reply 550 "no such user".toList
    | _ => .reply 250 []
  handshake := fun _ ↦ .ok ()
  daneMatches := false

/-- An exchanger that refuses. -/
def Hop.refusing : Hop := { Hop.accepting with peer := .refusing }

/-- An exchanger that cannot be reached for now. -/
def Hop.unreachable : Hop :=
  ⟨.absent, .error (.transient "connection refused".toList), some false, .accepting⟩

/-- Files can be read and written, and the sink takes reports. -/
def Visit.working (hop : Text → Hop) : Visit := ⟨fun _ ↦ true, [], .removed, hop, some 0, 0, true⟩

def Worker.plain : Worker := ⟨"mail.b".toList, true, 5 * 86400, true, [], .strict⟩

def twoDomains : Smtp.AcceptedMessage where
  reversePath := "s@b.net".toList
  recipients := ["u@x.org".toList, "v@y.org".toList]
  data := []
  requireTls := false
  mailbox := none
  noDsn := []

def State.empty : State := ⟨[], [], [], []⟩

/-- An entry is visited before its first failure. -/
def Untried (q : State) : Event → Prop
  | .visit _ _ id => (q.spool.load id).map (·.envelope.attempts) = some 0
  | .store _ _ => True

def twoEntries : State :=
  (machine .plain .plain).step ((machine .plain .plain).step .empty (.store (.ofNat 1) twoDomains))
    (.store (.ofNat 2) twoDomains)

/-- The first of two entries is delivered, the second cannot be for now. -/
theorem reach_pass_twoEntries :
    (machine .plain .plain).Reach Untried .empty (pass .plain .plain
      (fun id ↦ .working fun _ ↦ if id = .ofNat 1 then .accepting else .unreachable) 0
      twoEntries).1 := by
  refine reach_pass (.step (.step .refl (by decide) trivial) (by decide) trivial) (by decide) ?_
  intro done id rest q' n hlist hdone
  obtain rfl := congrArg Prod.fst hdone
  have hids : twoEntries.spool.list = [.ofNat 1, .ofNat 2] := by decide
  rw [hids] at hlist
  rcases done with _ | ⟨first, _ | ⟨second, done⟩⟩
  · obtain ⟨rfl, -⟩ := List.cons.inj hlist
    rw [Untried]
    decide
  · obtain ⟨rfl, hrest⟩ := List.cons.inj hlist
    obtain ⟨rfl, -⟩ := List.cons.inj hrest
    rw [Untried]
    decide +kernel
  · simp at hlist

end Epistle.Queue
