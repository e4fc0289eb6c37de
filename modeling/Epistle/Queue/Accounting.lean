import Epistle.Queue.Runs

/-!
# Nothing leaves the queue unaccounted

An entry leaves the spool when all its recipients have been served, when its sender has been told,
or when nobody is left to serve. An entry whose time has not come is not touched.
-/

namespace Epistle.Queue

open TextFormat Storage Interleaving

variable {p : Smtp.Primitives} {w : Worker} {v : Visit}

/-- Files can be read, written and removed, and there is a sink that takes reports. -/
structure Working (w : Worker) (v : Visit) : Prop where
  io : ∀ site, v.io site = true
  removal : v.removal = .removed
  bounceSink : w.bounceSink = true
  sinkAccepts : v.sinkAccepts = true

def State.Suppressed (p : Smtp.Primitives) (w : Worker) (account recipient : Text)
    (q : State) : Prop :=
  w.suppression = true ∧
    (q.isSuppressed p recipient = true ∨ q.isSuppressedFor p account recipient = true)

variable {q : State} {entry : SpoolEntry} {id : Uuid}

theorem mem_openRecipients {envelope : Envelope} {recipient : Text} :
    recipient ∈ q.openRecipients p w envelope ↔
      recipient ∈ envelope.recipients ∧ ¬q.Suppressed p w envelope.reversePath recipient := by
  rw [State.openRecipients, List.mem_filter, State.Suppressed]
  cases w.suppression <;> simp

/-- How the removal of an entry is accounted for by what has happened from `q` to `q'`: everybody
was served, or the sender was told, unless there is no sender or nobody wants that, or nobody was
left. -/
def Accounted (p : Smtp.Primitives) (w : Worker) (entry : SpoolEntry) (q q' : State) : Prop :=
  ∃ new, q'.history = q.history ++ new ∧
    ((∀ recipient ∈ entry.envelope.recipients,
        ¬q.Suppressed p w entry.envelope.reversePath recipient →
        ∃ c, Happening.conversation c ∈ new ∧ c.id = entry.envelope.id ∧ c.Takes recipient) ∨
      (entry.envelope.reversePath = [] ∨
        (∀ recipient ∈ entry.envelope.recipients, recipient ∈ entry.envelope.noDsn) ∨
        ∃ report, Happening.report report ∈ new ∧ report.id = entry.envelope.id ∧
          report.kind = .failed ∧ report.delivered = true ∧
          ∀ recipient ∈ entry.envelope.recipients, recipient ∉ entry.envelope.noDsn →
            Names report.message recipient) ∨
      ∀ recipient ∈ entry.envelope.recipients,
        q.Suppressed p w entry.envelope.reversePath recipient)

/-! ## Reports -/

/-- A report is made and names everybody who wants it, unless there is nobody to tell or to name. -/
theorem reportOf_spec (hwork : Working w v) (id : Uuid) (entry : SpoolEntry) (reason : Text) :
    entry.envelope.reversePath = [] ∨
      (∀ recipient ∈ entry.envelope.recipients, recipient ∈ entry.envelope.noDsn) ∨
      ∃ report, reportOf p w v .failed id entry reason = some report ∧ report.id = id ∧
        report.kind = .failed ∧ report.delivered = true ∧
        ∀ recipient ∈ entry.envelope.recipients, recipient ∉ entry.envelope.noDsn →
          Names report.message recipient := by
  by_cases hsender : entry.envelope.reversePath = []
  · exact .inl hsender
  by_cases hnobody : dsnRecipients entry.envelope = []
  · refine .inr (.inl fun recipient hrecipient ↦ ?_)
    by_contra hwants
    have hmem := mem_dsnRecipients.mpr ⟨hrecipient, hwants⟩
    rw [hnobody] at hmem
    exact absurd hmem nofun
  · have hbuilt : ∃ message, buildReport p .failed w.ehloHostname entry.envelope.reversePath
        (dsnRecipients entry.envelope) reason entry.data v.date = some message :=
      buildReport_isSome hsender
    obtain ⟨message, hmessage⟩ := hbuilt
    refine .inr (.inr ⟨⟨id, .failed, dsnRecipients entry.envelope, message,
      w.bounceSink && v.sinkAccepts⟩, ?_, rfl, rfl, ?_, ?_⟩)
    · rw [reportOf, if_neg (by simpa using hnobody), hmessage]
      rfl
    · rw [hwork.bounceSink, hwork.sinkAccepts]
      rfl
    · intro recipient hrecipient hwants
      exact names_of_buildReport hmessage (mem_dsnRecipients.mpr ⟨hrecipient, hwants⟩)

theorem load_of_working (hwork : Working w v) (site : Site) (id : Uuid) (q : State) :
    v.load site id q = q.spool.load id := if_pos (hwork.io site)

/-! ## The history grows -/

theorem prefix_suppressEntry (id : Uuid) (q : State) :
    q.history <+: (suppressEntry p w v id q).history :=
  suppressEntry_induction (R := fun q q' ↦ q.history <+: q'.history) (fun _ ↦ List.prefix_rfl)
    .trans (fun _ _ _ _ ↦ List.prefix_append _ _) id q

theorem prefix_warnDelayed (id : Uuid) (reason : Text) (q : State) :
    q.history <+: (warnDelayed p w v id reason q).history := by
  unfold warnDelayed
  split
  · exact List.prefix_rfl
  · split
    · exact List.prefix_rfl
    · split <;> exact ⟨_, (history_report _ _ _ _ _).symm⟩

theorem prefix_visitEntry (now : ℕ) (id : Uuid) (q : State) :
    q.history <+: (visitEntry p w v now id q).1.history := by
  have hbounce : ∀ (reason : Text) (q : State),
      q.history <+: (bounce p w v id reason q).history :=
    fun reason q ↦ ⟨_, (history_bounce _ _ _).symm⟩
  cases hdue : v.notDue now id q with
  | true => simp [visitEntry_notDue hdue]
  | false =>
    rw [visitEntry_due hdue]
    have hheld : q.history <+: (q.held (deliverEntry p w v id q).1).history :=
      List.prefix_append _ _
    split
    · rwa [history_removeEntry]
    · rw [history_removeEntry]
      exact (hheld.trans (hbounce _ _)).trans (prefix_suppressEntry _ _)
    · rwa [history_removeEntry]
    · have hheld : q.history <+:
          (recorded v now id (q.held (deliverEntry p w v id q).1)).history := by
        rwa [history_recorded]
      rw [retryEntry_eq]
      split
      · rw [history_removeEntry]
        exact hheld.trans (hbounce _ _)
      · split
        · exact hheld.trans (prefix_warnDelayed _ _ _)
        · exact hheld

/-! ## Visits -/

theorem load_warnDelayed {reason : Text} (hload : q.spool.load id = some entry) :
    (warnDelayed p w v id reason q).spool.load id ≠ none := by
  have hquiet : ∀ entry', (q.report p w v .delayed id entry' reason).spool.load id = some entry :=
    fun entry' ↦ by rw [(quiet_report _ _ _ _ _).spool, hload]
  unfold warnDelayed
  split
  · rw [hload]
    exact nofun
  · split
    · rw [hload]
      exact nofun
    · split
      · rw [Spool.load_markDelayWarned (hquiet _)]
        exact nofun
      · rw [hquiet]
        exact nofun

/-- A report accounts for an entry, if what comes after it only adds to the history. -/
theorem accounted_of_bounce (hwork : Working w v) (reason : Text)
    {before after : State} {entry' : SpoolEntry} (hid : entry.envelope.id = id)
    (hbefore : q.history <+: before.history) (hload : before.spool.load id = some entry')
    (hsame : entry.SameMessage entry')
    (hafter : (bounce p w v id reason before).history <+: after.history) :
    Accounted p w entry q after := by
  obtain ⟨talk, htalk⟩ := hbefore
  obtain ⟨rest, hrest⟩ := hafter
  rw [history_bounce, load_of_working hwork, hload, Option.bind_some, ← htalk,
    List.append_assoc, List.append_assoc] at hrest
  refine ⟨_, hrest.symm, .inr (.inl ?_)⟩
  rcases reportOf_spec (p := p) hwork id entry' reason with
    hsender | hnobody | ⟨report, heq, hreport, hkind, hdelivered, hnames⟩
  · exact .inl (hsame.reversePath ▸ hsender)
  · rw [hsame.recipients, hsame.noDsn] at hnobody
    exact .inr (.inl hnobody)
  · rw [hsame.recipients, hsame.noDsn] at hnames
    refine .inr (.inr ⟨report, ?_, hreport.trans hid.symm, hkind, hdelivered, hnames⟩)
    rw [heq]
    simp

theorem accounted_visitEntry (hwork : Working w v) {now : ℕ} (hload : q.spool.load id = some entry)
    (hgone : (visitEntry p w v now id q).1.spool.load id = none) :
    Accounted p w entry q (visitEntry p w v now id q).1 := by
  have hid := (Spool.mem_of_load hload).2
  have hread : v.load .entry id q = some entry := (load_of_working hwork _ _ _).trans hload
  have hheldLoad : (q.held (deliverEntry p w v id q).1).spool.load id = some entry := hload
  have hprefix : q.history <+: (q.held (deliverEntry p w v id q).1).history :=
    List.prefix_append _ _
  cases hdue : v.notDue now id q with
  | true =>
    rw [visitEntry_notDue hdue, hload] at hgone
    exact absurd hgone nofun
  | false =>
    rw [visitEntry_due hdue] at hgone ⊢
    have hspec := deliverEntry_spec (p := p) (w := w) hread
    cases houtcome : (deliverEntry p w v id q).2 with
    | delivered =>
      refine ⟨_, (history_removeEntry _ _ _).trans (State.held_history _ _), .inl ?_⟩
      intro recipient hrecipient hopen
      rcases hspec with (⟨heq, -⟩ | ⟨unread, -, heq⟩) | ⟨-, hgrouped, hattempted⟩
      · rw [heq] at houtcome
        exact absurd houtcome nofun
      · rw [heq] at houtcome
        exact absurd houtcome nofun
      · -- the recipient is in a group, and every group has been served in this attempt
        obtain ⟨group, hgroup, hmem⟩ := (hgrouped recipient).mpr
          (mem_openRecipients.mpr ⟨hrecipient, hopen⟩)
        obtain ⟨c, hc, haccepted, heq⟩ := hattempted.delivered houtcome group hgroup
        obtain ⟨_, -, htalk⟩ := hattempted.among c hc
        exact ⟨c, List.mem_map_of_mem hc, hattempted.id c hc,
          takes_of_accepted htalk haccepted (heq ▸ hmem)⟩
    | dropped reason =>
      refine accounted_of_bounce hwork reason hid hprefix hheldLoad (.refl entry) ?_
      rw [history_removeEntry]
      exact prefix_suppressEntry _ _
    | suppressed =>
      refine ⟨_, (history_removeEntry _ _ _).trans (State.held_history _ _), .inr (.inr ?_)⟩
      intro recipient hrecipient
      rcases hspec with (⟨-, hnobody⟩ | ⟨unread, -, heq⟩) | ⟨-, -, hattempted⟩
      · by_contra hopen
        have hmem := mem_openRecipients.mpr ⟨hrecipient, hopen⟩
        rw [hnobody] at hmem
        exact absurd hmem nofun
      · rw [heq] at houtcome
        exact absurd houtcome nofun
      · exact absurd houtcome hattempted.notSuppressed
    | retry reason =>
      rw [houtcome] at hgone
      change (retryEntry p w v now id reason _).1.spool.load id = none at hgone
      change Accounted p w entry q (retryEntry p w v now id reason _).1
      rw [retryEntry_eq] at hgone ⊢
      obtain ⟨entry', hrecorded, hsame⟩ := load_recorded (v := v) now hheldLoad
      split at hgone
      · rename_i hold
        rw [if_pos hold]
        refine accounted_of_bounce hwork reason hid ?_ hrecorded hsame ?_
        · rwa [history_recorded]
        · simp [history_removeEntry]
      · -- an entry that is kept is not gone
        split at hgone
        · exact absurd hgone (load_warnDelayed hrecorded)
        · exact absurd (hgone.symm.trans hrecorded) nofun

/-! ## Different ids -/

def State.ids (q : State) : List Uuid := q.spool.map (·.envelope.id)

theorem nodup_ids_of_reach {guard : State → Event → Prop} {q₀ : State} (h₀ : q₀.ids.Nodup)
    (hreach : (machine p w).Reach guard q₀ q) : q.ids.Nodup := by
  refine Machine.Reach.invariant (I := fun q ↦ q.ids.Nodup) h₀ (fun q event hnodup henabled _ ↦ ?_)
    hreach
  cases event with
  | visit now v id => exact hnodup.sublist (touches_visitEntry now id q).ids_sublist
  | store id message =>
    have hnew : id ∉ q.ids := fun hmem ↦ by
      have hsome := Spool.load_isSome_of_mem hmem
      rw [henabled.1] at hsome
      exact absurd hsome nofun
    change ((q.spool ++ [Spool.entryOf id message]).map (·.envelope.id)).Nodup
    rw [List.map_append, List.map_singleton]
    refine List.nodup_append.mpr ⟨hnodup, List.nodup_singleton _, fun other hother new hmem ↦ ?_⟩
    rw [List.mem_singleton.mp hmem]
    rintro rfl
    exact hnew hother

/-! ## Passes -/

section Passes

variable {visits : Uuid → Visit} {now : ℕ}

theorem prefix_visitAll (ids : List Uuid) : ∀ (delivered : ℕ) (q : State),
    q.history <+: (visitAll p w visits now ids delivered q).1.history := by
  induction ids with
  | nil => exact fun _ q ↦ List.prefix_rfl
  | cons id ids ih =>
    intro delivered q
    have hvisit := prefix_visitEntry (p := p) (w := w) (v := visits id) now id q
    rw [visitAll]
    split
    · rename_i heq
      rwa [heq] at hvisit
    · rename_i heq
      rw [heq] at hvisit
      exact hvisit.trans (ih _ _)

variable {ids : List Uuid}

theorem load_visitAll_of_notMem {id : Uuid} (h : id ∉ ids) :
    ∀ (delivered : ℕ) (q : State),
      (visitAll p w visits now ids delivered q).1.spool.load id = q.spool.load id := by
  induction ids with
  | nil => exact fun _ _ ↦ rfl
  | cons first ids ih =>
    intro delivered q
    rw [List.mem_cons, not_or] at h
    have hframe := frame_visitEntry (p := p) (w := w) (v := visits first) now first q id h.1
    rw [visitAll]
    split
    · rename_i heq
      rwa [heq] at hframe
    · rename_i heq
      rw [heq] at hframe
      exact (ih h.2 _ _).trans hframe

/-- What the visits of a pass do with an entry is what one visit to it does. -/
theorem visitAll_at (p : Smtp.Primitives) (w : Worker) (visits : Uuid → Visit) (now : ℕ) (id : Uuid)
    (hnodup : ids.Nodup) :
    ∀ (delivered : ℕ) (q : State),
      (visitAll p w visits now ids delivered q).1.spool.load id = q.spool.load id ∨
      ∃ q', q.history <+: q'.history ∧ q'.spool.load id = q.spool.load id ∧
        (visitEntry p w (visits id) now id q').1.history <+:
          (visitAll p w visits now ids delivered q).1.history ∧
        (visitEntry p w (visits id) now id q').1.spool.load id =
          (visitAll p w visits now ids delivered q).1.spool.load id := by
  induction ids with
  | nil => exact fun _ _ ↦ .inl rfl
  | cons first ids ih =>
    intro delivered q
    rw [List.nodup_cons] at hnodup
    have hframe := frame_visitEntry (p := p) (w := w) (v := visits first) now first q
    have hprefix := prefix_visitEntry (p := p) (w := w) (v := visits first) now first q
    rw [visitAll]
    split
    · rename_i q' heq
      rw [heq] at hframe
      by_cases hfirst : id = first
      · subst hfirst
        refine .inr ⟨q, List.prefix_rfl, rfl, ?_⟩
        rw [heq]
        exact ⟨List.prefix_rfl, rfl⟩
      · exact .inl (hframe id hfirst)
    · rename_i q' taken heq
      rw [heq] at hframe hprefix
      have hrest := ih hnodup.2 (if taken = true then delivered + 1 else delivered) q'
      by_cases hfirst : id = first
      · -- the rest of the pass does not come back to the entry
        subst hfirst
        refine .inr ⟨q, List.prefix_rfl, rfl, ?_⟩
        rw [heq]
        exact ⟨prefix_visitAll _ _ _, (load_visitAll_of_notMem hnodup.1 _ _).symm⟩
      · rw [← hframe id hfirst]
        rcases hrest with hsame | ⟨mid, hmid, hload, hafter⟩
        · exact .inl hsame
        · exact .inr ⟨mid, hprefix.trans hmid, hload, hafter⟩

/-- **Nothing leaves the queue unaccounted**: an entry that a pass has removed is accounted for by
the visit that removed it, and an entry whose time has not come is as it was. -/
theorem accounted_pass (p : Smtp.Primitives) (w : Worker) (visits : Uuid → Visit) (now : ℕ)
    (hwork : ∀ id, Working w (visits id)) {q₀ q : State} (h₀ : q₀.ids.Nodup)
    (hreach : (machine p w).Reach (fun _ _ ↦ True) q₀ q) (id : Uuid) (entry : SpoolEntry)
    (hload : q.spool.load id = some entry) :
    ((pass p w visits now q).1.spool.load id = none →
      ∃ q', q.history <+: q'.history ∧ q'.spool.load id = some entry ∧
        (visitEntry p w (visits id) now id q').1.history <+: (pass p w visits now q).1.history ∧
        Accounted p w entry q' (visitEntry p w (visits id) now id q').1) ∧
    (now < entry.envelope.nextAttempt → (pass p w visits now q).1.spool.load id = some entry) := by
  have hperm : q.spool.list.Perm q.ids := List.perm_insertionSort _ _
  have hnodup := hperm.nodup_iff.mpr (nodup_ids_of_reach h₀ hreach)
  have hat := visitAll_at p w visits now id hnodup 0 q
  constructor
  · intro hgone
    rcases hat with hsame | ⟨q', hprefix, hmid, hhistory, hafter⟩
    · exact absurd (hgone.symm.trans (hsame.trans hload)) nofun
    · refine ⟨q', hprefix, hmid.trans hload, hhistory, ?_⟩
      exact accounted_visitEntry (hwork id) (hmid.trans hload) (hafter.trans hgone)
  · intro hlater
    rcases hat with hsame | ⟨q', -, hmid, -, hafter⟩
    · exact hsame.trans hload
    · have hdue : (visits id).notDue now id q' = true := by
        rw [Visit.notDue, load_of_working (hwork id), hmid, hload, Option.any_some]
        exact decide_eq_true hlater
      rw [visitEntry_notDue hdue] at hafter
      exact hafter.symm.trans (hmid.trans hload)

end Passes

def State.twoDomains : State :=
  (machine .plain .plain).step .empty (.store (.ofNat 1) Queue.twoDomains)

/-- The entry of the queue is removed, and accounted for. -/
def Removed (v : Visit) : Prop :=
  (pass .plain .plain (fun _ ↦ v) 0 .twoDomains).1.spool = [] ∧
    ∃ q', State.twoDomains.history <+: q'.history ∧
      q'.spool.load (.ofNat 1) = some (Spool.entryOf (.ofNat 1) twoDomains) ∧
      (visitEntry .plain .plain v 0 (.ofNat 1) q').1.history <+:
        (pass .plain .plain (fun _ ↦ v) 0 .twoDomains).1.history ∧
      Accounted .plain .plain (Spool.entryOf (.ofNat 1) twoDomains) q'
        (visitEntry .plain .plain v 0 (.ofNat 1) q').1

/-- One entry that is taken, and one that is refused: nobody has taken it then. -/
theorem accounted_pass_twoDomains : Removed (.working fun _ ↦ .accepting) ∧
    Removed (.working fun _ ↦ .refusing) ∧
    (talks (pass .plain .plain (fun _ ↦ .working fun _ ↦ .refusing) 0 .twoDomains).1.history).map
      (·.accepted) = [false] :=
  ⟨⟨by decide +kernel,
    (accounted_pass .plain .plain (fun _ ↦ .working fun _ ↦ .accepting) 0
      (fun _ ↦ ⟨fun _ ↦ rfl, rfl, rfl, rfl⟩) (by decide : State.twoDomains.ids.Nodup) .refl
      (.ofNat 1) (Spool.entryOf (.ofNat 1) twoDomains) (by decide +kernel)).1 (by decide +kernel)⟩,
  ⟨by decide +kernel,
    (accounted_pass .plain .plain (fun _ ↦ .working fun _ ↦ .refusing) 0
      (fun _ ↦ ⟨fun _ ↦ rfl, rfl, rfl, rfl⟩) (by decide : State.twoDomains.ids.Nodup) .refl
      (.ofNat 1) (Spool.entryOf (.ofNat 1) twoDomains) (by decide +kernel)).1 (by decide +kernel)⟩,
  by decide +kernel⟩

end Epistle.Queue
