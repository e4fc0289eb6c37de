import Epistle.Queue.Worker

/-!
# Attempts

What an attempt to deliver an entry does. The groups of recipients are disjoint, because a recipient
has one domain. The conversations of an attempt are those of the groups, in their order, up to the
first group that fails; all of them but the last were accepted.
-/

namespace Epistle.Queue

open TextFormat Storage
open List (map_cons mem_cons mem_cons_of_mem mem_cons_self mem_singleton pairwise_cons)

variable {p : Smtp.Primitives} {w : Worker} {v : Visit}

/-! ## Groups -/

/-- The groups are in the order of their domains, and each recipient is in the group of its
domain. -/
structure Grouped (p : Smtp.Primitives) (groups : List (Text × List Text)) : Prop where
  sorted : groups.Pairwise fun group other ↦ group.1 < other.1
  domain : ∀ group ∈ groups, ∀ recipient ∈ group.2, ∃ address,
    Smtp.Address.parse p.unicode recipient = .ok address ∧ address.domain = group.1

variable {domain recipient : Text} {recipients : List Text}

theorem mem_addToGroup {groups : List (Text × List Text)}
    {group : Text × List Text} (h : group ∈ addToGroup domain recipient groups) :
    group ∈ groups ∨ group.1 = domain ∧
      ∀ other ∈ group.2, other = recipient ∨ ∃ old ∈ groups, old.1 = domain ∧ other ∈ old.2 := by
  induction groups with
  | nil =>
    rw [addToGroup, mem_singleton] at h
    rw [h]
    exact .inr ⟨rfl, fun other hother ↦ .inl (mem_singleton.mp hother)⟩
  | cons first groups ih =>
    rw [addToGroup] at h
    split at h
    · rename_i heq
      rcases mem_cons.mp h with rfl | h
      · refine .inr ⟨heq.symm, fun other hother ↦ ?_⟩
        rcases List.mem_append.mp hother with hother | hother
        · exact .inr ⟨first, mem_cons_self, heq.symm, hother⟩
        · exact .inl (mem_singleton.mp hother)
      · exact .inl (mem_cons_of_mem _ h)
    · split at h
      · rcases mem_cons.mp h with rfl | h
        · exact .inr ⟨rfl, fun other hother ↦ .inl (mem_singleton.mp hother)⟩
        · exact .inl h
      · rcases mem_cons.mp h with rfl | h
        · exact .inl mem_cons_self
        · rcases ih h with h | ⟨hdomain, hall⟩
          · exact .inl (mem_cons_of_mem _ h)
          · refine .inr ⟨hdomain, fun other hother ↦ ?_⟩
            rcases hall other hother with hother | ⟨old, hold, hrest⟩
            · exact .inl hother
            · exact .inr ⟨old, mem_cons_of_mem _ hold, hrest⟩

theorem sorted_addToGroup {groups : List (Text × List Text)}
    (h : groups.Pairwise fun group other ↦ group.1 < other.1) :
    (addToGroup domain recipient groups).Pairwise fun group other ↦ group.1 < other.1 := by
  induction groups with
  | nil => exact List.pairwise_singleton _ _
  | cons first groups ih =>
    rw [pairwise_cons] at h
    rw [addToGroup]
    split
    · exact pairwise_cons.mpr h
    · rename_i hne
      split
      · rename_i hlt
        refine pairwise_cons.mpr ⟨fun other hother ↦ ?_, pairwise_cons.mpr h⟩
        rcases mem_cons.mp hother with rfl | hother
        · exact hlt
        · exact hlt.trans (h.1 other hother)
      · rename_i hnlt
        have hgt : first.1 < domain := lt_of_le_of_ne (not_lt.mp hnlt) (Ne.symm hne)
        refine pairwise_cons.mpr ⟨fun other hother ↦ ?_, ih h.2⟩
        rcases mem_addToGroup hother with hother | ⟨hdomain, -⟩
        · exact h.1 other hother
        · rwa [hdomain]

theorem Grouped.addToGroup {groups : List (Text × List Text)} (h : Grouped p groups)
    {address : Smtp.Address}
    (hparse : Smtp.Address.parse p.unicode recipient = .ok address) :
    Grouped p (addToGroup address.domain recipient groups) := by
  refine ⟨sorted_addToGroup h.sorted, fun group hgroup other hother ↦ ?_⟩
  rcases mem_addToGroup hgroup with hgroup | ⟨hdomain, hall⟩
  · exact h.domain group hgroup other hother
  · rcases hall other hother with rfl | ⟨old, hold, holdDomain, hother⟩
    · exact ⟨address, hparse, hdomain.symm⟩
    · obtain ⟨otherAddress, hparse, heq⟩ := h.domain old hold other hother
      exact ⟨otherAddress, hparse, heq.trans (holdDomain.trans hdomain.symm)⟩

def grouped (groups : List (Text × List Text)) (recipient : Text) : Prop :=
  ∃ group ∈ groups, recipient ∈ group.2

theorem grouped_addToGroup {other : Text} {groups : List (Text × List Text)} :
    grouped (addToGroup domain recipient groups) other ↔
      grouped groups other ∨ other = recipient := by
  induction groups with
  | nil => simp [grouped, addToGroup]
  | cons first groups ih =>
    have hcons : ∀ group groups, grouped (group :: groups) other ↔
        other ∈ group.2 ∨ grouped groups other := by
      simp [grouped]
    rw [addToGroup]
    split
    · rw [hcons, hcons, List.mem_append, mem_singleton]
      tauto
    · split
      · rw [hcons, mem_singleton]
        tauto
      · rw [hcons, hcons, ih]
        tauto

theorem foldlM_placeRecipient {before groups : List (Text × List Text)}
    (hbefore : Grouped p before) (h : recipients.foldlM (placeRecipient p) before = .ok groups) :
    Grouped p groups ∧ ∀ recipient,
      grouped groups recipient ↔ grouped before recipient ∨ recipient ∈ recipients := by
  induction recipients generalizing before with
  | nil =>
    obtain rfl := Except.ok.inj h
    exact ⟨hbefore, fun recipient ↦ by simp⟩
  | cons recipient recipients ih =>
    rw [List.foldlM_cons, placeRecipient] at h
    cases hparse : Smtp.Address.parse p.unicode recipient with
    | error error =>
      rw [hparse] at h
      exact absurd h nofun
    | ok address =>
      rw [hparse] at h
      obtain ⟨hgrouped, hmem⟩ := ih (hbefore.addToGroup hparse) h
      refine ⟨hgrouped, fun other ↦ ?_⟩
      rw [hmem other, grouped_addToGroup, mem_cons]
      tauto

/-- A recipient that cannot be grouped cannot be read. -/
theorem groupByDomain_error (h : groupByDomain p recipients = .error recipient) :
    recipient ∈ recipients ∧ (Smtp.Address.parse p.unicode recipient).toOption = none := by
  have hfold : ∀ before, recipients.foldlM (placeRecipient p) before = .error recipient →
      recipient ∈ recipients ∧ (Smtp.Address.parse p.unicode recipient).toOption = none := by
    clear h
    induction recipients with
    | nil => exact fun before h ↦ absurd h nofun
    | cons first recipients ih =>
      intro before h
      rw [List.foldlM_cons, placeRecipient] at h
      cases hparse : Smtp.Address.parse p.unicode first with
      | error error =>
        rw [hparse] at h
        obtain rfl := Except.error.inj h
        exact ⟨mem_cons_self, by rw [hparse]; rfl⟩
      | ok address =>
        rw [hparse] at h
        obtain ⟨hmem, hnone⟩ := ih _ h
        exact ⟨mem_cons_of_mem _ hmem, hnone⟩
  exact hfold [] h

theorem groupByDomain_spec {groups : List (Text × List Text)}
    (h : groupByDomain p recipients = .ok groups) :
    Grouped p groups ∧ ∀ recipient, grouped groups recipient ↔ recipient ∈ recipients := by
  obtain ⟨hgrouped, hmem⟩ := foldlM_placeRecipient ⟨List.Pairwise.nil, nofun⟩ h
  refine ⟨hgrouped, fun recipient ↦ (hmem recipient).trans ?_⟩
  simp [grouped]

theorem Grouped.disjoint {groups : List (Text × List Text)} (h : Grouped p groups) :
    groups.Pairwise fun group other ↦ ∀ recipient ∈ group.2, recipient ∉ other.2 := by
  refine List.Pairwise.imp_of_mem (fun {group other} hgroup hother hlt recipient hmem hmem' ↦ ?_)
    h.sorted
  obtain ⟨address, hparse, hdomain⟩ := h.domain group hgroup recipient hmem
  obtain ⟨address', hparse', hdomain'⟩ := h.domain other hother recipient hmem'
  obtain rfl := Except.ok.inj (hparse.symm.trans hparse')
  exact absurd (hdomain.symm.trans hdomain') (ne_of_lt hlt)

/-! ## Conversations -/

section Conversations

variable {entry : SpoolEntry} {group : Text × List Text} {groups : List (Text × List Text)}

/-- The remote takes the message for the group. -/
def Served (p : Smtp.Primitives) (w : Worker) (v : Visit) (entry : SpoolEntry)
    (group : Text × List Text) : Bool := (w.attemptDomain p v entry group).2.isNone

theorem ofError_ne (error : DeliveryError) :
    Outcome.ofError error ≠ .delivered ∧ Outcome.ofError error ≠ .suppressed := by
  cases error with
  | transient reason | permanent reason => exact ⟨nofun, nofun⟩

/-- The domain has an MTA-STS policy that is enforced. -/
def Hop.enforces (hop : Hop) : Bool :=
  match hop.policy with
  | .enforce => true
  | _ => false

def Worker.relayRule (w : Worker) (envelope : Envelope) (domain : Text) : Option Transport :=
  (Transport.select w.transports
    (((rsplitOnce '@' envelope.reversePath).map Prod.fst).filter (· ≠ [])) domain).filter
      (·.kind = .relay)

/-- A route has this demand for TLS. If none is found, the entry is tried again or dropped. -/
def RoutedWith (tlsRequired : Bool) : Except Outcome Route → Prop
  | .ok route => route.tlsRequired = tlsRequired
  | .error outcome => outcome ≠ .delivered ∧ outcome ≠ .suppressed

theorem routedWith_direct (hop : Hop) (requireTls : Bool) :
    RoutedWith requireTls (hop.direct requireTls) := by
  unfold Hop.direct
  split
  · exact ofError_ne _
  · split
    · exact ⟨nofun, nofun⟩
    · rfl

theorem routedWith_route (w : Worker) (envelope : Envelope) (domain : Text) (hop : Hop) :
    RoutedWith ((w.relayRule envelope domain).elim (hop.enforces ||
      envelope.requireTls) (·.starttls))
      (w.route envelope domain hop) := by
  unfold Worker.route Worker.relayRule
  split
  · exact ⟨nofun, nofun⟩
  · dsimp only
    cases Transport.select w.transports _ domain with
    | none => exact routedWith_direct hop _
    | some rule =>
      dsimp only
      cases hkind : rule.kind with
      | fail => exact ⟨nofun, nofun⟩
      | direct =>
        rw [Option.filter_some_neg (by simp [hkind])]
        exact routedWith_direct hop _
      | relay =>
        rw [Option.filter_some_pos (by simp [hkind])]
        cases hop.connect with
        | error error => exact ofError_ne error
        | ok _ => rfl

/-- What an attempt with a group can do: a conversation that is accepted, or none or a refused one,
and then the entry's fate is decided. -/
theorem attemptDomain_cases (p : Smtp.Primitives) (w : Worker) (v : Visit) (entry : SpoolEntry)
    (group : Text × List Text) :
    (∃ c, w.attemptDomain p v entry group = (some c, none) ∧ c.id = entry.envelope.id ∧
        c.recipients = group.2 ∧ c.accepted = true) ∨
      ∃ outcome conversation, w.attemptDomain p v entry group = (conversation, some outcome) ∧
        (outcome ≠ .delivered ∧ outcome ≠ .suppressed) ∧
        ∀ c ∈ conversation, c.id = entry.envelope.id ∧ c.recipients = group.2 ∧
          c.accepted = false := by
  unfold Worker.attemptDomain
  split
  · rename_i outcome hroute
    have hrouted := routedWith_route w entry.envelope group.1 (v.hop group.1)
    rw [hroute] at hrouted
    exact .inr ⟨outcome, none, rfl, hrouted, nofun⟩
  · split
    · exact .inl ⟨_, rfl, rfl, rfl, rfl⟩
    · rename_i error _
      refine .inr ⟨_, _, rfl, ofError_ne error, fun c hc ↦ ?_⟩
      obtain rfl := Option.some.inj hc
      exact ⟨rfl, rfl, rfl⟩

/-- The remote has taken the message for a recipient: its naming was answered with 250, and so was
the content, at the end. -/
def Conversation.Takes (c : Conversation) (recipient : Text) : Prop :=
  (∃ text, (.rcptTo recipient, .reply 250 text) ∈ c.transcript) ∧
    ∃ wire text, c.transcript.getLast? = some (.content wire, .reply 250 text)

theorem takes_of_accepted {c : Conversation} (h : (w.attemptDomain p v entry group).1 = some c)
    (haccepted : c.accepted = true) {recipient : Text} (hmem : recipient ∈ c.recipients) :
    c.Takes recipient := by
  unfold Worker.attemptDomain at h
  split at h
  · cases h
  · split at h
    · next heq =>
      obtain rfl := Option.some.inj h
      obtain ⟨hnamed, text, hlast⟩ := deliver_ok heq
      exact ⟨hnamed recipient hmem, _, text, hlast⟩
    · obtain rfl := Option.some.inj h
      cases haccepted

/-- The groups that an attempt gets to: those that are served, and the first that is not. -/
def reached (p : Smtp.Primitives) (w : Worker) (v : Visit) (entry : SpoolEntry)
    (groups : List (Text × List Text)) : List (Text × List Text) :=
  groups.takeWhile (Served p w v entry) ++
    (groups.find? fun group ↦ !Served p w v entry group).toList

structure Attempted (p : Smtp.Primitives) (w : Worker) (v : Visit) (entry : SpoolEntry)
    (groups : List (Text × List Text)) (r : List Conversation × Outcome) : Prop where
  id : ∀ c ∈ r.1, c.id = entry.envelope.id
  recipients : (r.1.map (·.recipients)).Sublist (groups.map Prod.snd)
  accepted : ∀ c ∈ r.1, c.accepted = true →
    ∃ group ∈ groups.takeWhile (Served p w v entry), c.recipients = group.2
  delivered : r.2 = .delivered → ∀ group ∈ groups, ∃ c ∈ r.1,
    c.accepted = true ∧ c.recipients = group.2
  notSuppressed : r.2 ≠ .suppressed
  failed : r.2 ≠ .delivered → ∃ group,
    groups.find? (fun group ↦ !Served p w v entry group) = some group ∧
      (w.attemptDomain p v entry group).2 = some r.2 ∧
      ∀ c ∈ (w.attemptDomain p v entry group).1, c ∈ r.1
  among : ∀ c ∈ r.1, ∃ group ∈ reached p w v entry groups,
    (w.attemptDomain p v entry group).1 = some c

theorem attempted_nil : Attempted p w v entry [] ([], .delivered) where
  id := nofun
  recipients := List.Sublist.slnil
  accepted := nofun
  delivered := fun _ ↦ nofun
  notSuppressed := nofun
  failed := fun h ↦ absurd rfl h
  among := nofun

theorem attempted_failed {conversation : Option Conversation} {outcome : Outcome}
    (hattempt : w.attemptDomain p v entry group = (conversation, some outcome))
    (houtcome : outcome ≠ .delivered ∧ outcome ≠ .suppressed)
    (hc : ∀ c ∈ conversation, c.id = entry.envelope.id ∧ c.recipients = group.2 ∧
      c.accepted = false) :
    Attempted p w v entry (group :: groups) (conversation.toList, outcome) where
  id := fun c hmem ↦ (hc c (Option.mem_toList.mp hmem)).1
  recipients := by
    cases conversation with
    | none => exact List.nil_sublist _
    | some c =>
      change [c.recipients].Sublist (group.2 :: groups.map Prod.snd)
      rw [(hc c rfl).2.1]
      exact (List.nil_sublist _).cons_cons _
  accepted := fun c hmem haccepted ↦
    absurd (haccepted.symm.trans (hc c (Option.mem_toList.mp hmem)).2.2) nofun
  delivered := fun h ↦ absurd h houtcome.1
  notSuppressed := houtcome.2
  failed := fun _ ↦ by
    refine ⟨group, ?_, by rw [hattempt], fun c hmem ↦ ?_⟩
    · simp [Served, hattempt]
    · rw [hattempt] at hmem
      exact Option.mem_toList.mpr hmem
  among := fun c hmem ↦ by
    refine ⟨group, ?_, ?_⟩
    · simp [reached, Served, hattempt]
    · rw [hattempt]
      exact Option.mem_toList.mp hmem

theorem Attempted.cons {c : Conversation} {r : List Conversation × Outcome}
    (hattempt : w.attemptDomain p v entry group = (some c, none)) (hid : c.id = entry.envelope.id)
    (hrecipients : c.recipients = group.2) (haccepted : c.accepted = true)
    (h : Attempted p w v entry groups r) :
    Attempted p w v entry (group :: groups) (c :: r.1, r.2) := by
  have hserved : Served p w v entry group = true := by rw [Served, hattempt]; rfl
  constructor
  · intro other hother
    rcases mem_cons.mp hother with rfl | hother
    · exact hid
    · exact h.id other hother
  · rw [map_cons, map_cons, hrecipients]
    exact h.recipients.cons_cons _
  · intro other hother hother'
    rw [List.takeWhile_cons_of_pos hserved]
    rcases mem_cons.mp hother with rfl | hother
    · exact ⟨group, mem_cons_self, hrecipients⟩
    · obtain ⟨found, hfound, heq⟩ := h.accepted other hother hother'
      exact ⟨found, mem_cons_of_mem _ hfound, heq⟩
  · intro hdelivered other hother
    rcases mem_cons.mp hother with rfl | hother
    · exact ⟨c, mem_cons_self, haccepted, hrecipients⟩
    · obtain ⟨found, hfound, heq⟩ := h.delivered hdelivered other hother
      exact ⟨found, mem_cons_of_mem _ hfound, heq⟩
  · exact h.notSuppressed
  · intro houtcome
    obtain ⟨found, hfind, heq, hmem⟩ := h.failed houtcome
    refine ⟨found, ?_, heq, fun other hother ↦ mem_cons_of_mem _ (hmem other hother)⟩
    rw [List.find?_cons_of_neg (by simp [hserved])]
    exact hfind
  · have hreached : reached p w v entry (group :: groups) =
      group :: reached p w v entry groups := by
      simp [reached, hserved]
    rw [hreached]
    intro other hother
    rcases mem_cons.mp hother with rfl | hother
    · exact ⟨group, mem_cons_self, by rw [hattempt]⟩
    · obtain ⟨found, hfound, heq⟩ := h.among other hother
      exact ⟨found, mem_cons_of_mem _ hfound, heq⟩

theorem deliverGroups_spec (p : Smtp.Primitives) (w : Worker) (v : Visit) (entry : SpoolEntry)
    (groups : List (Text × List Text)) :
    Attempted p w v entry groups (w.deliverGroups p v entry groups) := by
  induction groups with
  | nil => exact attempted_nil
  | cons group groups ih =>
    rw [Worker.deliverGroups]
    rcases attemptDomain_cases p w v entry group with
      ⟨c, hattempt, hid, hrecipients, haccepted⟩ | ⟨outcome, conversation, hattempt, houtcome, hc⟩
    · rw [hattempt]
      exact ih.cons hattempt hid hrecipients haccepted
    · rw [hattempt]
      exact attempted_failed hattempt houtcome hc

end Conversations

/-! ## The history -/

def talks (history : List Happening) : List Conversation :=
  history.filterMap fun
    | .conversation c => some c
    | _ => none

@[simp] theorem talks_append (history more : List Happening) :
    talks (history ++ more) = talks history ++ talks more := List.filterMap_append

@[simp] theorem talks_map (conversations : List Conversation) :
    talks (conversations.map .conversation) = conversations := by
  rw [talks, List.filterMap_map]
  exact List.filterMap_some

/-- The state goes on from another without conversations, and with the same spool. -/
structure Quiet (q q' : State) : Prop where
  spool : q'.spool = q.spool
  talks : talks q'.history = Queue.talks q.history

theorem Quiet.refl (q : State) : Quiet q q := ⟨rfl, rfl⟩

theorem Quiet.trans {q q' q'' : State} (h : Quiet q q') (h' : Quiet q' q'') : Quiet q q'' :=
  ⟨h'.spool.trans h.spool, h'.talks.trans h.talks⟩

theorem quiet_report (kind : Kind) (id : Uuid) (entry : SpoolEntry) (reason : Text) (q : State) :
    Quiet q (q.report p w v kind id entry reason) := by
  unfold State.report
  dsimp only
  split
  · exact .refl q
  · split
    · exact .refl q
    · exact ⟨rfl, by simp [Queue.talks]⟩

theorem quiet_bounce (id : Uuid) (reason : Text) (q : State) :
    Quiet q (bounce p w v id reason q) := by
  unfold bounce
  split
  · exact .refl q
  · exact quiet_report _ _ _ _ _

section Suppressing

variable {R : State → State → Prop} (hrefl : ∀ q, R q q)
  (htrans : ∀ {q q' q'' : State}, R q q' → R q' q'' → R q q'')
  (hmark : ∀ (q : State) suppressed suppressedFor mark,
    R q { q with suppressed, suppressedFor, history := q.history ++ [.mark mark] })
include hrefl htrans hmark

/-- Suppressing the recipients of an entry is a row of marks. -/
theorem suppressEntry_induction (id : Uuid) (q : State) : R q (suppressEntry p w v id q) := by
  have hrecipient :
    ∀ account q recipient, R q (State.suppressRecipient p id account q recipient) := by
    intro account q recipient
    have hglobal : R q (q.suppress p id recipient) := by
      unfold State.suppress
      split
      · exact hrefl q
      · exact hmark q _ _ _
    unfold State.suppressRecipient
    dsimp only
    split
    · exact hglobal
    · refine htrans hglobal ?_
      unfold State.suppressFor
      split
      · exact hrefl _
      · exact hmark _ _ _ _
  unfold suppressEntry
  split
  · split
    · exact hrefl q
    next entry hload =>
      clear hload
      induction entry.envelope.recipients generalizing q with
      | nil => exact hrefl q
      | cons recipient recipients ih => exact htrans (hrecipient _ q recipient) (ih _)
  · exact hrefl q

end Suppressing

theorem quiet_suppressEntry (id : Uuid) (q : State) : Quiet q (suppressEntry p w v id q) :=
  suppressEntry_induction .refl .trans (fun _ _ _ _ ↦ ⟨rfl, by simp [Queue.talks]⟩) id q

end Epistle.Queue
