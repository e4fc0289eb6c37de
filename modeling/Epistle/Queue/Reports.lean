import Epistle.Queue.Runs

/-!
# What reports and the suppression list say

A report of a failure should name recipients who have not got the message, and only a recipient whom
the remote has refused for good should be suppressed. The worker reports and suppresses the
recipients of the whole entry when one domain fails. So it names recipients of domains that have
taken the message, and suppresses recipients that nobody has refused
(`servedAndBounced_not_truthful`). It does neither if the first domain is the one that fails, in
this attempt as in those before, and if what this domain refuses is the entry as a whole (`Fair`).
-/

namespace Epistle.Queue

open TextFormat Storage Interleaving

variable {p : Smtp.Primitives} {w : Worker} {v : Visit}

/-- The remote has refused the recipient for good, or the transaction as a whole: the last reply is
a permanent one, and not to the naming of somebody else. -/
def Conversation.refuses (c : Conversation) (recipient : Text) : Bool :=
  c.recipients.contains recipient && c.transcript.getLast?.any fun exchange ↦
    match exchange with
    | (.rcptTo named, .reply code _) => code ≥ 500 && named == recipient
    | (_, .reply code _) => code ≥ 500
    | (_, .broken _) => false

/-- No conversation about the entry has served the recipient. -/
def Untaken (conversations : List Conversation) (id : Uuid) (recipient : Text) : Prop :=
  ∀ c ∈ conversations, c.id = id → c.accepted = true → recipient ∉ c.recipients

instance (conversations : List Conversation) (id : Uuid) (recipient : Text) :
    Decidable (Untaken conversations id recipient) :=
  by delta Untaken; infer_instance

/-- What a report or a mark says is true, after the given conversations. -/
def Honest (earlier : List Conversation) : Happening → Prop
  | .conversation _ => True
  | .report r => r.kind = .failed → ∀ recipient ∈ r.recipients, Untaken earlier r.id recipient
  | .mark m => Untaken earlier m.id m.recipient ∧
      ∃ c ∈ earlier, c.id = m.id ∧ c.refuses m.recipient = true

instance (earlier : List Conversation) : ∀ happening, Decidable (Honest earlier happening)
  | .conversation _ => isTrue trivial
  | .report _ | .mark _ => by dsimp only [Honest]; infer_instance

/-- Everything that is said in a history is true when it is said. -/
def Truthful : List Conversation → List Happening → Prop
  | _, [] => True
  | earlier, happening :: history =>
    Honest earlier happening ∧ Truthful (earlier ++ talks [happening]) history

instance decidableTruthful : ∀ (earlier : List Conversation) (history : List Happening),
    Decidable (Truthful earlier history)
  | _, [] => isTrue trivial
  | earlier, happening :: history =>
    have := decidableTruthful (earlier ++ talks [happening]) history
    inferInstanceAs (Decidable (Honest earlier happening ∧ Truthful _ history))

theorem truthful_append (history more : List Happening) : ∀ earlier : List Conversation,
    Truthful earlier (history ++ more) ↔
      Truthful earlier history ∧ Truthful (earlier ++ talks history) more := by
  induction history with
  | nil => simp [Truthful, talks]
  | cons happening history ih =>
    intro earlier
    have hcons : talks (happening :: history) = talks [happening] ++ talks history :=
      talks_append [happening] history
    rw [List.cons_append, Truthful, ih, Truthful, hcons, List.append_assoc, and_assoc]

theorem truthful_conversations (conversations : List Conversation) :
    ∀ earlier : List Conversation, Truthful earlier (conversations.map .conversation) := by
  induction conversations with
  | nil => exact fun _ ↦ trivial
  | cons c conversations ih => exact fun earlier ↦ ⟨trivial, ih _⟩

/-- Marks are true if each of them is, since there is no conversation between them. -/
theorem truthful_marks {earlier : List Conversation} {marks : List Mark}
    (h : ∀ m ∈ marks, Honest earlier (.mark m)) : Truthful earlier (marks.map .mark) := by
  induction marks with
  | nil => trivial
  | cons m marks ih =>
    refine ⟨h m List.mem_cons_self, ?_⟩
    rw [show talks [Happening.mark m] = [] from rfl, List.append_nil]
    exact ih fun other hother ↦ h other (List.mem_cons_of_mem _ hother)

/-! ## The condition -/

section Condition

variable (p : Smtp.Primitives) (w : Worker) (v : Visit)
variable (id : Uuid) (q : State)

/-- The domains that take the message in this attempt, with their recipients. -/
def State.taking : List (Text × List Text) :=
  ((v.load .entry id q).map fun entry ↦
    (q.groups p w entry).takeWhile (Served p w v entry)).getD []

/-- What the first domain does that does not take the message. -/
def State.stopping : Option (Option Conversation × Option Outcome) :=
  (v.load .entry id q).bind fun entry ↦
    ((q.groups p w entry).find? fun group ↦ !Served p w v entry group).map
      (w.attemptDomain p v entry)

/-- A recipient that is still to be served cannot be read. -/
def State.unparseable : Bool :=
  (v.load .entry id q).any fun entry ↦
    (q.openRecipients p w entry.envelope).any fun recipient ↦
      (Smtp.Address.parse p.unicode recipient).toOption.isNone

/-- The first domain that does not take the message refuses it for good, or there is a recipient
that cannot be read. -/
def State.refused : Bool :=
  q.unparseable p w v id ||
    (q.stopping p w v id).any fun attempt ↦ attempt.2.any fun outcome ↦ !outcome.isRetry

/-- Someone does not take the message, or it cannot be read, and its time is over. -/
def State.expired (now : ℕ) (id : Uuid) (q : State) : Bool :=
  ((q.stopping p w v id).isSome || (v.load .entry id q).isNone) && v.messageAge now ≥ w.maxAgeSecs

/-- No domain takes the message before the attempt fails, and none has taken it before. -/
def State.Undelivered : Prop :=
  q.taking p w v id = [] ∧ ∀ c ∈ talks q.history, c.id = id → c.accepted = false

/-- A permanent reply that is about all of the recipients: only one that is alone is refused by
name. -/
def aboutAll (recipients : List Text) : Sent × Answer → Bool
  | (_, .broken _) => false
  | (sent, .reply code _) => code ≥ 500 && match sent with
    | .rcptTo named => recipients.all (· = named)
    | _ => true

/-- All recipients are in the domain that does not take the message, and are refused together. -/
def State.RefusedWhole (recipients : List Text) (q : State) : Prop :=
  ∃ attempt ∈ q.stopping p w v id, ∃ c ∈ attempt.1, recipients ⊆ c.recipients ∧
    c.transcript.getLast?.any (aboutAll recipients) = true

instance (id : Uuid) (q : State) : Decidable (q.Undelivered p w v id) :=
  by delta State.Undelivered; infer_instance

instance (id : Uuid) (recipients : List Text) (q : State) :
    Decidable (q.RefusedWhole p w v id recipients) :=
  by delta State.RefusedWhole; infer_instance

end Condition

/-- An entry that is given up has been delivered to nobody, if its sender is told. If its recipients
are suppressed, then they have been refused as a whole as well. -/
def Fair (p : Smtp.Primitives) (w : Worker) (q : State) : Event → Prop
  | .visit now v id => v.notDue now id q = false → ∀ entry ∈ q.spool.load id,
      (q.refused p w v id = true ∨ q.expired p w v now id = true →
        entry.envelope.reversePath ≠ [] → q.Undelivered p w v id) ∧
      (q.refused p w v id = true → w.suppression = true →
        q.Undelivered p w v id ∧ q.RefusedWhole p w v id entry.envelope.recipients)
  | .store _ _ => True

instance (p : Smtp.Primitives) (w : Worker) (q : State) : ∀ event, Decidable (Fair p w q event)
  | .visit _ _ _ => by dsimp only [Fair]; infer_instance
  | .store _ _ => isTrue trivial

/-! ## What an attempt says about its domains -/

section Attempt

variable {id : Uuid} {q : State}

/-- The domains that have taken the message are those that were found to take it. -/
theorem taken_of_accepted {c : Conversation} (hc : c ∈ (deliverEntry p w v id q).1)
    (haccepted : c.accepted = true) : ∃ group ∈ q.taking p w v id, c.recipients = group.2 := by
  obtain ⟨entry, hload, -, hattempted⟩ := attempted_of_mem hc
  rw [State.taking, hload]
  exact hattempted.accepted c hc haccepted

/-- An attempt fails because of a recipient that cannot be read or because of the first domain that
does not take the message. -/
theorem stopping_of_failed {entry : SpoolEntry} (hload : v.load .entry id q = some entry)
    (hdelivered : (deliverEntry p w v id q).2 ≠ .delivered)
    (hsuppressed : (deliverEntry p w v id q).2 ≠ .suppressed) :
    (q.unparseable p w v id = true ∧ q.stopping p w v id = none ∧
        (deliverEntry p w v id q).2.isRetry = false) ∨
      ∃ attempt ∈ q.stopping p w v id, attempt.2 = some (deliverEntry p w v id q).2 ∧
        ∀ c ∈ attempt.1, c ∈ (deliverEntry p w v id q).1 := by
  rcases deliverEntry_spec (p := p) (w := w) hload with
    (⟨heq, -⟩ | ⟨unread, hunread, heq⟩) | ⟨-, -, hattempted⟩
  · exact absurd (by rw [heq]) hsuppressed
  · refine .inl ⟨?_, ?_, by rw [heq]; rfl⟩
    · obtain ⟨hmem, hnone⟩ := groupByDomain_error hunread
      rw [State.unparseable, hload, Option.any_some, List.any_eq_true]
      exact ⟨unread, hmem, by rw [hnone]; rfl⟩
    · rw [State.stopping, hload, Option.bind_some, State.groups, hunread]
      rfl
  · obtain ⟨group, hfind, houtcome, hmem⟩ := hattempted.failed hdelivered
    refine .inr ⟨w.attemptDomain p v entry group, ?_, houtcome, hmem⟩
    rw [State.stopping, hload, Option.bind_some, hfind]
    rfl

variable {reason : Text}

theorem refused_of_dropped (h : (deliverEntry p w v id q).2 = .dropped reason) :
    q.refused p w v id = true := by
  cases hload : v.load .entry id q with
  | none =>
    rw [deliverEntry, hload] at h
    cases h
  | some entry =>
    rw [State.refused, Bool.or_eq_true]
    rcases stopping_of_failed (p := p) (w := w) hload (by simp [h]) (by simp [h]) with
      ⟨hunread, -⟩ | ⟨attempt, hattempt, houtcome, -⟩
    · exact .inl hunread
    · refine .inr ?_
      rw [Option.mem_def.mp hattempt, Option.any_some, houtcome, h]
      rfl

theorem expired_of_retry {now : ℕ}
    (h : (deliverEntry p w v id q).2 = .retry reason) (hage : v.messageAge now ≥ w.maxAgeSecs) :
    q.expired p w v now id = true := by
  rw [State.expired, Bool.and_eq_true, Bool.or_eq_true]
  refine ⟨?_, decide_eq_true hage⟩
  cases hload : v.load .entry id q with
  | none => exact .inr rfl
  | some entry =>
    rcases stopping_of_failed (p := p) (w := w) hload (by simp [h]) (by simp [h]) with
      ⟨-, -, hretry⟩ | ⟨attempt, hattempt, -⟩
    · rw [h] at hretry
      exact absurd hretry nofun
    · exact .inl (Option.isSome_iff_exists.mpr ⟨attempt, hattempt⟩)

/-- Nobody is served if no domain takes the message. -/
theorem untaken_of_undelivered (h : q.Undelivered p w v id) (recipient : Text) :
    Untaken (talks q.history ++ (deliverEntry p w v id q).1) id recipient := by
  intro c hc hid haccepted
  rcases List.mem_append.mp hc with hc | hc
  · cases (h.2 c hc hid).symm.trans haccepted
  · obtain ⟨group, hgroup, -⟩ := taken_of_accepted hc haccepted
    rw [h.1] at hgroup
    cases hgroup

theorem refuses_of_aboutAll {recipients : List Text} {c : Conversation}
    (hall : recipients ⊆ c.recipients)
    (hlast : c.transcript.getLast?.any (aboutAll recipients) = true) {recipient : Text}
    (hmem : recipient ∈ recipients) : c.refuses recipient = true := by
  rw [Conversation.refuses, Bool.and_eq_true, List.contains_iff_mem]
  refine ⟨hall hmem, ?_⟩
  rw [Option.any_eq_true] at hlast
  obtain ⟨⟨sent, answer⟩, hexchange, habout⟩ := hlast
  rw [hexchange, Option.any_some]
  cases answer with
  | broken reason => cases habout
  | reply code text =>
    cases sent with
    | rcptTo named =>
      obtain ⟨hcode, hnamed⟩ := Bool.and_eq_true_iff.mp habout
      rw [Bool.and_eq_true, beq_iff_eq]
      exact ⟨hcode, (of_decide_eq_true (List.all_eq_true.mp hnamed recipient hmem)).symm⟩
    | _ => exact (Bool.and_eq_true_iff.mp habout).1

/-- Who is refused with the whole entry has been refused when the attempt is over. -/
theorem refuses_of_refusedWhole {recipients : List Text} (h : q.RefusedWhole p w v id recipients)
    (hdropped : (deliverEntry p w v id q).2 = .dropped reason) {recipient : Text}
    (hmem : recipient ∈ recipients) :
    ∃ c ∈ talks q.history ++ (deliverEntry p w v id q).1, c.id = id ∧
      c.refuses recipient = true := by
  obtain ⟨attempt, hattempt, c, hc, hall, hlast⟩ := h
  cases hload : v.load .entry id q with
  | none =>
    rw [deliverEntry, hload] at hdropped
    cases hdropped
  | some entry =>
    rcases stopping_of_failed (p := p) (w := w) hload (by simp [hdropped])
      (by simp [hdropped]) with ⟨-, hnone, -⟩ | ⟨attempt', hattempt', -, htalks⟩
    · cases hnone.symm.trans hattempt
    · obtain rfl := Option.some.inj (hattempt.symm.trans hattempt')
      have hc := htalks c hc
      exact ⟨c, List.mem_append_right _ hc, (deliverEntry_talks p w v id q).1 c hc,
        refuses_of_aboutAll hall hlast hmem⟩

end Attempt

/-! ## Marks -/

/-- The marks that come from suppressing some of the recipients. -/
def Marked (id : Uuid) (recipients : List Text) (q q' : State) : Prop :=
  ∃ marks : List Mark, q'.history = q.history ++ marks.map .mark ∧
    ∀ m ∈ marks, m.id = id ∧ m.recipient ∈ recipients

variable {recipient reason : Text} {recipients : List Text} {entry : SpoolEntry}

theorem Marked.refl (id : Uuid) (recipients : List Text) (q : State) : Marked id recipients q q :=
  ⟨[], (List.append_nil _).symm, nofun⟩

theorem Marked.trans {id : Uuid} {q q' q'' : State} (h : Marked id recipients q q')
    (h' : Marked id recipients q' q'') : Marked id recipients q q'' := by
  obtain ⟨marks, heq, hmarks⟩ := h
  obtain ⟨marks', heq', hmarks'⟩ := h'
  refine ⟨marks ++ marks', ?_, fun m hm ↦ ?_⟩
  · rw [heq', heq, List.map_append, List.append_assoc]
  · rcases List.mem_append.mp hm with hm | hm
    · exact hmarks m hm
    · exact hmarks' m hm

theorem marked_suppressRecipient {id : Uuid} {account : Text} (hmem : recipient ∈ recipients)
    (q : State) : Marked id recipients q (q.suppressRecipient p id account recipient) := by
  have hone : ∀ (q : State) suppressed suppressedFor account, Marked id recipients q
      ⟨q.spool, suppressed, suppressedFor, q.history ++ [.mark ⟨id, recipient, account⟩]⟩ := by
    refine fun q suppressed suppressedFor account ↦ ⟨[⟨id, recipient, account⟩], rfl, fun m hm ↦ ?_⟩
    rw [List.mem_singleton.mp hm]
    exact ⟨rfl, hmem⟩
  have hglobal : Marked id recipients q (q.suppress p id recipient) := by
    unfold State.suppress
    split
    · exact .refl _ _ _
    · exact hone _ _ _ _
  unfold State.suppressRecipient
  split
  · exact hglobal
  · refine hglobal.trans ?_
    unfold State.suppressFor
    dsimp only
    split
    · exact .refl _ _ _
    · exact hone _ _ _ _

theorem marked_foldl (id : Uuid) (account : Text) {all : List Text}
    (hall : ∀ recipient ∈ recipients, recipient ∈ all) : ∀ q : State,
    Marked id all q (recipients.foldl (State.suppressRecipient p id account) q) := by
  induction recipients with
  | nil => exact fun q ↦ .refl _ _ _
  | cons recipient recipients ih =>
    intro q
    exact (marked_suppressRecipient (hall _ List.mem_cons_self) q).trans
      (ih (fun other hother ↦ hall other (List.mem_cons_of_mem _ hother)) _)

theorem history_suppressEntry {id : Uuid} {q : State} (hload : q.spool.load id = some entry) :
    ∃ marks : List Mark, (suppressEntry p w v id q).history = q.history ++ marks.map .mark ∧
      ∀ m ∈ marks, w.suppression = true ∧ m.id = id ∧
        m.recipient ∈ entry.envelope.recipients := by
  unfold suppressEntry
  split
  · rename_i hlist
    split
    · exact ⟨[], (List.append_nil _).symm, nofun⟩
    · rename_i entry' hload'
      obtain rfl := Option.some.inj ((load_of_visitLoad hload').symm.trans hload)
      obtain ⟨marks, heq, hmarks⟩ := marked_foldl (p := p) id entry'.envelope.reversePath
        (fun _ h ↦ h) q
      exact ⟨marks, heq, fun m hm ↦ ⟨hlist, hmarks m hm⟩⟩
  · exact ⟨[], (List.append_nil _).symm, nofun⟩

/-! ## Visits -/

theorem reportOf_some {kind : Kind} {id : Uuid} {r : Report}
    (h : reportOf p w v kind id entry reason = some r) :
    r.id = id ∧ r.kind = kind ∧ entry.envelope.reversePath ≠ [] := by
  unfold reportOf at h
  split at h
  · exact absurd h nofun
  · obtain ⟨message, hmessage, heq⟩ := Option.map_eq_some_iff.mp h
    rw [← heq]
    refine ⟨rfl, rfl, fun hsender ↦ ?_⟩
    rw [buildReport, hsender] at hmessage
    exact absurd hmessage nofun

/-- A report of a failure is true if those who want it have not been served. -/
theorem truthful_bounce {id : Uuid} {q : State} {entry' : SpoolEntry}
    (h : Truthful [] q.history) (hload : q.spool.load id = some entry')
    (hsame : entry.SameMessage entry')
    (hunserved : entry.envelope.reversePath ≠ [] →
      ∀ recipient, Untaken (talks q.history) id recipient) :
    Truthful [] (bounce p w v id reason q).history := by
  rw [history_bounce, truthful_append]
  refine ⟨h, ?_⟩
  cases hread : v.load .bounce id q with
  | none => trivial
  | some found =>
    obtain rfl := Option.some.inj ((load_of_visitLoad hread).symm.trans hload)
    rw [Option.bind_some]
    cases hreport : reportOf p w v .failed id found reason with
    | none => trivial
    | some r =>
      obtain ⟨hid, -, hsender⟩ := reportOf_some hreport
      refine ⟨fun _ recipient _ ↦ ?_, trivial⟩
      rw [List.nil_append, hid]
      exact hunserved (hsame.reversePath ▸ hsender) recipient

theorem truthful_warnDelayed {id : Uuid} {q : State} (h : Truthful [] q.history) :
    Truthful [] (warnDelayed p w v id reason q).history := by
  have hreport : ∀ entry, Truthful [] (q.report p w v .delayed id entry reason).history := by
    intro entry
    rw [history_report, truthful_append]
    refine ⟨h, ?_⟩
    cases hr : reportOf p w v .delayed id entry reason with
    | none => trivial
    | some r =>
      refine ⟨fun hkind ↦ ?_, trivial⟩
      rw [(reportOf_some hr).2.1] at hkind
      exact absurd hkind nofun
  unfold warnDelayed
  split
  · exact h
  · split
    · exact h
    · split <;> exact hreport _

theorem truthful_visitEntry {now : ℕ} {id : Uuid} {q : State} (h : Truthful [] q.history)
    (hin : (q.spool.load id).isSome = true) (hfair : Fair p w q (.visit now v id)) :
    Truthful [] (visitEntry p w v now id q).1.history := by
  obtain ⟨entry, hload⟩ := Option.isSome_iff_exists.mp hin
  cases hdue : v.notDue now id q with
  | true =>
    rw [visitEntry_notDue hdue]
    exact h
  | false =>
    obtain ⟨hreports, hmarks⟩ := hfair hdue entry hload
    have hheld : Truthful [] (q.held (deliverEntry p w v id q).1).history := by
      rw [State.held_history, truthful_append]
      exact ⟨h, truthful_conversations _ _⟩
    have htalks : talks (q.held (deliverEntry p w v id q).1).history =
        talks q.history ++ (deliverEntry p w v id q).1 := by
      rw [State.held_history, talks_append, talks_map]
    rw [visitEntry_due hdue]
    split
    · rwa [history_removeEntry]
    · rename_i reason hdropped
      have hrefused := refused_of_dropped hdropped
      rw [history_removeEntry]
      have hbounce : Truthful [] (bounce p w v id reason
          (q.held (deliverEntry p w v id q).1)).history := by
        refine truthful_bounce hheld hload (.refl entry) fun hsender recipient ↦ ?_
        rw [htalks]
        exact untaken_of_undelivered (hreports (.inl hrefused) hsender) recipient
      have hquiet := quiet_bounce (p := p) (w := w) (v := v) id reason
        (q.held (deliverEntry p w v id q).1)
      obtain ⟨marks, heq, hmark⟩ := history_suppressEntry (p := p) (w := w) (v := v)
        ((congrArg (Spool.load id) hquiet.spool).trans hload)
      rw [heq, truthful_append]
      refine ⟨hbounce, truthful_marks fun m hm ↦ ?_⟩
      obtain ⟨hlist, hid, hmem⟩ := hmark m hm
      obtain ⟨hundelivered, hwhole⟩ := hmarks hrefused hlist
      rw [List.nil_append, hquiet.talks, htalks, Honest, hid]
      exact ⟨untaken_of_undelivered hundelivered _, refuses_of_refusedWhole hwhole hdropped hmem⟩
    · rwa [history_removeEntry]
    · rename_i reason hretry
      rw [retryEntry_eq]
      have hrecorded : Truthful [] (recorded v now id
          (q.held (deliverEntry p w v id q).1)).history := by
        rwa [history_recorded]
      split
      · rename_i hage
        rw [history_removeEntry]
        obtain ⟨entry', hload', hsame⟩ := load_recorded (v := v) now
          (q := q.held (deliverEntry p w v id q).1) hload
        refine truthful_bounce hrecorded hload' hsame fun hsender recipient ↦ ?_
        rw [history_recorded, htalks]
        exact untaken_of_undelivered
          (hreports (.inr (expired_of_retry hretry hage)) hsender) recipient
      · split
        · exact truthful_warnDelayed hrecorded
        · exact hrecorded

/-- **Reports and marks name failures only**, in every run of visits and new entries in which no
entry that is given up has been delivered to anybody, and none that is suppressed has been refused
in part. -/
theorem truthful_of_fair (p : Smtp.Primitives) (w : Worker) {q₀ q : State} (h₀ : q₀.history = [])
    (hreach : (machine p w).Reach (Fair p w) q₀ q) : Truthful [] q.history := by
  refine Machine.Reach.invariant (I := fun q ↦ Truthful [] q.history) ?_ ?_ hreach
  · rw [h₀]
    trivial
  · intro q event hq henabled hfair
    cases event with
    | visit now v id => exact truthful_visitEntry hq henabled hfair
    | store id message => exact hq

/-! ## A refused recipient -/

-- what is said in a run is not to be worked out while terms about it are elaborated
attribute [irreducible] Truthful

/-- The exchangers of the second domain refuse, the others take everything. -/
def Visit.secondRefuses : Visit := .working fun domain ↦
  if domain = "y.org".toList then .refusing else .accepting

def secondDomain : Smtp.AcceptedMessage := { twoDomains with recipients := ["v@y.org".toList] }

def refusedRun (message : Smtp.AcceptedMessage) : List Event :=
  [.store (.ofNat 1) message, .visit 0 .secondRefuses (.ofNat 1)]

def named (history : List Happening) : List (List Text) :=
  history.filterMap fun
    | .conversation _ => none
    | .report r => some r.recipients
    | .mark m => some [m.recipient]

theorem truthful_refusedRun :
    Truthful [] ((refusedRun secondDomain).foldl (machine .plain .plain).step .empty).history ∧
      named ((refusedRun secondDomain).foldl (machine .plain .plain).step .empty).history =
        [["v@y.org".toList], ["v@y.org".toList], ["v@y.org".toList]] := by
  have hreach : (machine .plain .plain).Reach (Fair .plain .plain) .empty
      ((refusedRun secondDomain).foldl (machine .plain .plain).step .empty) :=
    .of_passes (by decide +kernel)
  exact ⟨truthful_of_fair .plain .plain rfl hreach, by decide +kernel⟩

/-- The first domain has taken the message, and its recipient is reported and suppressed. -/
theorem servedAndBounced_not_truthful :
    ∃ q, (machine .plain .plain).Reach (fun _ _ ↦ True) .empty q ∧ ¬Truthful [] q.history :=
  ⟨(refusedRun twoDomains).foldl (machine .plain .plain).step .empty,
    .of_passes (by decide +kernel), by decide +kernel⟩

end Epistle.Queue
