import Epistle.Queue.Runs

/-!
# Duplicate deliveries

The worker knows of an entry whether it is done, not for which of its domains. When a domain fails
for now the whole entry is tried again, and domains that have taken the message get it once more
(`deliveredTwice_not_once`). No recipient gets a message twice in the runs in which an entry that
one domain has taken is done with the same visit (`once_of_oneShot`).
-/

namespace Epistle.Queue

open TextFormat Storage Interleaving

variable {p : Smtp.Primitives} {w : Worker} {v : Visit}

/-- The client has got as far as `DATA`. -/
def Conversation.reachesData (c : Conversation) : Bool :=
  c.transcript.any fun exchange ↦ exchange.1 == .data

/-- No conversation that gets as far as `DATA` is about a recipient whom an earlier conversation of
the same entry has served. -/
def Once (history : List Happening) : Prop :=
  (talks history).Pairwise fun earlier later ↦ earlier.id = later.id → earlier.accepted = true →
    later.reachesData = true → ∀ recipient ∈ earlier.recipients, recipient ∉ later.recipients

instance (history : List Happening) : Decidable (Once history) :=
  inferInstanceAs (Decidable (List.Pairwise _ _))

/-- If the entry is due and its first domain takes the message, then it is done with this visit: it
can be removed, and the first domain that fails does not do so for now, unless the entry is given
up. -/
def OneShot (p : Smtp.Primitives) (w : Worker) (q : State) : Event → Prop
  | .visit now v id => v.notDue now id q = false →
    ∀ entry ∈ v.load .entry id q, ∀ first ∈ (q.groups p w entry).head?,
      Served p w v entry first = true →
        v.removal ≠ .failed ∧ (v.messageAge now ≥ w.maxAgeSecs ∨
          ∀ group ∈ (q.groups p w entry).find? fun group ↦ !Served p w v entry group,
            (w.attemptDomain p v entry group).2.any Outcome.isRetry = false)
  | .store _ _ => True

instance (p : Smtp.Primitives) (w : Worker) (q : State) : ∀ event, Decidable (OneShot p w q event)
  | .visit _ _ _ => by dsimp only [OneShot]; infer_instance
  | .store _ _ => isTrue trivial

/-! ## The condition -/

variable {c : Conversation} {id : Uuid} {now : ℕ} {q : State}

/-- If something was accepted then the first domain has taken the message. -/
theorem Attempted.first_served {entry : SpoolEntry} {groups : List (Text × List Text)}
    {r : List Conversation × Outcome} (h : Attempted p w v entry groups r)
    (hc : c ∈ r.1) (haccepted : c.accepted = true) :
    ∃ first ∈ groups.head?, Served p w v entry first = true := by
  obtain ⟨group, hgroup, -⟩ := h.accepted c hc haccepted
  cases groups with
  | nil => exact absurd hgroup nofun
  | cons first rest =>
    refine ⟨first, rfl, ?_⟩
    by_contra hnot
    rw [List.takeWhile_cons_of_neg hnot] at hgroup
    exact absurd hgroup nofun

theorem load_visitEntry_of_accepted
    (hdue : v.notDue now id q = false) (hshot : OneShot p w q (.visit now v id))
    (hc : c ∈ (deliverEntry p w v id q).1) (haccepted : c.accepted = true) :
    (visitEntry p w v now id q).1.spool.load id = none := by
  obtain ⟨entry, hload, -, hattempted⟩ := attempted_of_mem hc
  obtain ⟨first, hfirst, hserved⟩ := hattempted.first_served hc haccepted
  obtain ⟨hremoval, hdone⟩ := hshot hdue entry hload first hfirst hserved
  rw [visitEntry_due hdue]
  split
  · exact load_removeEntry hremoval
  · exact load_removeEntry hremoval
  · exact load_removeEntry hremoval
  · rename_i reason hretry
    rw [retryEntry_eq]
    split
    · exact load_removeEntry hremoval
    · -- the domain that failed for now is excluded by the condition
      rename_i hage
      obtain ⟨group, hfind, hattempt, -⟩ := hattempted.failed (by rw [hretry]; nofun)
      rw [hretry] at hattempt
      rcases hdone with hold | hdone
      · exact absurd hold hage
      · have hnever := hdone group hfind
        rw [hattempt] at hnever
        exact absurd hnever nofun

/-- An entry that was accepted somewhere is not in the spool any more, and no recipient was served
twice. -/
structure Settled (q : State) : Prop where
  gone : ∀ c ∈ talks q.history, c.accepted = true → q.spool.load c.id = none
  once : Once q.history

theorem Settled.visit (h : Settled q)
    (hin : (q.spool.load id).isSome = true) (hshot : OneShot p w q (.visit now v id)) :
    Settled (visitEntry p w v now id q).1 := by
  cases hdue : v.notDue now id q with
  | true =>
    rw [visitEntry_notDue hdue]
    exact h
  | false =>
    obtain ⟨hid, hdisjoint⟩ := deliverEntry_talks p w v id q
    have hframe := frame_visitEntry (p := p) (w := w) (v := v) now id q
    constructor
    · intro c hc haccepted
      rw [talks_visitEntry now id q hdue] at hc
      rcases List.mem_append.mp hc with hc | hc
      · -- an older conversation is about another entry
        have hgone := h.gone c hc haccepted
        have hne : c.id ≠ id := by
          rintro rfl
          rw [hgone] at hin
          exact absurd hin nofun
        rw [hframe c.id hne]
        exact hgone
      · rw [hid c hc]
        exact load_visitEntry_of_accepted hdue hshot hc haccepted
    · rw [Once, talks_visitEntry now id q hdue, List.pairwise_append]
      refine ⟨h.once, hdisjoint.imp fun hne _ _ _ ↦ hne, ?_⟩
      intro earlier hearlier later hlater heq haccepted
      have hgone := h.gone earlier hearlier haccepted
      rw [heq, hid later hlater] at hgone
      rw [hgone] at hin
      exact absurd hin nofun

theorem Settled.store {message : Smtp.AcceptedMessage} (h : Settled q)
    (hfresh : ∀ happening ∈ q.history, happening.id ≠ id) :
    Settled { q with spool := q.spool.store id message } := by
  refine ⟨fun c hc haccepted ↦ ?_, h.once⟩
  have hne : id ≠ c.id := by
    obtain ⟨happening, hmem, heq⟩ := List.mem_filterMap.mp hc
    cases happening with
    | conversation other =>
      obtain rfl := Option.some.inj heq
      exact (hfresh _ hmem).symm
    | report r | mark m => exact absurd heq nofun
  rw [Spool.load_store, h.gone c hc haccepted, if_neg hne]
  rfl

/-- **No recipient gets a message twice**, in every run of visits and new entries in which an entry
that its first domain has taken is done with the same visit. -/
theorem once_of_oneShot (p : Smtp.Primitives) (w : Worker) {q₀ q : State} (h₀ : q₀.history = [])
    (hreach : (machine p w).Reach (OneShot p w) q₀ q) : Once q.history := by
  have hsettled : Settled q := by
    refine Machine.Reach.invariant (I := Settled) ?_ ?_ hreach
    · refine ⟨?_, ?_⟩
      · rw [h₀]
        exact nofun
      · rw [Once, h₀]
        exact List.Pairwise.nil
    · intro q event hq henabled hshot
      cases event with
      | visit now v id => exact hq.visit henabled hshot
      | store id message => exact hq.store henabled.2
  exact hsettled.once

/-! ## Two domains -/

def secondAway : List Event :=
  [.store (.ofNat 1) twoDomains,
    .visit 0 (.working fun domain ↦
      if domain = "y.org".toList then .unreachable else .accepting) (.ofNat 1),
    .visit 1000 (.working fun _ ↦ .accepting) (.ofNat 1)]

def firstAway : List Event :=
  [.store (.ofNat 1) twoDomains,
    .visit 0 (.working fun domain ↦
      if domain = "x.org".toList then .unreachable else .accepting) (.ofNat 1),
    .visit 1000 (.working fun _ ↦ .accepting) (.ofNat 1)]

theorem once_firstAway :
    Once (firstAway.foldl (machine .plain .plain).step .empty).history ∧
      (talks (firstAway.foldl (machine .plain .plain).step .empty).history).map (·.recipients) =
        [["u@x.org".toList], ["v@y.org".toList]] :=
  ⟨once_of_oneShot .plain .plain (rfl : State.empty.history = [])
    (.of_passes (by decide +kernel)), by decide +kernel⟩

/-- The first domain gets the message again when the second one is there. -/
theorem deliveredTwice_not_once :
    ∃ q, (machine .plain .plain).Reach (fun _ _ ↦ True) .empty q ∧ ¬Once q.history :=
  ⟨secondAway.foldl (machine .plain .plain).step .empty,
    .of_passes (by decide +kernel), by decide +kernel⟩

end Epistle.Queue
