import Epistle.Queue.Runs
import Epistle.Storage.Plan

/-!
# Required TLS

A sender may ask that a message travels inside TLS only. The wish is kept with a message that is
relayed, and a worker that talks to a domain's own exchanger heeds it. It is lost at three places:
what a forward or a filter sends on and what goes back to an original sender are spooled without it,
and a worker that hands a message to a relay looks at the relay's rule only
(`forwarded_in_the_clear`).

The machine here accepts messages and visits entries. Beside the queue, its state says which entries
carry the content of a message that was accepted with the wish, and what they are for.
-/

namespace Epistle.Queue

open TextFormat Storage Interleaving

variable {p : Smtp.Primitives} {w : Worker} {v : Visit}

/-! ## The machine -/

/-- The spooled message has the content of the accepted one. -/
def carries : Purpose → Bool
  | .redirect => true
  | .srsReturn => true
  | .relay => true
  | .bounce => false
  | .reply => false

/-- The queue, and the entries that carry the content of a message for which TLS is required. -/
structure Outbound where
  queue : State
  carriers : List (Uuid × Purpose)

namespace Outbound

inductive Event
  /-- A message is accepted, and what it calls for is written, up to the first fault. -/
  | accept (sink : SplitDelivery) (now : ℕ) (faults : ℕ → Option Text) (ids : List Uuid)
    (message : Smtp.AcceptedMessage)
  /-- An entry comes from elsewhere. -/
  | store (id : Uuid) (message : Smtp.AcceptedMessage)
  | visit (w : Worker) (now : ℕ) (v : Visit) (id : Uuid)

/-- No entry has had the id. -/
def Fresh (o : Outbound) (id : Uuid) : Prop :=
  o.queue.spool.load id = none ∧ (∀ happening ∈ o.queue.history, happening.id ≠ id) ∧
    ∀ carrier ∈ o.carriers, carrier.1 ≠ id

instance (o : Outbound) (id : Uuid) : Decidable (o.Fresh id) :=
  inferInstanceAs (Decidable (_ ∧ _ ∧ _))

/-- What is written for a message is given new ids, and an entry that is visited is in the spool. -/
def allows (p : Smtp.Primitives) (o : Outbound) : Event → Prop
  | .accept sink now faults ids message =>
    ids.length = (sink.deliverWith p now faults message).1.length ∧ ids.Nodup ∧
      ∀ id ∈ ids, o.Fresh id
  | .store id _ => o.Fresh id
  | .visit _ _ _ id => (o.queue.spool.load id).isSome = true

instance (o : Outbound) : ∀ event, Decidable (o.allows p event)
  | .accept _ _ _ _ _ | .store _ _ | .visit _ _ _ _ =>
    by dsimp only [Outbound.allows]; infer_instance

def store (o : Outbound) (id : Uuid) (message : Smtp.AcceptedMessage) : Outbound :=
  { o with queue := { o.queue with spool := o.queue.spool.store id message } }

def write (requireTls : Bool) (o : Outbound) : Write × Uuid → Outbound
  | (.directory _ _, _) | (.copy _ _ _ _, _) => o
  | (.spool purpose message, id) => { o.store id message with
      carriers := if requireTls && carries purpose then o.carriers ++ [(id, purpose)]
        else o.carriers }

def machine (p : Smtp.Primitives) : Machine Outbound Event where
  enabled := Outbound.allows p
  step := fun o event ↦
    match event with
    | .accept sink now faults ids message =>
      ((sink.deliverWith p now faults message).1.zip ids).foldl (write message.requireTls) o
    | .store id message => o.store id message
    | .visit w now v id => { o with queue := (visitEntry p w v now id o.queue).1 }

instance (o : Outbound) (event : Event) : Decidable ((machine p).enabled o event) :=
  inferInstanceAs (Decidable (o.allows p event))

end Outbound

/-- The client has sent the message. -/
def Conversation.transmits (c : Conversation) : Bool :=
  c.transcript.any fun exchange ↦
    match exchange.1 with
    | .content _ => true
    | _ => false

/-- In every conversation in which the content of such a message was sent, the client was told to
require TLS. -/
def Outbound.NeverInTheClear (o : Outbound) : Prop :=
  ∀ c ∈ talks o.queue.history, ∀ carrier ∈ o.carriers, carrier.1 = c.id → c.transmits = true →
    c.requireTls = true

instance (o : Outbound) : Decidable o.NeverInTheClear :=
  inferInstanceAs (Decidable (∀ c ∈ talks o.queue.history, ∀ carrier ∈ o.carriers, _ → _ → _))

/-! ## The condition -/

/-- TLS is required on the way to a domain: by the rule of the relay; without one, by the domain's
policy, or because the entry is a relayed message. -/
def Worker.secures (w : Worker) (purpose : Purpose) (envelope : Envelope) (domain : Text)
    (hop : Hop) : Bool :=
  match w.relayRule envelope domain with
  | some rule => rule.starttls
  | none => hop.enforces || purpose = .relay

/-- When an entry is visited that carries such a message, and the remote of a domain gets the
content, then TLS is required on the way there. -/
def Outbound.Secured (p : Smtp.Primitives) (o : Outbound) : Outbound.Event → Prop
  | .visit w now v id => v.notDue now id o.queue = false → ∀ entry ∈ v.load .entry id o.queue,
    ∀ carrier ∈ o.carriers, carrier.1 = id →
      ∀ group ∈ reached p w v entry (o.queue.groups p w entry),
      (w.attemptDomain p v entry group).1.any Conversation.transmits = true →
        w.secures carrier.2 entry.envelope group.1 (v.hop group.1) = true
  | _ => True

instance (o : Outbound) : ∀ event, Decidable (o.Secured p event)
  | .visit _ _ _ _ => by dsimp only [Outbound.Secured]; infer_instance
  | .accept _ _ _ _ _ => isTrue trivial
  | .store _ _ => isTrue trivial

/-! ## The conversations of an attempt -/

variable {c : Conversation} {entry : SpoolEntry} {q' : State} {now : ℕ} {made : Write × Uuid}

variable {id : Uuid} {q : State} {o : Outbound} {requireTls : Bool}

/-- A conversation of an attempt requires TLS if the way to its domain does. -/
theorem requireTls_of_mem {purpose : Purpose} (hload : v.load .entry id q = some entry)
    (htls : purpose = .relay → entry.envelope.requireTls = true)
    (hsecured : ∀ group ∈ reached p w v entry (q.groups p w entry),
      (w.attemptDomain p v entry group).1.any Conversation.transmits = true →
        w.secures purpose entry.envelope group.1 (v.hop group.1) = true)
    (hc : c ∈ (deliverEntry p w v id q).1) (htransmits : c.transmits = true) :
    c.requireTls = true := by
  have hgroups : c ∈ (w.deliverGroups p v entry (q.groups p w entry)).1 := by
    unfold deliverEntry at hc
    rw [hload] at hc
    dsimp only at hc
    unfold State.groups
    split at hc
    · exact absurd hc nofun
    · split at hc
      · exact absurd hc nofun
      · rename_i groups heq
        rwa [heq]
  obtain ⟨group, hgroup, hattempt⟩ := (deliverGroups_spec p w v entry _).among c hgroups
  have hsecures := hsecured group hgroup (by rw [hattempt]; exact htransmits)
  have hroute : ∃ route, w.route entry.envelope group.1 (v.hop group.1) = .ok route ∧
      c.requireTls = route.tlsRequired := by
    unfold Worker.attemptDomain at hattempt
    split at hattempt
    · exact absurd hattempt nofun
    · rename_i route hroute
      refine ⟨route, hroute, ?_⟩
      split at hattempt <;> rw [← Option.some.inj hattempt]
  obtain ⟨route, hroute, heq⟩ := hroute
  have hrouted := routedWith_route w entry.envelope group.1 (v.hop group.1)
  rw [hroute] at hrouted
  rw [heq, hrouted]
  unfold Worker.secures at hsecures
  cases hrule : w.relayRule entry.envelope group.1 with
  | some rule => rwa [hrule] at hsecures
  | none =>
    rw [hrule] at hsecures
    rw [Option.elim_none]
    rcases Bool.or_eq_true _ _ ▸ hsecures with henforces | hrelay
    · rw [henforces, Bool.true_or]
    · rw [htls (of_decide_eq_true hrelay), Bool.or_true]

/-! ## What becomes of the entries -/

/-- The entries that are left are the same messages. -/
def Retains (q q' : State) : Prop :=
  ∀ id entry', q'.spool.load id = some entry' →
    ∃ entry, q.spool.load id = some entry ∧ entry.SameMessage entry'

theorem retains_visitEntry (now : ℕ) (id : Uuid) (q : State) :
    Retains q (visitEntry p w v now id q).1 :=
  fun _ _ hload ↦ (touches_visitEntry now id q).sameMessage hload

/-! ## Runs -/

/-- The wish is kept with the messages that are relayed, and it was heeded. -/
structure Outbound.Kept (o : Outbound) : Prop where
  relayed : ∀ id, (id, Purpose.relay) ∈ o.carriers → ∀ entry, o.queue.spool.load id = some entry →
    entry.envelope.requireTls = true
  heeded : o.NeverInTheClear

theorem Outbound.Kept.visit (h : o.Kept) (hsecured : o.Secured p (.visit w now v id)) :
    Kept { o with queue := (visitEntry p w v now id o.queue).1 } := by
  constructor
  · intro other hother entry' hload
    obtain ⟨entry, hentry, hsame⟩ := retains_visitEntry (p := p) (w := w) (v := v) now id o.queue
      other entry' hload
    rw [hsame.requireTls]
    exact h.relayed other hother entry hentry
  · cases hdue : v.notDue now id o.queue with
    | true =>
      rw [visitEntry_notDue hdue]
      exact h.heeded
    | false =>
      intro c hc carrier hcarrier hid htransmits
      rw [talks_visitEntry now id o.queue hdue] at hc
      rcases List.mem_append.mp hc with hc | hc
      · exact h.heeded c hc carrier hcarrier hid htransmits
      · have hvisited : carrier.1 = id := hid.trans ((deliverEntry_talks p w v id o.queue).1 c hc)
        obtain ⟨entry, hload, -⟩ := attempted_of_mem hc
        refine requireTls_of_mem hload ?_ (hsecured hdue entry hload carrier hcarrier hvisited) hc
          htransmits
        intro hrelay
        refine h.relayed id ?_ entry (load_of_visitLoad hload)
        rw [← hrelay, ← hvisited]
        exact hcarrier

theorem Outbound.Kept.write (h : o.Kept) (hfresh : o.Fresh made.2)
    (hrelay : ∀ message, made.1 = .spool .relay message → message.requireTls = requireTls) :
    (o.write requireTls made).Kept := by
  obtain ⟨w, id⟩ := made
  obtain ⟨hload, hhistory, hcarriers⟩ := hfresh
  cases w with
  | directory account mailbox | copy account mailbox data flags => exact h
  | spool purpose message =>
    have hmem : ∀ carrier ∈ (o.write requireTls (.spool purpose message, id)).carriers,
        carrier ∈ o.carriers ∨ carrier = (id, purpose) ∧ requireTls = true := by
      intro carrier hcarrier
      rw [Outbound.write] at hcarrier
      split at hcarrier
      · rename_i hcarries
        rcases List.mem_append.mp hcarrier with hcarrier | hcarrier
        · exact .inl hcarrier
        · exact .inr ⟨List.mem_singleton.mp hcarrier, (Bool.and_eq_true _ _ ▸ hcarries).1⟩
      · exact .inl hcarrier
    constructor
    · intro other hother entry hentry
      change (o.queue.spool.store id message).load other = some entry at hentry
      rw [Spool.load_store] at hentry
      rcases hmem _ hother with hold | ⟨heq, htls⟩
      · rw [if_neg (hcarriers _ hold).symm, Option.or_none] at hentry
        exact h.relayed other hold entry hentry
      · obtain ⟨rfl, rfl⟩ := Prod.mk.inj heq
        rw [hload, if_pos rfl, Option.none_or] at hentry
        rw [← Option.some.inj hentry]
        exact (hrelay message rfl).trans htls
    · intro c hc carrier hcarrier hid htransmits
      rcases hmem _ hcarrier with hold | ⟨rfl, -⟩
      · exact h.heeded c hc carrier hold hid htransmits
      · -- no conversation has been about the new entry
        obtain ⟨happening, hhappening, hsome⟩ := List.mem_filterMap.mp hc
        cases happening with
        | conversation other =>
          obtain rfl := Option.some.inj hsome
          exact absurd hid.symm (hhistory _ hhappening)
        | report r | mark m => exact absurd hsome nofun

theorem Outbound.Fresh.write (h : o.Fresh id)
    (hne : made.2 ≠ id) : (o.write requireTls made).Fresh id := by
  obtain ⟨hload, hhistory, hcarriers⟩ := h
  obtain ⟨w, other⟩ := made
  cases w with
  | directory account mailbox | copy account mailbox data flags =>
    exact ⟨hload, hhistory, hcarriers⟩
  | spool purpose message =>
    refine ⟨?_, hhistory, ?_⟩
    · change (o.queue.spool.store other message).load id = none
      rw [Spool.load_store, hload, if_neg hne]
      rfl
    · intro carrier hcarrier
      rw [Outbound.write] at hcarrier
      split at hcarrier
      · rcases List.mem_append.mp hcarrier with hcarrier | hcarrier
        · exact hcarriers carrier hcarrier
        · rw [List.mem_singleton.mp hcarrier]
          exact hne
      · exact hcarriers carrier hcarrier

theorem Outbound.Kept.writeAll {made : List (Write × Uuid)} (hnodup : (made.map Prod.snd).Nodup)
    (hrelay : ∀ pair ∈ made, ∀ message, pair.1 = .spool .relay message →
      message.requireTls = requireTls) :
    ∀ {o : Outbound}, o.Kept → (∀ pair ∈ made, o.Fresh pair.2) →
      (made.foldl (Outbound.write requireTls) o).Kept := by
  induction made with
  | nil => exact fun h _ ↦ h
  | cons first made ih =>
    intro o h hfresh
    rw [List.map_cons, List.nodup_cons] at hnodup
    refine ih hnodup.2 (fun pair hpair ↦ hrelay pair (List.mem_cons_of_mem _ hpair))
      (h.write (hfresh first List.mem_cons_self) (hrelay first List.mem_cons_self)) ?_
    intro pair hpair
    refine (hfresh pair (List.mem_cons_of_mem _ hpair)).write fun heq ↦ hnodup.1 ?_
    rw [heq]
    exact List.mem_map_of_mem hpair

theorem requireTls_of_relay {sink : SplitDelivery} {faults : ℕ → Option Text}
    {message relayed : Smtp.AcceptedMessage}
    (h : Write.spool .relay relayed ∈ (sink.deliverWith p now faults message).1) :
    relayed.requireTls = message.requireTls := by
  have hwrites := Effects.Filing.mem_of_mem_run h
  have haway : ∀ split, Write.spool .relay relayed ∈ sink.awayWrites message split →
      relayed.requireTls = message.requireTls := by
    intro split hmem
    rw [SplitDelivery.awayWrites, List.mem_append] at hmem
    rcases hmem with hmem | hmem
    · simp at hmem
    · split at hmem
      · exact absurd hmem nofun
      · obtain ⟨-, rfl⟩ := Write.spool.inj (List.mem_singleton.mp hmem)
        rfl
  rw [SplitDelivery.deliver_eq] at hwrites
  unfold SplitDelivery.writesFor at hwrites
  cases hsplit : sink.split p now message.recipients with
  | error error =>
    rw [hsplit] at hwrites
    exact absurd hwrites nofun
  | ok split =>
    rw [hsplit] at hwrites
    dsimp only at hwrites
    cases hhere : split.here.isEmpty with
    | true =>
      rw [hhere] at hwrites
      exact haway split hwrites
    | false =>
      rw [hhere] at hwrites
      cases haccounts : sink.here.routedTo p { message with recipients := split.here }
          (sink.hintFor message) with
      | error error =>
        rw [haccounts] at hwrites
        exact absurd hwrites nofun
      | ok accounts =>
        rw [haccounts] at hwrites
        rcases List.mem_append.mp hwrites with hmem | hmem
        · -- what is written for the recipients that are here is not relayed
          rcases List.mem_append.mp hmem with hmem | hmem
          · obtain ⟨account, -, hcopy⟩ := List.mem_flatMap.mp hmem
            exact absurd (LocalDelivery.account_of_mem_copies _ hcopy) nofun
          · rw [SplitDelivery.deliveredWrites] at hmem
            cases hdata : sink.forwardData p message.data <;> simp [hdata] at hmem
        · split at hmem
          · exact haway split hmem
          · exact absurd hmem nofun

/-- **Required TLS is never dropped**, in every run in which, when an entry is visited that carries
the content of a message with the wish, TLS is required on the way to each domain that gets the
content. -/
theorem neverInTheClear_of_secured (p : Smtp.Primitives) {o₀ o : Outbound}
    (h₀ : o₀.queue.history = [] ∧ o₀.carriers = [])
    (hreach : (Outbound.machine p).Reach (Outbound.Secured p) o₀ o) : o.NeverInTheClear := by
  have hkept : o.Kept := by
    refine Machine.Reach.invariant (I := Outbound.Kept) ?_ ?_ hreach
    · constructor
      · rw [h₀.2]
        exact nofun
      · rw [Outbound.NeverInTheClear, h₀.1]
        exact nofun
    · intro o event ho henabled hsecured
      cases event with
      | visit w now v id => exact ho.visit hsecured
      | store id message =>
        have hwrite : (o.write false (.spool .bounce message, id)).Kept := ho.write henabled nofun
        exact hwrite
      | accept sink now faults ids message =>
        obtain ⟨hlength, hnodup, hfresh⟩ := henabled
        refine Outbound.Kept.writeAll ?_ ?_ ho ?_
        · rwa [List.map_snd_zip (le_of_eq hlength)]
        · intro pair hpair relayed heq
          have hmem := (List.of_mem_zip hpair).1
          rw [heq] at hmem
          exact requireTls_of_relay hmem
        · exact fun pair hpair ↦ hfresh pair.2 (List.of_mem_zip hpair).2
  exact hkept.heeded

/-! ## A forward -/

/-- A remote that takes everything, inside TLS if the client likes. -/
def Peer.offeringTls : Peer where
  answer := fun sent ↦ match sent.getLast? with
    | some .connect => .reply 220 []
    | some (.ehlo _) => .reply 250 "STARTTLS".toList
    | some .startTls => .reply 220 []
    | some .data => .reply 354 []
    | _ => .reply 250 []
  handshake := fun _ ↦ .ok ()
  daneMatches := false

def forwarding : SplitDelivery :=
  { twoAccounts with here := { twoAccounts.here with directory := { twoAccounts.here.directory with
      forwards := (∅ : Smtp.Table (List Text × Bool)).insert "u".toList
        (["w@x.org".toList], false) } } }

def confidential (recipient : Text) : Smtp.AcceptedMessage :=
  ⟨"s@c.org".toList, [recipient], [], true, none, []⟩

/-- A message is accepted and the entry that comes of it is visited. -/
def passedOn (recipient : Text) (peer : Peer) : List Outbound.Event :=
  [.accept forwarding 0 (fun _ ↦ none) [.ofNat 1] (confidential recipient),
    .visit .plain 0 (.working fun _ ↦ { Hop.accepting with peer }) (.ofNat 1)]

def Outbound.empty : Outbound := ⟨.empty, []⟩

/-- A message that is relayed travels inside TLS. -/
theorem neverInTheClear_relayed :
    ((passedOn "v@x.org".toList .offeringTls).foldl (Outbound.machine .plain).step
        .empty).NeverInTheClear ∧
      (talks ((passedOn "v@x.org".toList .offeringTls).foldl (Outbound.machine .plain).step
        .empty).queue.history).map (fun c ↦ (c.transmits, c.accepted)) = [(true, true)] := by
  have h₀ : Outbound.empty.queue.history = [] ∧ Outbound.empty.carriers = [] := ⟨rfl, rfl⟩
  exact ⟨neverInTheClear_of_secured .plain h₀ (.of_passes (by decide +kernel)),
    by decide +kernel⟩

/-- A message that is forwarded is sent to a remote that does not know TLS. -/
theorem forwarded_in_the_clear :
    ∃ o, (Outbound.machine .plain).Reach (fun _ _ ↦ True) .empty o ∧ ¬o.NeverInTheClear :=
  ⟨(passedOn "u@b.net".toList .accepting).foldl (Outbound.machine .plain).step .empty,
    .of_passes (by decide +kernel), by decide +kernel⟩

end Epistle.Queue
