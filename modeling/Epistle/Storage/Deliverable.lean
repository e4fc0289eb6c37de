import Epistle.Storage.Plan

/-!
# Accepted recipients can be delivered to

A session accepts a recipient when the address resolves, and the delivery resolves it again. The two
do not agree about everything. A list of recipients that all resolve may have no account in it,
since an alias resolves even if none of its members does. The rules may file a message into a
mailbox whose name is not safe. The address that the session remembers need not be one that is
accepted: the ASCII form of a domain can be longer than the domain, and a look-alike. And the test
for addresses of reports cuts the local part after five bytes, in the middle of a character if there
is one. Last, a sealer reads the chain of every message that is for somebody here, and there are
chains on which that panics.

Such a message is refused again and again, although the recipients were accepted
(`toNobody_not_delivered`). In all other cases it is delivered (`deliver_ok_iff`).
-/

namespace Epistle.Storage

open TextFormat Effects Smtp.Acceptance

def Awaiting (s : Smtp.Session) : Prop :=
  (∃ reversePath requireTls, s.state = .receivingRecipients reversePath requireTls) ∨
    ∃ t, s.state = .receivingData t ∧ t.body = [] ∧ t.chunking = false ∧
      t.recipients.length < Smtp.maxRecipients

/-- `RCPT` is accepted, and the recipient is remembered as this text. -/
def Takes (p : Smtp.Primitives) (s : Smtp.Session) (forwardPath recipient : Text) : Prop :=
  ∃ (notify : Option Smtp.Notify) (t : Smtp.Transaction),
    s.rcptTo p forwardPath notify = (.reply .ok, { s with state := .receivingData t }) ∧
    t.recipients.getLast? = some recipient

/-- A session without a user accepts the recipient. -/
def AcceptedAtRcpt (p : Smtp.Primitives) (directory : Smtp.Directory) (recipient : Text) : Prop :=
  ∃ s forwardPath, s.directory = directory ∧ s.authenticated = none ∧
    Takes p s forwardPath recipient

variable {forwardPath t : Text} {s : Smtp.Session}

/-- A session without a user remembers the displayed form of an address that resolves. -/
theorem Takes.resolves {p : Smtp.Primitives} {recipient : Text}
    (hnobody : s.authenticated = none) (h : Takes p s forwardPath recipient) :
    ∃ address, Smtp.Address.parse p.unicode forwardPath = .ok address ∧
      recipient = address.toText ∧ isLocal (s.directory.resolve address) = true := by
  obtain ⟨notify, t, hstep, hlast⟩ := h
  rcases rcptTo_cases p forwardPath notify s with
    ⟨reply, hcode, heq⟩ | ⟨address, hparse, hrefuse, t', -, heq⟩
  · rw [heq] at hstep
    cases (Prod.mk.inj hstep).1
    exact absurd rfl hcode
  · refine ⟨address, hparse, ?_, ?_⟩
    · rw [heq] at hstep
      have hstate := congrArg Smtp.Session.state (Prod.mk.inj hstep).2
      rw [← Smtp.State.receivingData.inj hstate, addRecipient,
        List.getLast?_append_of_ne_nil _ (by simp), List.getLast?_singleton] at hlast
      exact (Option.some.inj hlast).symm
    · rcases isLocal_of_refuseRecipient hrefuse with hlocal | huser
      · exact hlocal
      · rw [hnobody] at huser
        cases huser

theorem Awaiting.takes {p : Smtp.Primitives} (h : Awaiting s)
    {address : Smtp.Address} (hparse : Smtp.Address.parse p.unicode forwardPath = .ok address)
    (hlocal : isLocal (s.directory.resolve address) = true) :
    Takes p s forwardPath address.toText := by
  have hrefuse : s.refuseRecipient address = none := by
    unfold Smtp.Session.refuseRecipient
    cases hresolve : s.directory.resolve address with
    | account account | «alias» members => rfl
    | notLocal | unknownUser =>
      rw [hresolve] at hlocal
      cases hlocal
  unfold Takes Smtp.Session.rcptTo
  rw [hparse]
  dsimp only
  rw [hrefuse]
  rcases h with ⟨reversePath, requireTls, hstate⟩ | ⟨t, hstate, hbody, hchunking, hlength⟩
  · rw [hstate]
    exact ⟨none, _, rfl, rfl⟩
  · rw [hstate]
    exact ⟨none, _, (if_pos (by simp [hbody, hchunking])).trans (if_neg (Nat.not_le_of_gt hlength)),
      List.getLast?_concat⟩

theorem acceptedAtRcpt_iff {p : Smtp.Primitives} {directory : Smtp.Directory} {recipient : Text} :
    AcceptedAtRcpt p directory recipient ↔ ∃ forwardPath address,
      Smtp.Address.parse p.unicode forwardPath = .ok address ∧ recipient = address.toText ∧
      isLocal (directory.resolve address) = true := by
  constructor
  · rintro ⟨s, forwardPath, rfl, hnobody, h⟩
    exact ⟨forwardPath, h.resolves hnobody⟩
  · rintro ⟨forwardPath, address, hparse, rfl, hlocal⟩
    exact ⟨{ Smtp.Session.new [] with directory, state := .receivingRecipients [] false },
      forwardPath, rfl, rfl, Awaiting.takes (.inl ⟨[], false, rfl⟩) hparse hlocal⟩

/-! ## Addresses of reports -/

/-- The fifth byte ends a character, unless the text is shorter. -/
def CutAtFive (t : Text) : Prop :=
  utf8Len t < 5 ∨ ∃ start rest, t = start ++ rest ∧ utf8Len start = 5

theorem sliceTo_isSome {n : ℕ} :
    (Smtp.sliceTo n t).isSome = true ↔ ∃ start rest, t = start ++ rest ∧ utf8Len start = n := by
  induction n, t using Smtp.sliceTo.induct with
  | case1 t => exact ⟨fun _ ↦ ⟨[], t, rfl, rfl⟩, fun _ ↦ by rw [Smtp.sliceTo]; rfl⟩
  | case2 n =>
    constructor
    · intro h
      cases h
    · rintro ⟨start, rest, heq, hlen⟩
      rw [(List.append_eq_nil_iff.1 heq.symm).1] at hlen
      cases hlen
  | case3 n c t hfits ih =>
    rw [Smtp.sliceTo, if_pos hfits, Option.isSome_map, ih]
    constructor
    · rintro ⟨start, rest, rfl, hlen⟩
      exact ⟨c :: start, rest, rfl, by rw [utf8Len_cons, hlen, Nat.add_sub_of_le hfits]⟩
    · rintro ⟨start, rest, heq, hlen⟩
      cases start with
      | nil => cases hlen
      | cons d start =>
        obtain ⟨rfl, rfl⟩ := List.cons.inj heq
        exact ⟨start, rest, rfl, Nat.eq_sub_of_add_eq' hlen⟩
  | case4 n c t hfits =>
    rw [Smtp.sliceTo, if_neg hfits]
    constructor
    · intro h
      cases h
    · rintro ⟨start, rest, heq, hlen⟩
      cases start with
      | nil => cases hlen
      | cons d start =>
        obtain ⟨rfl, rfl⟩ := List.cons.inj heq
        rw [utf8Len_cons] at hlen
        omega

theorem sliceTo_append (t u : Text) : Smtp.sliceTo (utf8Len t) (t ++ u) = some t := by
  induction t with
  | nil => rw [show utf8Len [] = 0 from rfl, Smtp.sliceTo]
  | cons c t ih =>
    have hpos := c.utf8Size_pos
    obtain ⟨n, hn⟩ := Nat.exists_eq_succ_of_ne_zero (show c.utf8Size + utf8Len t ≠ 0 by omega)
    rw [utf8Len_cons, hn, List.cons_append, Smtp.sliceTo, if_pos (by omega),
      show n + 1 - c.utf8Size = utf8Len t by omega, ih]
    rfl

theorem stripMark_isSome : (Queue.Srs.stripMark t).isSome = true ↔ CutAtFive t := by
  unfold Queue.Srs.stripMark CutAtFive
  split
  · rename_i hshort
    simp [hshort]
  · rename_i hlong
    rw [Option.isSome_map, sliceTo_isSome]
    simp [hlong]

namespace SplitDelivery

variable (p : Smtp.Primitives) (sink : SplitDelivery) (now : ℕ)

/-- The test for addresses of reports does not cut a character of the recipient. -/
def Cuttable (recipient : Text) : Prop :=
  ∀ srs ourDomain localPart domain, sink.srs = some (srs, ourDomain) →
    rsplitOnce '@' recipient = some (localPart, domain) →
      eqIgnoreAsciiCase domain ourDomain = true →
    CutAtFive localPart

theorem srsReturn_isSome {recipient : Text} :
    (sink.srsReturn p now recipient).isSome = true ↔ sink.Cuttable recipient := by
  unfold srsReturn Cuttable
  split
  · rename_i srs ourDomain localPart domain hsrs hsplit
    rw [hsrs, hsplit]
    split
    · rename_i hother
      refine ⟨fun _ srs' ourDomain' localPart' domain' heq heq' hsame ↦ ?_, fun _ ↦ rfl⟩
      obtain ⟨-, rfl⟩ := Prod.mk.inj (Option.some.inj heq)
      obtain ⟨-, rfl⟩ := Prod.mk.inj (Option.some.inj heq')
      rw [hsame] at hother
      cases hother
    · rename_i hsame
      rw [Option.isSome_map, Queue.Srs.reverse, Option.isSome_map, stripMark_isSome]
      constructor
      · intro hcut srs' ourDomain' localPart' domain' _ heq' _
        obtain ⟨rfl, -⟩ := Prod.mk.inj (Option.some.inj heq')
        exact hcut
      · exact fun h ↦ h srs ourDomain localPart domain rfl rfl (by simpa using hsame)
  · rename_i hnone
    exact ⟨fun _ srs ourDomain localPart domain hsrs hsplit _ ↦
      absurd hsplit (hnone srs ourDomain localPart domain hsrs), fun _ ↦ rfl⟩

/-- The recipient is no address of a report. -/
def isOrdinary (recipient : Text) : Bool := (sink.srsReturn p now recipient).any Option.isNone

/-! ## Recipients, one by one -/

def ReadBack (recipient : Text) : Prop :=
  utf8Len recipient ≤ Smtp.maxAddress ∧ ∀ localPart domain,
    rsplitOnce '@' recipient = some (localPart, domain) →
      Domain.checkConfusables p.unicode domain = .ok ()

variable {p sink now}

section

variable {directory : Smtp.Directory} {recipient : Text} (hu : p.unicode.Strict)
  (h : AcceptedAtRcpt p directory recipient)
include hu h

theorem readBack_iff :
    ReadBack p recipient ↔ ∃ address, Smtp.Address.parse p.unicode recipient = .ok address := by
  obtain ⟨forwardPath, address, hparse, rfl, -⟩ := acceptedAtRcpt_iff.1 h
  have hsplit := Smtp.Address.rsplitOnce_toText hparse
  constructor
  · rintro ⟨hlength, hlabels⟩
    exact ⟨address, (Smtp.Address.parse_toText hu hparse).2 ⟨rfl, hlength, hlabels _ _ hsplit⟩⟩
  · rintro ⟨again, hagain⟩
    obtain ⟨-, hlength, hcheck⟩ := (Smtp.Address.parse_toText hu hparse).1 hagain
    refine ⟨hlength, fun localPart domain heq ↦ ?_⟩
    rw [hsplit] at heq
    rw [← (Prod.mk.inj (Option.some.inj heq)).2]
    exact hcheck

theorem isLocal_of_parse {address : Smtp.Address}
    (hparse : Smtp.Address.parse p.unicode recipient = .ok address) :
    isLocal (directory.resolve address) = true := by
  obtain ⟨forwardPath, accepted, haccepted, rfl, hlocal⟩ := acceptedAtRcpt_iff.1 h
  rw [((Smtp.Address.parse_toText hu haccepted).1 hparse).1]
  exact hlocal

end

variable (p sink now)

structure Placeable (recipient : Text) : Prop where
  cuttable : sink.Cuttable recipient
  readBack : sink.isOrdinary p now recipient = true → ReadBack p recipient

variable {p sink now}

section

variable {recipient : Text} (hu : p.unicode.Strict)
  (h : AcceptedAtRcpt p sink.here.directory recipient)
include hu h

/-- An accepted recipient that can be placed is here, or it is an address of a report. -/
theorem place_eq (hplace : sink.Placeable p now recipient) (split : Split) :
    ∃ split', sink.place p now split recipient = .ok split' ∧ split'.remote = split.remote ∧
      split'.here = split.here ++ if sink.isOrdinary p now recipient then [recipient] else [] := by
  have hsome := (sink.srsReturn_isSome p now).2 hplace.cuttable
  have hread := hplace.readBack
  unfold isOrdinary at hread ⊢
  unfold place
  cases hreturn : sink.srsReturn p now recipient with
  | none =>
    rw [hreturn] at hsome
    cases hsome
  | some original =>
    rw [hreturn] at hread
    cases original with
    | some original => exact ⟨_, rfl, rfl, (List.append_nil _).symm⟩
    | none =>
      obtain ⟨address, hparse⟩ := (readBack_iff hu h).1 (hread rfl)
      have hlocal := isLocal_of_parse hu h hparse
      rw [hparse]
      dsimp only
      cases hresolve : sink.here.directory.resolve address with
      | account account | «alias» members => exact ⟨_, rfl, rfl, rfl⟩
      | notLocal | unknownUser =>
        rw [hresolve] at hlocal
        cases hlocal

theorem placeable_of_place {split split' : Split}
    (hplace : sink.place p now split recipient = .ok split') : sink.Placeable p now recipient := by
  unfold place at hplace
  cases hreturn : sink.srsReturn p now recipient with
  | none =>
    rw [hreturn] at hplace
    cases hplace
  | some original =>
    have hcut : sink.Cuttable recipient :=
      (sink.srsReturn_isSome p now).1 (by rw [hreturn]; rfl)
    refine ⟨hcut, fun hordinary ↦ (readBack_iff hu h).2 ?_⟩
    rw [hreturn] at hplace
    rw [isOrdinary, hreturn] at hordinary
    cases original with
    | some original => cases hordinary
    | none =>
      cases hparse : Smtp.Address.parse p.unicode recipient with
      | ok address => exact ⟨address, rfl⟩
      | error error =>
        rw [hparse] at hplace
        cases hplace

end

section

variable {recipients : List Text} (hu : p.unicode.Strict)
  (h : ∀ recipient ∈ recipients, AcceptedAtRcpt p sink.here.directory recipient)
include hu h

/-- The recipients are split exactly if all of them can be placed, and then those that are here are
the ones that are no addresses of reports. -/
theorem split_eq :
    (∀ recipient ∈ recipients, sink.Placeable p now recipient) → ∀ split,
      ∃ split', recipients.foldlM (sink.place p now) split = .ok split' ∧
        split'.here = split.here ++ recipients.filter (sink.isOrdinary p now) ∧
        split'.remote = split.remote := by
  induction recipients with
  | nil => exact fun _ split ↦ ⟨split, rfl, (List.append_nil _).symm, rfl⟩
  | cons recipient recipients ih =>
    intro hplaces split
    rw [List.forall_mem_cons] at h hplaces
    obtain ⟨first, hfirst, hremote, hhere⟩ := place_eq hu h.1 hplaces.1 split
    obtain ⟨last, hlast, hhere', hremote'⟩ := ih h.2 hplaces.2 first
    refine ⟨last, ?_, ?_, hremote'.trans hremote⟩
    · rw [List.foldlM_cons, hfirst]
      exact hlast
    · rw [hhere', hhere, List.append_assoc, List.filter_cons]
      cases sink.isOrdinary p now recipient with
      | true | false => rfl

theorem placeable_of_split :
    ∀ {split split' : Split}, recipients.foldlM (sink.place p now) split = .ok split' →
      ∀ recipient ∈ recipients, sink.Placeable p now recipient := by
  induction recipients with
  | nil => exact fun _ recipient hmem ↦ absurd hmem List.not_mem_nil
  | cons recipient recipients ih =>
    intro split split' hsplit
    rw [List.forall_mem_cons] at h ⊢
    rw [List.foldlM_cons] at hsplit
    cases hfirst : sink.place p now split recipient with
    | error error =>
      rw [hfirst] at hsplit
      cases hsplit
    | ok first =>
      rw [hfirst] at hsplit
      exact ⟨placeable_of_place hu h.1 hfirst, ih h.2 hsplit⟩

end

end SplitDelivery

/-! ## Accounts -/

namespace LocalDelivery

variable (p : Smtp.Primitives) (sink : LocalDelivery)

/-- The accounts that an address resolves to. -/
def accountsIn : Smtp.Resolution → List Text
  | .account account => [account]
  | .alias members => members
  | _ => []

/-- A recipient leads to an account. -/
def Reaches (recipient : Text) : Prop :=
  ∃ address, Smtp.Address.parse p.unicode recipient = .ok address ∧
    accountsIn (sink.directory.resolve address) ≠ []

theorem accountsOf_eq {recipient : Text} {address : Smtp.Address}
    (hparse : Smtp.Address.parse p.unicode recipient = .ok address)
    (hlocal : isLocal (sink.directory.resolve address) = true) :
    sink.accountsOf p recipient = .ok (accountsIn (sink.directory.resolve address)) := by
  rw [accountsOf, hparse]
  dsimp only
  cases hresolve : sink.directory.resolve address with
  | account account | «alias» members => rfl
  | notLocal | unknownUser =>
    rw [hresolve] at hlocal
    cases hlocal

/-- The accounts of recipients that resolve are there, and there are none exactly if no recipient
leads to one. -/
theorem accountsFor_eq {recipients : List Text} (h : ∀ recipient ∈ recipients, ∃ address,
      Smtp.Address.parse p.unicode recipient = .ok address ∧
      isLocal (sink.directory.resolve address) = true) :
    ∃ accounts, recipients.mapM (sink.accountsOf p) = .ok accounts ∧
      (accounts.flatten = [] ↔ ∀ recipient ∈ recipients, ¬sink.Reaches p recipient) := by
  induction recipients with
  | nil => exact ⟨[], rfl, by simp⟩
  | cons recipient recipients ih =>
    rw [List.forall_mem_cons] at h
    obtain ⟨address, hparse, hlocal⟩ := h.1
    obtain ⟨accounts, haccounts, hnone⟩ := ih h.2
    refine ⟨accountsIn (sink.directory.resolve address) :: accounts, ?_, ?_⟩
    · rw [List.mapM_cons, accountsOf_eq p sink hparse hlocal, haccounts]
      rfl
    · rw [List.flatten_cons, List.append_eq_nil_iff, hnone, List.forall_mem_cons]
      refine and_congr ⟨?_, ?_⟩ Iff.rfl
      · rintro hempty ⟨address', hparse', hne⟩
        rw [← Except.ok.inj (hparse.symm.trans hparse')] at hne
        exact hne hempty
      · intro hreaches
        by_contra hne
        exact hreaches ⟨address, hparse, hne⟩

/-- Recipients that resolve are delivered to exactly if the mailbox is safe and one of them leads to
an account. -/
theorem routedTo_isOk (message : Smtp.AcceptedMessage) (mailbox : Option Text)
    (h : ∀ recipient ∈ message.recipients, ∃ address,
      Smtp.Address.parse p.unicode recipient = .ok address ∧
      isLocal (sink.directory.resolve address) = true) :
    (∃ accounts, sink.routedTo p message mailbox = .ok accounts) ↔
      (∀ name ∈ mailbox, isSafeMailbox name = true) ∧
      ∃ recipient ∈ message.recipients, sink.Reaches p recipient := by
  obtain ⟨accounts, haccounts, hnone⟩ := accountsFor_eq p sink h
  have hfor : sink.accountsFor p message = .ok (accounts.flatten.dedup.insertionSort (· ≤ ·)) := by
    rw [accountsFor, haccounts]
    rfl
  have hempty : accounts.flatten.dedup.insertionSort (· ≤ ·) = [] ↔ accounts.flatten = [] := by
    rw [← List.length_eq_zero_iff, List.length_insertionSort, List.length_eq_zero_iff,
      List.dedup_eq_nil]
  constructor
  · rintro ⟨accounts', heq⟩
    obtain ⟨hsafe, hfor', hne⟩ := routedTo_eq_ok.1 heq
    obtain rfl := Except.ok.inj (hfor.symm.trans hfor')
    refine ⟨hsafe, ?_⟩
    by_contra hreaches
    push Not at hreaches
    exact hne (hempty.2 (hnone.2 hreaches))
  · rintro ⟨hsafe, recipient, hmem, hreaches⟩
    exact ⟨_, routedTo_eq_ok.2 ⟨hsafe, hfor,
      fun hnil ↦ hnone.1 (hempty.1 hnil) recipient hmem hreaches⟩⟩

end LocalDelivery

/-! ## The whole delivery -/

namespace SplitDelivery

variable (p : Smtp.Primitives) (sink : SplitDelivery) (now : ℕ)

/-- What acceptance and delivery have to agree on. Recipients at the domain of reports have no
character across the fifth byte of their local part. Of the others, if there are any: their texts
are accepted as addresses, a mailbox that is chosen for the message is safe, and one of them leads
to an account; and if there is a sealer, no ARC field has the number 0 where it is counted. -/
structure Deliverable (message : Smtp.AcceptedMessage) : Prop where
  placeable : ∀ recipient ∈ message.recipients, sink.Placeable p now recipient
  safe : (∃ recipient ∈ message.recipients, sink.isOrdinary p now recipient = true) →
    ∀ name ∈ sink.hintFor message, isSafeMailbox name = true
  reaches : (∃ recipient ∈ message.recipients, sink.isOrdinary p now recipient = true) →
    ∃ recipient ∈ message.recipients, sink.isOrdinary p now recipient = true ∧
      sink.here.Reaches p recipient
  counted : (∃ recipient ∈ message.recipients, sink.isOrdinary p now recipient = true) →
    sink.arcSealer.isSome = true → ∀ fields ∈ Arc.arcFields message.data, ¬Arc.ZeroFirst fields

/-- Where sealing panics. -/
theorem forwardData_isSome {data : Bytes} : (sink.forwardData p data).isSome = true ↔
    (sink.arcSealer.isSome = true → ∀ fields ∈ Arc.arcFields data, ¬Arc.ZeroFirst fields) := by
  unfold forwardData
  cases sink.arcSealer with
  | none => exact iff_of_true rfl fun h ↦ by cases h
  | some sealer =>
    have hpanics := (Arc.extract_spec data).1
    rw [Option.isSome_map, Arc.arcSeal, Option.isSome_map, Arc.arcInstance, Option.isSome_map,
      ← Option.not_isNone, Bool.not_eq_true', ← Bool.not_eq_true,
      Option.isNone_iff_eq_none, hpanics]
    simp

theorem deliverWith_ok {message : Smtp.AcceptedMessage} :
    (sink.deliverWith p now (fun _ ↦ none) message).2 = .ok () ↔
      ∃ ws, sink.writesFor p now message = .ok (ws, .ok ()) := by
  have hfault : ∀ (n : ℕ) (ws : List Write),
      Filing.firstFault (fun n ↦ (none : Option Text).map SinkError.storage) n ws = none :=
    fun n ws ↦ Filing.firstFault_eq_none.2 fun _ _ ↦ rfl
  rw [deliverWith, Filing.run, hfault, deliver_eq]
  cases sink.writesFor p now message with
  | error error =>
    constructor
    · intro h
      cases h
    · rintro ⟨ws, h⟩
      cases h
  | ok made =>
    obtain ⟨ws, result⟩ := made
    constructor
    · rintro rfl
      exact ⟨ws, rfl⟩
    · rintro ⟨ws', h⟩
      exact congrArg Prod.snd (Except.ok.inj h)

/-- **A message to accepted recipients is delivered**, when nothing goes wrong with the storage,
exactly if acceptance and delivery agree about them. -/
theorem deliver_ok_iff (hu : p.unicode.Strict) (message : Smtp.AcceptedMessage)
    (h : ∀ recipient ∈ message.recipients, AcceptedAtRcpt p sink.here.directory recipient) :
    (sink.deliverWith p now (fun _ ↦ none) message).2 = .ok () ↔
      sink.Deliverable p now message := by
  rw [deliverWith_ok]
  by_cases hplaces : ∀ recipient ∈ message.recipients, sink.Placeable p now recipient
  · obtain ⟨split, hsplit, hhere, -⟩ := split_eq hu h hplaces ⟨[], [], []⟩
    rw [List.nil_append] at hhere
    unfold writesFor
    rw [show sink.split p now message.recipients = .ok split from hsplit]
    dsimp only
    cases hempty : split.here.isEmpty with
    | true =>
      -- all recipients are addresses of reports
      have hnone : ¬∃ recipient ∈ message.recipients, sink.isOrdinary p now recipient = true := by
        rintro ⟨recipient, hmem, hordinary⟩
        rw [hhere, List.isEmpty_iff] at hempty
        exact absurd (List.mem_filter.2 ⟨hmem, hordinary⟩) (by rw [hempty]; exact List.not_mem_nil)
      exact ⟨fun _ ↦ ⟨hplaces, fun hsome ↦ absurd hsome hnone, fun hsome ↦ absurd hsome hnone,
        fun hsome ↦ absurd hsome hnone⟩, fun _ ↦ ⟨_, rfl⟩⟩
    | false =>
      have hsome : ∃ recipient ∈ message.recipients, sink.isOrdinary p now recipient = true := by
        obtain ⟨recipient, hmem⟩ := List.exists_mem_of_ne_nil _ (List.isEmpty_eq_false_iff.1 hempty)
        rw [hhere, List.mem_filter] at hmem
        exact ⟨recipient, hmem⟩
      have hresolve : ∀ recipient ∈ split.here, ∃ address,
          Smtp.Address.parse p.unicode recipient = .ok address ∧
          isLocal (sink.here.directory.resolve address) = true := by
        intro recipient hmem
        rw [hhere, List.mem_filter] at hmem
        obtain ⟨address, hparse⟩ :=
          (readBack_iff hu (h recipient hmem.1)).1 ((hplaces recipient hmem.1).readBack hmem.2)
        exact ⟨address, hparse, isLocal_of_parse hu (h recipient hmem.1) hparse⟩
      have hrouted := sink.here.routedTo_isOk p { message with recipients := split.here }
        (sink.hintFor message) hresolve
      constructor
      · rintro ⟨ws, heq⟩
        cases haccounts : sink.here.routedTo p { message with recipients := split.here }
            (sink.hintFor message) with
        | error error =>
          rw [haccounts] at heq
          cases heq
        | ok accounts =>
          obtain ⟨hsafe, recipient, hmem, hreaches⟩ := hrouted.1 ⟨accounts, haccounts⟩
          rw [hhere, List.mem_filter] at hmem
          refine ⟨hplaces, fun _ ↦ hsafe, fun _ ↦ ⟨recipient, hmem.1, hmem.2, hreaches⟩, fun _ ↦ ?_⟩
          rw [haccounts] at heq
          have hsealing : sink.sealing p message = .ok () := congrArg Prod.snd (Except.ok.inj heq)
          rw [← forwardData_isSome]
          unfold sealing at hsealing
          split at hsealing
          · assumption
          · cases hsealing
      · intro hdeliverable
        obtain ⟨recipient, hmem, hordinary, hreaches⟩ := hdeliverable.reaches hsome
        obtain ⟨accounts, haccounts⟩ := hrouted.2 ⟨hdeliverable.safe hsome, recipient,
          by rw [hhere, List.mem_filter]; exact ⟨hmem, hordinary⟩, hreaches⟩
        have hsealing : sink.sealing p message = .ok () :=
          if_pos ((sink.forwardData_isSome p).2 (hdeliverable.counted hsome))
        rw [haccounts, hsealing]
        exact ⟨_, rfl⟩
  · refine ⟨fun hok ↦ absurd ?_ hplaces, fun hdeliverable ↦ absurd hdeliverable.placeable hplaces⟩
    obtain ⟨ws, hws⟩ := hok
    unfold writesFor at hws
    cases hsplit : sink.split p now message.recipients with
    | error error =>
      rw [hsplit] at hws
      cases hws
    | ok split => exact placeable_of_split hu h hsplit

end SplitDelivery

/-- Primitives that hide nothing, with names in lower case only. -/
def ldhPrimitives : Smtp.Primitives := { Smtp.Primitives.plain with unicode := .ldh }

theorem deliverable_toBoth : twoAccounts.Deliverable ldhPrimitives 0 toBoth := by
  refine (twoAccounts.deliver_ok_iff ldhPrimitives 0 Unicode.strict_ldh toBoth ?_).1 (by decide)
  intro recipient hmem
  refine acceptedAtRcpt_iff.2 ⟨recipient, ?_⟩
  rcases List.mem_cons.1 hmem with rfl | hmem
  · exact ⟨⟨"u".toList, "b.net".toList⟩, by decide, rfl, by decide⟩
  · obtain rfl := List.mem_singleton.1 hmem
    exact ⟨⟨"v".toList, "b.net".toList⟩, by decide, rfl, by decide⟩

/-- The only member of an alias has no account any more. -/
def nobody : SplitDelivery := { twoAccounts with
  here := { twoAccounts.here with
    directory := { twoAccounts.here.directory with
      aliases := (∅ : Smtp.Table Smtp.AliasSpec).insert "all@b.net".toList
        ⟨["w@b.net".toList], [], none⟩ } } }

/-- A recipient is accepted, and nothing is delivered. -/
theorem toNobody_not_delivered :
    AcceptedAtRcpt ldhPrimitives nobody.here.directory "all@b.net".toList ∧
      nobody.deliverWith ldhPrimitives 0 (fun _ ↦ none)
        { toBoth with recipients := ["all@b.net".toList] } = ([], .error .noAccounts) :=
  ⟨acceptedAtRcpt_iff.2 ⟨"all@b.net".toList, ⟨"all".toList, "b.net".toList⟩, by decide, rfl,
    by decide⟩, by decide⟩

end Epistle.Storage
