import Epistle.Storage.Deliverable

/-!
# The way back of a report

Mail that is sent on carries a sender of ours, from which the original sender can be told. A report
to that address has to be accepted by a session first, like any other mail, and `RCPT` knows nothing
about such addresses: it refuses the address as an unknown user, unless somebody here takes all mail
of the domain. And it refuses a local part of more than 64 bytes, into which the whole original
address has to fit, with fourteen bytes of ours.

So reports are lost (`report_refused`). An address that a session accepts leads back to the original
sender (`returnPath_iff`).
-/

namespace Epistle.Storage

open TextFormat Effects Smtp.Acceptance
open Queue.Srs (encodeTimestamp base32 tsModulus stripMark timestampAge decodeTimestamp)

/-! ## Who takes an address -/

/-- Somebody here takes the mail for an address of a local domain. -/
def Received (directory : Smtp.Directory) (address : Smtp.Address) : Prop :=
  let domain := (directory.domainAliases.lookup address.domain).getD address.domain
  let key := toAsciiLowercase (address.localPart ++ '@' :: domain)
  directory.domains.contains domain = true ∧
    ((directory.accountsByAddress.lookup key).isSome ∨ (directory.aliases.lookup key).isSome ∨
      (directory.maskedByAddress.lookup key).isSome ∨
      ((directory.stripSubaddress address.localPart domain).bind fun base ↦
        directory.accountsByAddress.lookup base).isSome ∨
      (directory.catchAll.lookup domain).isSome)

theorem isLocal_resolve_iff {directory : Smtp.Directory} {address : Smtp.Address} :
    isLocal (directory.resolve address) = true ↔ Received directory address := by
  unfold Received Smtp.Directory.resolve
  extract_lets domain key
  cases directory.domains.contains domain with
  | false => simp [isLocal]
  | true =>
    cases directory.accountsByAddress.lookup key with
    | some account => simp [isLocal]
    | none =>
      cases directory.aliases.lookup key with
      | some spec => simp [isLocal]
      | none =>
        cases directory.maskedByAddress.lookup key with
        | some account => simp [isLocal]
        | none =>
          cases (directory.stripSubaddress address.localPart domain).bind fun base ↦
              directory.accountsByAddress.lookup base with
          | some account => simp [isLocal]
          | none =>
            cases directory.catchAll.lookup domain with
            | some account | none => simp [isLocal]

/-! ## The rewritten address -/

/-- A MAC in base64 begins with four characters of the alphabet. -/
def Tagged (p : Smtp.Primitives) : Prop :=
  ∀ key data, ((p.base64Encode (p.hmacSha256 key data)).take 4).length = 4 ∧
    ∀ c ∈ (p.base64Encode (p.hmacSha256 key data)).take 4, c.isAlphanum = true ∨ c = '+' ∨ c = '/'

/-- A character of an atom that takes one byte. -/
def narrow (c : Char) : Bool := Smtp.validAtomChar c && c.utf8Size == 1 && c != '.'

theorem narrow_of_isAlphanum {c : Char} (h : c.isAlphanum = true) : narrow c = true ∧ c ≠ '=' := by
  have hval : c.val.toNat ≤ 122 ∧ c.val.toNat ≠ 46 ∧ c.val.toNat ≠ 61 := by
    simp only [Char.isAlphanum, Char.isAlpha, Char.isUpper, Char.isLower, Char.isDigit,
      Bool.or_eq_true, Bool.and_eq_true, decide_eq_true_eq, UInt32.le_iff_toNat_le, ge_iff_le] at h
    change (65 ≤ c.val.toNat ∧ c.val.toNat ≤ 90 ∨ 97 ≤ c.val.toNat ∧ c.val.toNat ≤ 122) ∨
      48 ≤ c.val.toNat ∧ c.val.toNat ≤ 57 at h
    omega
  have hne : ∀ d : Char, c.val.toNat ≠ d.val.toNat → c ≠ d := fun d hd heq ↦ hd (by rw [heq])
  have hsize : c.utf8Size = 1 := by
    rw [Char.utf8Size, if_pos (UInt32.le_iff_toNat_le.2 (Nat.le_trans hval.1 (by decide)))]
  refine ⟨?_, hne '=' hval.2.2⟩
  rw [narrow, hsize, Smtp.validAtomChar, h, bne_iff_ne.2 (hne '.' hval.2.1)]
  rfl

theorem utf8Len_of_narrow {t : Text} (h : ∀ c ∈ t, narrow c = true) : utf8Len t = t.length := by
  induction t with
  | nil => rfl
  | cons c t ih =>
    rw [List.forall_mem_cons] at h
    have hsize : c.utf8Size = 1 := by
      simpa using (Bool.and_eq_true_iff.1 (Bool.and_eq_true_iff.1 h.1).1).2
    rw [utf8Len_cons, ih h.2, hsize, List.length_cons, Nat.add_comm]

/-- The pieces of a local part are not empty, and of the characters of atoms. -/
def Atoms (t : Text) : Prop :=
  ∀ atom ∈ t.splitOn '.', atom ≠ [] ∧ ∀ c ∈ atom, Smtp.validAtomChar c = true

theorem validateLocalPart_eq_ok {t : Text} :
    Smtp.validateLocalPart t = .ok () ↔ utf8Len t ≤ Smtp.maxLocalPart ∧ Atoms t := by
  have hatoms : ((t.splitOn '.').all fun atom ↦ !atom.isEmpty &&
    atom.all Smtp.validAtomChar) = true ↔
      Atoms t := by
    simp [Atoms]
  unfold Smtp.validateLocalPart
  rw [← hatoms]
  cases t with
  | nil => simp
  | cons c t =>
    simp only [List.isEmpty_cons, Bool.false_or, decide_eq_true_eq]
    split
    · rename_i hlong
      exact ⟨fun h ↦ (by cases h), fun h ↦ absurd h.1 (Nat.not_le_of_gt hlong)⟩
    · rename_i hshort
      split
      · rename_i hall
        exact ⟨fun _ ↦ ⟨Nat.le_of_not_gt hshort, hall⟩, fun _ ↦ rfl⟩
      · rename_i hall
        exact ⟨fun h ↦ (by cases h), fun h ↦ absurd h.2 hall⟩

theorem Atoms.append {t u : Text} (ht : Atoms t) (hu : Atoms u) : Atoms (t ++ u) :=
  forall_mem_splitOn_append (fun t u ht hu ↦ ⟨by simp [ht.1], by
    intro c hc
    rcases List.mem_append.1 hc with hc | hc
    · exact ht.2 c hc
    · exact hu.2 c hc⟩) ht hu

theorem atoms_of_narrow {t : Text} (hne : t ≠ []) (h : ∀ c ∈ t, narrow c = true) : Atoms t := by
  have hdot : '.' ∉ t := fun hmem ↦ absurd (h _ hmem) (by decide)
  rw [Atoms, List.splitOn_eq_singleton hdot, List.forall_mem_singleton]
  exact ⟨hne, fun c hc ↦ (Bool.and_eq_true_iff.1 (Bool.and_eq_true_iff.1 (h c hc)).1).1⟩

/-- A domain that is accepted can stand in a local part, and has no equals sign in it. -/
theorem atoms_of_normalize {u : Unicode} (hu : u.Strict) {domain normal : Text}
    (h : Domain.normalize u domain = .ok normal) :
    Atoms domain ∧ domain ≠ [] ∧ ∀ c ∈ domain, c ≠ '=' ∧ c ≠ '@' := by
  obtain ⟨⟨hne, hplain⟩, -, ascii, hascii, -, -⟩ := Domain.normalize_eq_ok.1 h
  refine ⟨fun atom hatom ↦ ⟨?_, fun c hc ↦ ?_⟩, hne, fun c hc ↦ ?_⟩
  · rintro rfl
    exact hu.labels hascii hatom
  · obtain ⟨hmem, hdot⟩ := mem_splitOn_iff.1 ⟨atom, hatom, hc⟩
    by_cases hcase : isAscii c = true
    · rcases hu.std3 hascii c hmem hcase with halnum | rfl | rfl
      · rw [Smtp.validAtomChar, halnum]
        rfl
      · decide
      · exact absurd rfl hdot
    · rw [Smtp.validAtomChar, (hplain c hmem).2, Bool.eq_false_iff.2 hcase, Bool.not_false,
        Bool.and_self, Bool.or_true]
  · constructor
    · rintro rfl
      rcases hu.std3 hascii '=' hc (by decide) with h | h | h <;> exact absurd h (by decide)
    · rintro rfl
      rcases hu.std3 hascii '@' hc (by decide) with h | h | h <;> exact absurd h (by decide)

section Rewritten

variable {p : Smtp.Primitives} {srs : Queue.Srs} {localPart domain : Text} {days : ℕ}

/-- What the rewriter puts before the original domain. -/
def mark (p : Smtp.Primitives) (srs : Queue.Srs) (localPart domain : Text) (days : ℕ) : Text :=
  "SRS0=".toList ++ (srs.hash p (encodeTimestamp days) domain localPart ++
    '=' :: (encodeTimestamp days ++ ['=']))

def rewritten (p : Smtp.Primitives) (srs : Queue.Srs) (localPart domain : Text) (days : ℕ) : Text :=
  mark p srs localPart domain days ++ (domain ++ '=' :: localPart)

theorem forward_eq (ourDomain : Text) : srs.forward p localPart domain ourDomain days =
    rewritten p srs localPart domain days ++ '@' :: ourDomain := by
  delta Queue.Srs.forward rewritten mark
  simp only [List.append_assoc, List.cons_append, List.nil_append]

theorem mem_encodeTimestamp {c : Char} (h : c ∈ encodeTimestamp days) :
    c ∈ base32 := by
  have hget : ∀ i, i < 32 → base32.getD i 'A' ∈ base32 := fun i hi ↦ by
    rw [List.getD_eq_getElem _ _ (show i < base32.length from hi)]
    exact List.getElem_mem _
  simp only [encodeTimestamp, List.mem_cons, List.not_mem_nil, or_false] at h
  rcases h with rfl | rfl <;> exact hget _ (Nat.mod_lt _ (by decide))

theorem decodeTimestamp_encodeTimestamp :
    decodeTimestamp (encodeTimestamp days) = some (days % tsModulus) := by
  have hvalue : ∀ i, i < 32 → Queue.Srs.base32Value (base32.getD i 'A') = some i := by
    decide
  have hlt : days % tsModulus < 1024 := Nat.mod_lt _ (by decide)
  simp only [encodeTimestamp, decodeTimestamp]
  rw [hvalue _ (Nat.mod_lt _ (by decide)), hvalue _ (Nat.mod_lt _ (by decide))]
  exact congrArg some (show days % tsModulus / 32 % 32 * 32 + days % tsModulus % 32 = _ by
    omega)

theorem not_mem_hash (hp : Tagged p) {ts : Text} : '=' ∉ srs.hash p ts domain localPart := by
  intro hmem
  rcases (hp _ _).2 '=' hmem with h | h | h <;> exact absurd h (by decide)

theorem not_mem_encodeTimestamp : '=' ∉ encodeTimestamp days :=
  fun hmem ↦ absurd (mem_encodeTimestamp hmem) (by decide)

variable (srs localPart domain days) in
theorem mark_spec (hp : Tagged p) : (mark p srs localPart domain days).length = 13 ∧
    ∀ c ∈ mark p srs localPart domain days, narrow c = true := by
  have hbase : base32.all narrow = true := by decide
  have hstart : "SRS0=".toList.all narrow = true := by decide
  constructor
  · have hlength : (srs.hash p (encodeTimestamp days) domain localPart).length = 4 :=
      (hp _ _).1
    delta mark
    rw [List.length_append, List.length_append, List.length_cons, List.length_append, hlength]
    rfl
  · intro c hc
    delta mark at hc
    rw [List.mem_append, List.mem_append, List.mem_cons, List.mem_append, List.mem_singleton] at hc
    rcases hc with hc | hc | rfl | hc | rfl
    · exact List.all_eq_true.1 hstart c hc
    · rcases (hp _ _).2 c hc with h | rfl | rfl
      · exact (narrow_of_isAlphanum h).1
      · decide
      · decide
    · decide
    · exact List.all_eq_true.1 hbase c (mem_encodeTimestamp hc)
    · decide

/-- The rewritten address is accepted exactly if it fits. -/
theorem parse_forward (hp : Tagged p) (hu : p.unicode.Strict) {normal ourDomain ours : Text}
    (hlocal : Smtp.validateLocalPart localPart = .ok ())
    (hdomain : Domain.normalize p.unicode domain = .ok normal)
    (hour : Domain.normalize p.unicode ourDomain = .ok ours) {address : Smtp.Address} :
    Smtp.Address.parse p.unicode (srs.forward p localPart domain ourDomain days) = .ok address ↔
      address = ⟨rewritten p srs localPart domain days, ours⟩ ∧
      utf8Len localPart + utf8Len domain + 14 ≤ Smtp.maxLocalPart ∧
      utf8Len localPart + utf8Len domain + utf8Len ourDomain + 15 ≤ Smtp.maxAddress := by
  obtain ⟨hatoms, -, -⟩ := atoms_of_normalize hu hdomain
  have hat : '@' ∉ ourDomain := fun hmem ↦ ((atoms_of_normalize hu hour).2.2 _ hmem).2 rfl
  have hmark := utf8Len_of_narrow (mark_spec srs localPart domain days hp).2
  have hlen : utf8Len (rewritten p srs localPart domain days) =
      utf8Len localPart + utf8Len domain + 14 := by
    rw [rewritten, utf8Len_append, hmark, (mark_spec srs localPart domain days hp).1,
      utf8Len_append, utf8Len_cons, show Char.utf8Size '=' = 1 from rfl]
    omega
  have hvalid : Smtp.validateLocalPart (rewritten p srs localPart domain days) = .ok () ↔
      utf8Len localPart + utf8Len domain + 14 ≤ Smtp.maxLocalPart := by
    rw [validateLocalPart_eq_ok, hlen, and_iff_left]
    have hequals : Atoms ['='] :=
      atoms_of_narrow (by simp) (by simpa using (by decide : narrow '=' = true))
    have hmarked : Atoms (mark p srs localPart domain days) :=
      atoms_of_narrow (List.ne_nil_of_length_eq_add_one (mark_spec srs localPart domain days hp).1)
        (mark_spec srs localPart domain days hp).2
    exact hmarked.append (hatoms.append (hequals.append (validateLocalPart_eq_ok.1 hlocal).2))
  rw [forward_eq, Smtp.Address.parse_eq_ok, rsplitOnce_append hat, utf8Len_append,
    utf8Len_cons, hlen, show Char.utf8Size '@' = 1 from rfl]
  constructor
  · rintro ⟨hlength, haddress, domain', heq, hnormal⟩
    obtain ⟨hpart, rfl⟩ := Prod.mk.inj (Option.some.inj heq)
    rw [← hpart] at haddress
    rw [hour] at hnormal
    refine ⟨?_, hvalid.1 haddress, by omega⟩
    cases address with
    | mk localPart' domain' =>
      exact congrArg₂ Smtp.Address.mk hpart.symm (Except.ok.inj hnormal).symm
  · rintro ⟨rfl, hfits, hlength⟩
    exact ⟨by omega, hvalid.2 hfits, _, rfl, hour⟩

theorem stripMark_append (t : Text) : stripMark ("SRS0=".toList ++ t) = some (some t) := by
  have hmark : utf8Len "SRS0=".toList = 5 := by decide
  rw [stripMark, if_neg (by rw [utf8Len_append, hmark]; omega), ← hmark, sliceTo_append,
    Option.map_some, if_pos (by decide), List.drop_left]

/-- What is rewritten is found again, for as long as it is asked for. -/
theorem reverse_rewritten (hp : Tagged p) (hdomain : '=' ∉ domain) (hne : domain ≠ [])
    (hlocal : localPart ≠ []) {later : ℕ} (hle : days ≤ later) (maxAge : ℕ) :
    srs.reverse p (rewritten p srs localPart domain days) later maxAge =
      some (if (later - days) % 1024 ≤ maxAge then some (localPart, domain) else none) := by
  have htext : rewritten p srs localPart domain days = "SRS0=".toList ++
      (srs.hash p (encodeTimestamp days) domain localPart ++
        '=' :: (encodeTimestamp days ++ '=' :: (domain ++ '=' :: localPart))) := by
    delta rewritten mark
    simp only [List.append_assoc, List.cons_append, List.nil_append]
  have hage : timestampAge (days % tsModulus) later = (later - days) % 1024 := by
    unfold timestampAge tsModulus
    omega
  rw [Queue.Srs.reverse, htext, stripMark_append, Option.map_some]
  simp only [Option.bind_eq_bind, Option.bind_some, Queue.Srs.fields,
    splitOnce_append (not_mem_hash hp), splitOnce_append not_mem_encodeTimestamp,
    splitOnce_append hdomain, List.isEmpty_eq_false_iff.2 hne, List.isEmpty_eq_false_iff.2 hlocal,
    Bool.or_self, Bool.false_eq_true, if_false, Option.pure_def, decodeTimestamp_encodeTimestamp,
    ne_eq, hage, gt_iff_lt, ite_not, ← not_le, if_true]

/-- What is found has the hash that only we can make. -/
theorem hash_of_reverse {text : Text} {now maxAge : ℕ}
    (h : srs.reverse p text now maxAge = some (some (localPart, domain))) :
    ∃ rest hash ts, stripMark text = some (some rest) ∧
      Queue.Srs.fields rest = some (hash, ts, domain, localPart) ∧
        hash = srs.hash p ts domain localPart := by
  rw [Queue.Srs.reverse, Option.map_eq_some_iff] at h
  obtain ⟨_ | rest, hstrip, h⟩ := h
  · cases h
  rw [Option.bind_eq_bind, Option.bind_some] at h
  obtain ⟨⟨hash, ts, domain', localPart'⟩, hfields, h⟩ := Option.bind_eq_some_iff.1 h
  dsimp only at h
  split at h
  · cases h
  · rename_i hhash
    obtain ⟨stamp, -, h⟩ := Option.bind_eq_some_iff.1 h
    split at h
    · cases h
    · obtain ⟨rfl, rfl⟩ := Prod.mk.inj (Option.some.inj h)
      exact ⟨rest, hash, ts, hstrip, hfields, (not_not.1 hhash).symm⟩

/-- **An address is found again exactly within the time, with the right hash**, and reversing a text
fails to return exactly if its fifth byte is inside a character. -/
theorem reverse_spec (hp : Tagged p) (srs : Queue.Srs) (text : Text) (now maxAge : ℕ) :
    ((srs.reverse p text now maxAge).isSome ↔ CutAtFive text) ∧
    (∀ localPart domain ourDomain days, localPart ≠ [] → domain ≠ [] → '=' ∉ domain → days ≤ now →
      srs.forward p localPart domain ourDomain days = text ++ '@' :: ourDomain →
        (srs.reverse p text now maxAge = some (some (localPart, domain)) ↔
          (now - days) % 1024 ≤ maxAge)) ∧
    ∀ localPart domain, srs.reverse p text now maxAge = some (some (localPart, domain)) →
      ∃ rest hash ts, Queue.Srs.stripMark text = some (some rest) ∧
        Queue.Srs.fields rest = some (hash, ts, domain, localPart) ∧
        hash = srs.hash p ts domain localPart := by
  refine ⟨?_, fun localPart domain ourDomain days hlocal hne hdomain hle htext ↦ ?_,
    fun localPart domain ↦ hash_of_reverse⟩
  · rw [Queue.Srs.reverse, Option.isSome_map, stripMark_isSome]
  · obtain rfl : text = rewritten p srs localPart domain days :=
      (List.append_cancel_right ((forward_eq ourDomain).symm.trans htext)).symm
    rw [reverse_rewritten hp hdomain hne hlocal hle]
    by_cases hage : (now - days) % 1024 ≤ maxAge
    · rw [if_pos hage]
      exact iff_of_true rfl hage
    · rw [if_neg hage]
      exact iff_of_false (fun h ↦ (by cases h)) hage

end Rewritten

/-! ## There and back -/

namespace SplitDelivery

variable (p : Smtp.Primitives) (sink : SplitDelivery)

/-- A report to the sender of mail that was sent on gets back: any session without a user takes the
address when it takes recipients, and a message to what it remembers is spooled once, for the
original sender. -/
def Returns (now later : ℕ) (original : Text) : Prop :=
  ∀ s : Smtp.Session, s.directory = sink.here.directory → s.authenticated = none → Awaiting s →
    ∃ recipient, Takes p s (sink.forwardSender p now original) recipient ∧
      ∀ message : Smtp.AcceptedMessage, message.recipients = [recipient] →
        sink.deliver p later message = ⟨[.spool .srsReturn (returned message original)], .ok ()⟩

/-- **A report gets back to the original sender** within the time that the address is valid, exactly
if the rewritten address fits and somebody here takes the mail for it. -/
theorem returnPath_iff (hp : Tagged p) (hu : p.unicode.Strict) {srs : Queue.Srs} {ourDomain : Text}
    (hsrs : sink.srs = some (srs, ourDomain))
    (hour : Domain.normalize p.unicode ourDomain = .ok (toAsciiLowercase ourDomain))
    {original localPart domain : Text} (hsplit : rsplitOnce '@' original = some (localPart, domain))
    {address : Smtp.Address} (hparse : Smtp.Address.parse p.unicode original = .ok address)
    {now later : ℕ} (hle : now / 86400 ≤ later / 86400)
    (hwindow : later / 86400 ≤ now / 86400 + srsMaxAgeDays) :
    sink.Returns p now later original ↔
      utf8Len localPart + utf8Len domain + 14 ≤ Smtp.maxLocalPart ∧
      utf8Len localPart + utf8Len domain + utf8Len ourDomain + 15 ≤ Smtp.maxAddress ∧
      Received sink.here.directory
        ⟨rewritten p srs localPart domain (now / 86400), toAsciiLowercase ourDomain⟩ := by
  obtain ⟨-, hlocal, domain', hsplit', hdomain⟩ := Smtp.Address.parse_eq_ok.1 hparse
  obtain ⟨rfl, rfl⟩ := Prod.mk.inj (Option.some.inj (hsplit.symm.trans hsplit'))
  have hforward : sink.forwardSender p now original =
      srs.forward p address.localPart domain ourDomain (now / 86400) := by
    have hne : original ≠ [] := by
      rintro rfl
      cases hsplit
    rw [forwardSender, if_neg (by simpa using hne), hsrs]
    rw [hsplit]
  rw [Returns, hforward]
  constructor
  · intro h
    obtain ⟨recipient, htakes, -⟩ := h { Smtp.Session.new [] with
      directory := sink.here.directory, state := .receivingRecipients [] false } rfl rfl
      (.inl ⟨[], false, rfl⟩)
    obtain ⟨found, hfound, -, hlocal'⟩ := htakes.resolves rfl
    obtain ⟨rfl, hfits, hlength⟩ := (parse_forward hp hu hlocal hdomain hour).1 hfound
    exact ⟨hfits, hlength, isLocal_resolve_iff.1 hlocal'⟩
  · rintro ⟨hfits, hlength, hreceived⟩ s hdirectory - hawaiting
    have hfound : Smtp.Address.parse p.unicode (srs.forward p address.localPart domain ourDomain
        (now / 86400)) = .ok _ := (parse_forward hp hu hlocal hdomain hour).2 ⟨rfl, hfits, hlength⟩
    refine ⟨_, hawaiting.takes hfound (by rw [hdirectory]; exact isLocal_resolve_iff.2 hreceived),
      fun message hrecipients ↦ ?_⟩
    have hback : sink.srsReturn p later (Smtp.Address.toText
        ⟨rewritten p srs address.localPart domain (now / 86400), toAsciiLowercase ourDomain⟩) =
          some (some original) := by
      have hsame : eqIgnoreAsciiCase (toAsciiLowercase ourDomain) ourDomain = true := by
        rw [eqIgnoreAsciiCase, toAsciiLowercase_toAsciiLowercase]
        exact beq_self_eq_true _
      rw [srsReturn, hsrs, Smtp.Address.rsplitOnce_toText hfound]
      dsimp only
      obtain ⟨-, hne, hequals⟩ := atoms_of_normalize hu hdomain
      have hage : (later / 86400 - now / 86400) % 1024 ≤ srsMaxAgeDays := by
        omega
      have hlocal' : address.localPart ≠ [] := by
        intro hnil
        rw [hnil] at hlocal
        cases hlocal
      rw [hsame, reverse_rewritten hp (fun hmem ↦ (hequals _ hmem).1 rfl) hne hlocal' hle,
        if_pos hage]
      rw [(rsplitOnce_eq_some.1 hsplit).1]
      rfl
    rw [deliver_eq, writesFor, hrecipients, split, List.foldlM_cons, place, hback]
    rfl

end SplitDelivery

def constantHash : Smtp.Primitives := { ldhPrimitives with base64Encode := fun _ ↦ "AAAA".toList }

theorem tagged_constantHash : Tagged constantHash := by
  have hall : ("AAAA".toList.take 4).all Char.isAlphanum = true := by decide
  exact fun _ _ ↦ ⟨rfl, fun c hc ↦ .inl (List.all_eq_true.1 hall c hc)⟩

/-- The address of yesterday's mail is found. -/
theorem reverse_spec_yesterday : (⟨[]⟩ : Queue.Srs).reverse constantHash
    "SRS0=AAAA=AA=c.org=s".toList 1 14 = some (some ("s".toList, "c.org".toList)) :=
  ((reverse_spec tagged_constantHash ⟨[]⟩ "SRS0=AAAA=AA=c.org=s".toList 1 14).2.1
    "s".toList "c.org".toList "b.net".toList 0 (by decide) (by decide) (by decide) (by decide)
    (by decide)).2 (by decide)

/-- A session accepts this local part, the fifth byte of which is inside its last character. -/
theorem not_reversed : Smtp.validateLocalPart "abcdé".toList = .ok () ∧
    (⟨[]⟩ : Queue.Srs).reverse constantHash "abcdé".toList 0 14 = none := by
  decide

/-- A server that rewrites senders, with an account that takes all other mail, or without. -/
def reporting (catchAll : Smtp.Table Text) : SplitDelivery := { twoAccounts with
  here := { twoAccounts.here with
    directory := { twoAccounts.here.directory with catchAll } }
  srs := some (⟨[]⟩, "b.net".toList) }

theorem returns_catchAll :
    (reporting ((∅ : Smtp.Table Text).insert "b.net".toList "u".toList)).Returns
      constantHash 0 86400
      "s@c.org".toList :=
  (SplitDelivery.returnPath_iff constantHash _ tagged_constantHash Unicode.strict_ldh rfl
    (by decide) (show rsplitOnce '@' "s@c.org".toList = some ("s".toList, "c.org".toList) by
      decide)
    (show Smtp.Address.parse constantHash.unicode "s@c.org".toList =
      .ok ⟨"s".toList, "c.org".toList⟩ by decide) (by decide) (by decide)).2
    ⟨by decide, by decide, isLocal_resolve_iff.1 (by decide)⟩

theorem report_refused : ¬(reporting ∅).Returns constantHash 0 0 "s@c.org".toList := by
  intro h
  obtain ⟨recipient, htakes, -⟩ := h { Smtp.Session.new [] with
    directory := (reporting ∅).here.directory, state := .receivingRecipients [] false } rfl rfl
    (.inl ⟨[], false, rfl⟩)
  obtain ⟨address, hparse, -, hlocal⟩ := htakes.resolves rfl
  have hforward : Smtp.Address.parse constantHash.unicode
      ((reporting ∅).forwardSender constantHash 0 "s@c.org".toList) =
        .ok ⟨"SRS0=AAAA=AA=c.org=s".toList, "b.net".toList⟩ := by
    decide
  rw [← Except.ok.inj (hforward.symm.trans hparse)] at hlocal
  exact absurd hlocal (by decide)

end Epistle.Storage
