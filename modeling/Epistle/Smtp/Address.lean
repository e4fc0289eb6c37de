import Epistle.Text.Utf8

/-!
# Mail addresses

An address is accepted as `local-part@domain`. The local part is a dot-string and keeps its case;
the domain is brought to its lower-case ASCII form, or rejected if it is built to look like another
one. Quoted local parts and address literals are not accepted.

The Unicode tables and the IDNA conversion are those of libraries. They come in as the functions of
`Unicode`.
-/

namespace Epistle

open TextFormat

/-- What libraries say about Unicode domain names. -/
structure Unicode where
  /-- `idna::domain_to_ascii_strict` -/
  domainToAsciiStrict : Text → Option Text
  /-- `idna::punycode::decode_to_string` -/
  punycodeDecode : Text → Option Text
  /-- `MixedScript::is_single_script` -/
  isSingleScript : Text → Bool
  /-- `confusable_detection::skeleton` -/
  skeleton : Text → Text

/-- The tables of the ASCII range: names in it are their own ASCII form. -/
def Unicode.ascii : Unicode where
  domainToAsciiStrict := fun t ↦ if t.all isAscii then some (toAsciiLowercase t) else none
  punycodeDecode := fun _ ↦ none
  isSingleScript := fun _ ↦ true
  skeleton := id

/-- What the strict conversion does: of the ASCII characters it takes letters, digits, hyphens and
dots only, it takes no empty label, and the form that it gives is its own form. -/
structure Unicode.Strict (u : Unicode) : Prop where
  std3 : ∀ {raw ascii : Text}, u.domainToAsciiStrict raw = some ascii →
    ∀ c ∈ raw, isAscii c = true →
    c.isAlphanum = true ∨ c = '-' ∨ c = '.'
  labels : ∀ {raw ascii : Text}, u.domainToAsciiStrict raw = some ascii → [] ∉ raw.splitOn '.'
  stable : ∀ {raw ascii : Text}, u.domainToAsciiStrict raw = some ascii →
    u.domainToAsciiStrict (toAsciiLowercase ascii) = some (toAsciiLowercase ascii)

namespace Domain

inductive DomainError
  | invalid
  | confusable
  deriving DecidableEq, Repr

def maxDomain : ℕ := 253

def maxLabel : ℕ := 63

/-- Reject a label that mixes scripts, or that looks like an ASCII name without being one. -/
def checkLabel (u : Unicode) (label : Text) : Except DomainError Unit :=
  let looks (unicode : Text) : Except DomainError Unit :=
    if !u.isSingleScript unicode then .error .confusable
    else if !unicode.all isAscii && (u.skeleton unicode).all isAscii then .error .confusable
    else .ok ()
  if label.isEmpty then .ok ()
  else if "xn--".toList.isPrefixOf (toAsciiLowercase label) then
    match u.punycodeDecode ((toAsciiLowercase label).drop 4) with
    | none => .error .invalid
    | some unicode => looks unicode
  else if label.all isAscii then .ok ()
  else looks label

def checkConfusables (u : Unicode) (raw : Text) : Except DomainError Unit :=
  (raw.splitOn '.').forM (checkLabel u)

/-- A label as it may stand on the wire. -/
def labelOk (label : Text) : Bool :=
  !label.isEmpty && label.length ≤ maxLabel && label.head? != some '-' &&
    label.getLast? != some '-' && label.all fun c ↦ c.isLower || c.isDigit || c == '-'

/-- The shape of a domain on the wire: at least one dot, and labels that are neither empty nor too
long. -/
def checkDnsShape (ascii : Text) : Except DomainError Unit :=
  if !ascii.contains '.' || utf8Len ascii > maxDomain then .error .invalid
  else if (ascii.splitOn '.').all labelOk then .ok ()
  else .error .invalid

/-- Bring a domain to its lower-case ASCII form. -/
def normalize (u : Unicode) (raw : Text) : Except DomainError Text :=
  if raw.isEmpty || raw.any isAsciiWhitespace || raw.any isControl then .error .invalid
  else do
    checkConfusables u raw
    match u.domainToAsciiStrict raw with
    | none => .error .invalid
    | some ascii =>
      checkDnsShape (toAsciiLowercase ascii)
      pure (toAsciiLowercase ascii)

private theorem exists_of_bind_eq_ok {ε α β : Type} {x : Except ε α} {f : α → Except ε β} {b : β}
    (h : (x >>= f) = .ok b) : ∃ a, x = .ok a ∧ f a = .ok b := by
  cases x with
  | error error => exact absurd h nofun
  | ok a => exact ⟨a, rfl, h⟩

variable {normal raw : Text} {u : Unicode}

theorem normalize_eq_ok :
    normalize u raw = .ok normal ↔
      (raw ≠ [] ∧ ∀ c ∈ raw, isAsciiWhitespace c = false ∧ isControl c = false) ∧
      checkConfusables u raw = .ok () ∧
      ∃ ascii, u.domainToAsciiStrict raw = some ascii ∧ normal = toAsciiLowercase ascii ∧
        checkDnsShape normal = .ok () := by
  have hplain : (raw.isEmpty || raw.any isAsciiWhitespace || raw.any isControl) = false ↔
      raw ≠ [] ∧ ∀ c ∈ raw, isAsciiWhitespace c = false ∧ isControl c = false := by
    simp only [Bool.or_eq_false_iff, List.isEmpty_eq_false_iff, List.any_eq_false, Bool.not_eq_true,
      forall_and, and_assoc]
  rw [← hplain]
  unfold normalize
  cases raw.isEmpty || raw.any isAsciiWhitespace || raw.any isControl with
  | true => simp
  | false =>
    simp only [Bool.false_eq_true, if_false, true_and]
    constructor
    · intro h
      obtain ⟨_, hcheck, h⟩ := exists_of_bind_eq_ok h
      refine ⟨hcheck, ?_⟩
      split at h
      · cases h
      · rename_i ascii hascii
        obtain ⟨_, hshape, h⟩ := exists_of_bind_eq_ok h
        obtain rfl := Except.ok.inj h
        exact ⟨ascii, hascii, rfl, hshape⟩
    · rintro ⟨hcheck, ascii, hascii, rfl, hshape⟩
      rw [hcheck, hascii]
      change (checkDnsShape (toAsciiLowercase ascii) >>= fun _ ↦ pure (toAsciiLowercase ascii)) = _
      rw [hshape]
      rfl

theorem normalize_spec (h : normalize u raw = .ok normal) :
    ∃ ascii, u.domainToAsciiStrict raw = some ascii ∧ normal = toAsciiLowercase ascii := by
  obtain ⟨-, -, ascii, hascii, hnormal, -⟩ := normalize_eq_ok.1 h
  exact ⟨ascii, hascii, hnormal⟩

/-- The characters of a domain on the wire. -/
def wireChar (c : Char) : Bool := c.isLower || c.isDigit || c == '-' || c == '.'

theorem wireChar_of_labels {ascii : Text} (h : (ascii.splitOn '.').all labelOk = true) :
    ∀ c ∈ ascii, wireChar c = true := by
  intro c hc
  by_cases heq : c = '.'
  · rw [heq]
    rfl
  · obtain ⟨label, hlabel, hmem⟩ := mem_splitOn_iff.2 ⟨hc, heq⟩
    have hok := List.all_eq_true.1 h label hlabel
    rw [labelOk, Bool.and_eq_true, List.all_eq_true] at hok
    rw [wireChar, hok.2 c hmem, Bool.true_or]

theorem wireChar_of_checkDnsShape {ascii : Text} (h : checkDnsShape ascii = .ok ()) :
    ascii ≠ [] ∧ ∀ c ∈ ascii, wireChar c = true := by
  unfold checkDnsShape at h
  split at h
  · cases h
  · rename_i hdot
    split at h
    · rename_i hlabels
      refine ⟨?_, wireChar_of_labels hlabels⟩
      rintro rfl
      exact hdot rfl
    · cases h

theorem wireChar_iff {c : Char} : wireChar c = true ↔
    97 ≤ c.toNat ∧ c.toNat ≤ 122 ∨ 48 ≤ c.toNat ∧ c.toNat ≤ 57 ∨ c.toNat = 45 ∨ c.toNat = 46 := by
  have hlower : c.isLower = true ↔ 97 ≤ c.toNat ∧ c.toNat ≤ 122 := by
    rw [Char.isLower, Bool.and_eq_true, decide_eq_true_eq, decide_eq_true_eq]
    exact and_congr UInt32.le_iff_toNat_le UInt32.le_iff_toNat_le
  have hdigit : c.isDigit = true ↔ 48 ≤ c.toNat ∧ c.toNat ≤ 57 := by
    rw [Char.isDigit, Bool.and_eq_true, decide_eq_true_eq, decide_eq_true_eq]
    exact and_congr UInt32.le_iff_toNat_le UInt32.le_iff_toNat_le
  have heq : ∀ d : Char, c = d ↔ c.toNat = d.toNat := fun d ↦
    ⟨congrArg Char.toNat, fun h ↦ Char.ext (UInt32.toNat_inj.1 h)⟩
  rw [wireChar, Bool.or_eq_true, Bool.or_eq_true, Bool.or_eq_true, hlower, hdigit, beq_iff_eq,
    beq_iff_eq, heq '-', heq '.', or_assoc, or_assoc]
  rfl

/-- A domain on the wire has no white space, no control characters and no at sign. -/
theorem wireChar_plain {c : Char} (h : wireChar c = true) :
    isAsciiWhitespace c = false ∧ isControl c = false ∧ c ≠ '@' := by
  rw [wireChar_iff] at h
  refine ⟨?_, ?_, ?_⟩
  · rw [isAsciiWhitespace, ← Bool.not_eq_true, List.contains_iff_mem]
    intro hmem
    simp only [List.mem_cons, List.not_mem_nil, or_false] at hmem
    rcases hmem with rfl | rfl | rfl | rfl | rfl <;> simp at h
  · rw [isControl, Bool.or_eq_false_iff, Bool.and_eq_false_iff, decide_eq_false_iff_not,
      decide_eq_false_iff_not, decide_eq_false_iff_not]
    omega
  · rintro rfl
    simp at h

/-- The normal form of a domain is accepted, as it is, unless one of its labels is refused. -/
theorem normalize_normal (hu : u.Strict) (h : normalize u raw = .ok normal) {again : Text} :
    normalize u normal = .ok again ↔ again = normal ∧ checkConfusables u normal = .ok () := by
  obtain ⟨-, -, ascii, hascii, rfl, hshape⟩ := normalize_eq_ok.1 h
  obtain ⟨hne, hwire⟩ := wireChar_of_checkDnsShape hshape
  have hplain : toAsciiLowercase ascii ≠ [] ∧
      ∀ c ∈ toAsciiLowercase ascii, isAsciiWhitespace c = false ∧ isControl c = false :=
    ⟨hne, fun c hc ↦ ⟨(wireChar_plain (hwire c hc)).1, (wireChar_plain (hwire c hc)).2.1⟩⟩
  rw [normalize_eq_ok, hu.stable hascii]
  constructor
  · rintro ⟨-, hcheck, ascii', heq, rfl, -⟩
    rw [← Option.some.inj heq, toAsciiLowercase_toAsciiLowercase]
    exact ⟨rfl, hcheck⟩
  · rintro ⟨rfl, hcheck⟩
    exact ⟨hplain, hcheck, _, rfl, (toAsciiLowercase_toAsciiLowercase ascii).symm, hshape⟩

end Domain

/-- The tables of names in lower case, of letters, digits and hyphens. -/
def Unicode.ldh : Unicode := { Unicode.ascii with
  domainToAsciiStrict := fun t ↦ if (t.splitOn '.').all Domain.labelOk then some t else none }

theorem Unicode.strict_ldh : Unicode.ldh.Strict := by
  have hdef : ∀ {raw ascii : Text}, Unicode.ldh.domainToAsciiStrict raw = some ascii →
      (raw.splitOn '.').all Domain.labelOk = true ∧ ascii = raw := by
    intro raw ascii h
    change (if (raw.splitOn '.').all Domain.labelOk then some raw else none) = some ascii at h
    split at h
    · rename_i hall
      exact ⟨hall, (Option.some.inj h).symm⟩
    · cases h
  refine ⟨fun h c hc _ ↦ ?_, fun h hmem ↦ ?_, fun h ↦ ?_⟩
  · have hc := Domain.wireChar_of_labels (hdef h).1 c hc
    rw [Domain.wireChar, Bool.or_eq_true, Bool.or_eq_true, Bool.or_eq_true, beq_iff_eq,
      beq_iff_eq] at hc
    simp only [Char.isAlphanum, Char.isAlpha, Bool.or_eq_true]
    tauto
  · exact absurd (List.all_eq_true.1 (hdef h).1 [] hmem) (by decide)
  · obtain ⟨hall, rfl⟩ := hdef h
    rename_i raw
    have hlower : toAsciiLowercase raw = raw := by
      refine (List.map_congr_left fun c hc ↦ ?_).trans (List.map_id raw)
      have hc := Domain.wireChar_iff.1 (Domain.wireChar_of_labels hall c hc)
      rw [Char.toLower, dif_neg]
      · rfl
      · rintro ⟨hlow, hhigh⟩
        have hlow : 65 ≤ c.toNat := UInt32.le_iff_toNat_le.1 hlow
        have hhigh : c.toNat ≤ 90 := UInt32.le_iff_toNat_le.1 hhigh
        omega
    rw [hlower]
    exact h

namespace Smtp

def maxAddress : ℕ := 254

def maxLocalPart : ℕ := 64

inductive AddressError
  | tooLong
  | missingAtSign
  | invalidLocalPart
  | invalidDomain
  | confusableDomain
  deriving DecidableEq, Repr

structure Address where
  localPart : Text
  /-- The lower-case ASCII form. -/
  domain : Text
  deriving DecidableEq, Repr

/-- A character that an atom of a local part may have. -/
def validAtomChar (c : Char) : Bool :=
  c.isAlphanum || "!#$%&'*+-/=?^_`\x7b|\x7d~".toList.contains c || !isAscii c && !isControl c

/-- Atoms separated by single dots. -/
def validateLocalPart (localPart : Text) : Except AddressError Unit :=
  if localPart.isEmpty || utf8Len localPart > maxLocalPart then .error .invalidLocalPart
  else if (localPart.splitOn '.').all fun atom ↦ !atom.isEmpty && atom.all validAtomChar then .ok ()
  else .error .invalidLocalPart

namespace Address

def parse (u : Unicode) (raw : Text) : Except AddressError Address :=
  if utf8Len raw > maxAddress then .error .tooLong
  else match rsplitOnce '@' raw with
    | none => .error .missingAtSign
    | some (localPart, domain) => do
      validateLocalPart localPart
      match Domain.normalize u domain with
      | .error .invalid => .error .invalidDomain
      | .error .confusable => .error .confusableDomain
      | .ok domain => pure ⟨localPart, domain⟩

variable {address : Address} {raw : Text} {u : Unicode}

def toText (address : Address) : Text := address.localPart ++ '@' :: address.domain

theorem parse_eq_ok :
    parse u raw = .ok address ↔ utf8Len raw ≤ maxAddress ∧
      validateLocalPart address.localPart = .ok () ∧
      ∃ domain, rsplitOnce '@' raw = some (address.localPart, domain) ∧
        Domain.normalize u domain = .ok address.domain := by
  unfold parse
  split
  · rename_i hlong
    exact ⟨fun h ↦ (by cases h), fun h ↦ absurd h.1 (Nat.not_le_of_gt hlong)⟩
  · rename_i hlength
    simp only [Nat.le_of_not_gt hlength, true_and]
    constructor
    · intro h
      split at h
      · cases h
      · rename_i localPart domain hsplit
        obtain ⟨_, hvalid, h⟩ := Domain.exists_of_bind_eq_ok h
        split at h
        · cases h
        · cases h
        · rename_i normal hnormal
          obtain rfl := Except.ok.inj h
          exact ⟨hvalid, domain, hsplit, hnormal⟩
    · rintro ⟨hvalid, domain, hsplit, hnormal⟩
      rw [hsplit]
      change (validateLocalPart address.localPart >>= fun _ ↦ _) = _
      rw [hvalid, hnormal]
      rfl

theorem parse_spec (h : parse u raw = .ok address) :
    ∃ domain, rsplitOnce '@' raw = some (address.localPart, domain) ∧
      Domain.normalize u domain = .ok address.domain :=
  (parse_eq_ok.1 h).2.2

theorem rsplitOnce_toText (h : parse u raw = .ok address) :
    rsplitOnce '@' address.toText = some (address.localPart, address.domain) := by
  obtain ⟨-, -, domain, -, hnormal⟩ := parse_eq_ok.1 h
  obtain ⟨-, -, ascii, -, -, hshape⟩ := Domain.normalize_eq_ok.1 hnormal
  have hwire := (Domain.wireChar_of_checkDnsShape hshape).2
  exact rsplitOnce_append (fun hmem ↦ (Domain.wireChar_plain (hwire _ hmem)).2.2 rfl) _

/-- The displayed form of an address is read back as the address, if it is not too long and no label
of its domain is refused. Else it is not accepted. -/
theorem parse_toText (hu : u.Strict) (h : parse u raw = .ok address) {again : Address} :
    parse u address.toText = .ok again ↔ again = address ∧ utf8Len address.toText ≤ maxAddress ∧
      Domain.checkConfusables u address.domain = .ok () := by
  obtain ⟨-, hvalid, domain, -, hnormal⟩ := parse_eq_ok.1 h
  rw [parse_eq_ok, rsplitOnce_toText h]
  constructor
  · rintro ⟨hlength, -, domain', heq, hagain⟩
    obtain ⟨hlocal, rfl⟩ := Prod.mk.inj (Option.some.inj heq)
    obtain ⟨hdomain, hcheck⟩ := (Domain.normalize_normal hu hnormal).1 hagain
    exact ⟨by cases again; cases address; simp_all, hlength, hcheck⟩
  · rintro ⟨rfl, hlength, hcheck⟩
    exact ⟨hlength, hvalid, _, rfl, (Domain.normalize_normal hu hnormal).2 ⟨rfl, hcheck⟩⟩

/-- With the ASCII form of its domain the address is not too long, and no label of that form is
refused. -/
def Steady (u : Unicode) (raw : Text) : Prop :=
  ∀ localPart domain ascii, rsplitOnce '@' raw = some (localPart, domain) →
    u.domainToAsciiStrict domain = some ascii →
    utf8Len localPart + 1 + utf8Len (toAsciiLowercase ascii) ≤ maxAddress ∧
      Domain.checkConfusables u (toAsciiLowercase ascii) = .ok ()

theorem parse_display_iff (hu : u.Strict) (h : parse u raw = .ok address) :
    parse u address.toText = .ok address ↔ Steady u raw := by
  obtain ⟨-, -, domain, hsplit, hnormal⟩ := parse_eq_ok.1 h
  obtain ⟨-, -, ascii, hascii, hdomain, -⟩ := Domain.normalize_eq_ok.1 hnormal
  have hlength : utf8Len address.toText =
      utf8Len address.localPart + 1 + utf8Len (toAsciiLowercase ascii) := by
    rw [toText, hdomain, utf8Len_append, utf8Len_cons, Nat.add_assoc]
    rfl
  rw [parse_toText hu h, hlength, hdomain]
  refine ⟨fun hfits localPart domain' ascii' hsplit' hascii' ↦ ?_, fun hsteady ↦
    ⟨rfl, hsteady _ _ _ hsplit hascii⟩⟩
  rw [hsplit] at hsplit'
  obtain ⟨rfl, rfl⟩ := Prod.mk.inj (Option.some.inj hsplit')
  rw [hascii] at hascii'
  rw [← Option.some.inj hascii']
  exact hfits.2

/-- A domain of twenty-five labels, and its ASCII form. -/
def accented (label : Text) : Text := ['.'].intercalate (List.replicate 25 label)

/-- The tables with one letter more, which is a label of its own. -/
def acute : Unicode := { Unicode.ldh with
  domainToAsciiStrict := fun t ↦
    if t = accented ['é'] then some (accented "xn--9ca".toList)
    else Unicode.ldh.domainToAsciiStrict t
  punycodeDecode := fun _ ↦ some ['é'] }

set_option maxRecDepth 4000 in
theorem strict_acute : acute.Strict := by
  have hdef (raw : Text) : acute.domainToAsciiStrict raw = if raw = accented ['é'] then
    some (accented "xn--9ca".toList) else Unicode.ldh.domainToAsciiStrict raw := rfl
  refine ⟨fun {raw ascii} h ↦ ?_, fun {raw ascii} h ↦ ?_, fun {raw ascii} h ↦ ?_⟩
  · rw [hdef] at h
    split at h
    next heq =>
      intro c hc hascii
      have hchar : (accented ['é']).all (fun c ↦ c == '.' || !isAscii c) = true := by decide
      have hdot := List.all_eq_true.1 hchar c (heq ▸ hc)
      rw [hascii, Bool.not_true, Bool.or_false, beq_iff_eq] at hdot
      exact .inr (.inr hdot)
    next => exact Unicode.strict_ldh.std3 h
  · rw [hdef] at h
    split at h
    next heq =>
      subst heq
      decide
    next => exact Unicode.strict_ldh.labels h
  · rw [hdef] at h
    split at h
    next =>
      obtain rfl := Option.some.inj h
      decide
    next =>
      have hstable := Unicode.strict_ldh.stable h
      rw [hdef, if_neg, hstable]
      intro heq
      rw [heq] at hstable
      revert hstable
      decide

set_option maxRecDepth 4000 in
theorem parse_display_bob :
    parse acute (toText ⟨"bob".toList, accented "xn--9ca".toList⟩) =
      .ok ⟨"bob".toList, accented "xn--9ca".toList⟩ := by
  refine (parse_display_iff strict_acute
    (show parse _ ("bob@".toList ++ accented ['é']) = _ by decide)).2 ?_
  intro localPart domain ascii hsplit hascii
  rw [show rsplitOnce '@' ("bob@".toList ++ accented ['é']) = some ("bob".toList, accented ['é']) by
    decide] at hsplit
  obtain ⟨rfl, rfl⟩ := Prod.mk.inj (Option.some.inj hsplit)
  rw [show acute.domainToAsciiStrict (accented ['é']) = some (accented "xn--9ca".toList) by
    decide] at hascii
  obtain rfl := Option.some.inj hascii
  decide

set_option maxRecDepth 4000 in
/-- Twenty-five labels of one letter each. The ASCII form of the domain takes 199 octets. -/
theorem parse_display_tooLong :
    let address : Address := ⟨List.replicate 64 'b', accented "xn--9ca".toList⟩
    acute.Strict ∧ parse acute (List.replicate 64 'b' ++ '@' :: accented ['é']) = .ok address ∧
      parse acute address.toText = .error .tooLong :=
  ⟨strict_acute, by decide, by decide⟩

end Address

example : Address.parse .ascii "Bob.B@Example.org".toList = .ok ⟨"Bob.B".toList,
    "example.org".toList⟩ := by
  decide

end Smtp

end Epistle
