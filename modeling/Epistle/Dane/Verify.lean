import Epistle.Text.Utf8

/-!
# DANE

A domain can publish which certificates its servers have. A record is about the certificate of the
server itself (an end entity) or about one that stands behind it (a trust anchor), and it gives the
certificate or its public key, in full or as a hash. If there are records, then a server is
authentic if one of them matches the certificates that it presents; the TLS handshake is made with
any certificate.

A record of a trust anchor says that the server's certificate was signed by the one that matches, or
by one that was signed by it, and so on. The program does not look at signatures: it takes any
certificate that is presented. So a server can present its own certificate and, beside it, one that
it has nothing to do with (`Spliced`). For all other presentations the decision is right
(`sound_iff`).
-/

namespace Epistle.Dane

open TextFormat

/-! ## Records -/

inductive CertUsage
  | pkixTa
  | pkixEe
  | daneTa
  | daneEe
  deriving DecidableEq, Repr

inductive Selector
  | fullCert
  | spki
  deriving DecidableEq, Repr

inductive MatchingType
  | full
  | sha256
  | sha512
  deriving DecidableEq, Repr

structure TlsaRecord where
  usage : CertUsage
  selector : Selector
  matchingType : MatchingType
  /-- What is expected. -/
  association : Bytes
  deriving DecidableEq, Repr

/-- Hashes, and what can be read off a certificate. -/
structure X509 where
  sha256 : Bytes → Bytes
  sha512 : Bytes → Bytes
  /-- The public key of a certificate, unless it cannot be parsed. -/
  spkiOf : Bytes → Option Bytes
  /-- A certificate was signed with the key of another one. -/
  SignedBy : Bytes → Bytes → Prop

/-- A certificate and its public key. -/
structure CertView where
  der : Bytes
  spki : Bytes
  deriving DecidableEq

variable (x : X509)

def TlsaRecord.matchesCert (record : TlsaRecord) (cert : CertView) : Bool :=
  let selected := match record.selector with
    | .fullCert => cert.der
    | .spki => cert.spki
  let computed := match record.matchingType with
    | .full => selected
    | .sha256 => x.sha256 selected
    | .sha512 => x.sha512 selected
  computed == record.association

/-! ## The decision -/

/-- Whether a record authenticates a server by its certificate and the others that it presents. -/
def authenticate (records : List TlsaRecord) (leaf : CertView) (chain : List CertView) : Bool :=
  records.any fun record ↦ match record.usage with
    | .daneEe | .pkixEe => record.matchesCert x leaf
    | .daneTa | .pkixTa => (leaf :: chain).any (record.matchesCert x)

inductive DaneOutcome
  | authenticated
  | noRecords
  | mismatch
  deriving DecidableEq, Repr

def daneOutcome (records : List TlsaRecord) (leaf : CertView) (chain : List CertView) :
    DaneOutcome :=
  if records.isEmpty then .noRecords
  else if authenticate x records leaf chain then .authenticated
  else .mismatch

/-- A certificate as it is matched. One that cannot be parsed has no public key. -/
def view (der : Bytes) : CertView := ⟨der, (x.spkiOf der).getD []⟩

/-- Apply the records to the certificates that a server presents, its own first. -/
def verifyChain (records : List TlsaRecord) (chain : List Bytes) : DaneOutcome :=
  if records.isEmpty then .noRecords
  else match chain.map (view x) with
    | [] => .mismatch
    | leaf :: rest => daneOutcome x records leaf rest

/-! ## What the records say -/

/-- Whether a usage is about the certificate of the server itself. -/
def CertUsage.isEndEntity : CertUsage → Bool
  | .daneEe | .pkixEe => true
  | .daneTa | .pkixTa => false

/-- Some record of the given kind matches a certificate. -/
def Matched (records : List TlsaRecord) (endEntity : Bool) (cert : Bytes) : Prop :=
  ∃ record ∈ records, record.usage.isEndEntity = endEntity ∧
    record.matchesCert x (view x cert) = true

/-- Presented certificates lead from one to another, each signed by the next. -/
def Linked (chain : List Bytes) : Bytes → Bytes → Prop :=
  Relation.ReflTransGen fun cert signer ↦ signer ∈ chain ∧ x.SignedBy cert signer

/-- The records authenticate a server: its own certificate, or one that stands behind it. -/
def Authentic (records : List TlsaRecord) (chain : List Bytes) : Prop :=
  ∃ leaf, chain.head? = some leaf ∧ (Matched x records true leaf ∨
    ∃ cert ∈ chain, Matched x records false cert ∧ Linked x chain leaf cert)

/-- The only records that match are those of trust anchors, and none of these stands behind the
certificate of the server. -/
structure Spliced (records : List TlsaRecord) (chain : List Bytes) : Prop where
  anchor : ∃ cert ∈ chain, Matched x records false cert
  endEntity : ∀ leaf, chain.head? = some leaf → ¬Matched x records true leaf
  apart : ∀ leaf, chain.head? = some leaf → ∀ cert ∈ chain, Matched x records false cert →
    ¬Linked x chain leaf cert

variable {x} {records : List TlsaRecord} {chain : List Bytes}

theorem authenticate_eq_true_iff {leaf : Bytes} {rest : List Bytes} :
    authenticate x records (view x leaf) (rest.map (view x)) = true ↔
      Matched x records true leaf ∨ ∃ cert ∈ leaf :: rest, Matched x records false cert := by
  rw [authenticate, List.any_eq_true, ← List.map_cons]
  constructor
  · rintro ⟨record, hrecord, hmatch⟩
    cases husage : record.usage with
    | daneEe | pkixEe =>
      rw [husage] at hmatch
      exact .inl ⟨record, hrecord, by rw [husage]; rfl, hmatch⟩
    | daneTa | pkixTa =>
      rw [husage, List.any_map, List.any_eq_true] at hmatch
      obtain ⟨cert, hcert, hmatch⟩ := hmatch
      exact .inr ⟨cert, hcert, record, hrecord, by rw [husage]; rfl, hmatch⟩
  · rintro (⟨record, hrecord, husage, hmatch⟩ | ⟨cert, hcert, record, hrecord, husage, hmatch⟩)
    · refine ⟨record, hrecord, ?_⟩
      cases hcase : record.usage with
      | daneEe | pkixEe => exact hmatch
      | daneTa | pkixTa =>
        rw [hcase] at husage
        cases husage
    · refine ⟨record, hrecord, ?_⟩
      cases hcase : record.usage with
      | daneEe | pkixEe =>
        rw [hcase] at husage
        cases husage
      | daneTa | pkixTa =>
        dsimp only
        rw [List.any_map, List.any_eq_true]
        exact ⟨cert, hcert, hmatch⟩

/-- **What the decision comes to**: signatures do not count. -/
theorem verifyChain_eq_authenticated_iff :
    verifyChain x records chain = .authenticated ↔ ∃ leaf, chain.head? = some leaf ∧
      (Matched x records true leaf ∨ ∃ cert ∈ chain, Matched x records false cert) := by
  rw [verifyChain]
  by_cases hempty : records = []
  · subst hempty
    refine iff_of_false (by simp) ?_
    rintro ⟨leaf, -, ⟨record, hrecord, -⟩ | ⟨cert, -, record, hrecord, -⟩⟩ <;> cases hrecord
  · rw [if_neg (by simpa using hempty)]
    cases chain with
    | nil => simp
    | cons leaf rest =>
      rw [List.map_cons]
      dsimp only
      rw [daneOutcome, if_neg (by simpa using hempty)]
      simp only [List.head?_cons, Option.some.injEq, exists_eq_left', ← authenticate_eq_true_iff]
      split <;> simp_all

theorem verifyChain_eq_noRecords_iff : verifyChain x records chain = .noRecords ↔ records = [] := by
  constructor
  · intro h
    by_contra hne
    have hfalse : records.isEmpty = false := by simpa using hne
    unfold verifyChain at h
    rw [hfalse, if_neg (by decide)] at h
    split at h
    · cases h
    · unfold daneOutcome at h
      rw [hfalse, if_neg (by decide)] at h
      split at h <;> cases h
  · rintro rfl
    rfl

/-- **An authenticated server is authentic, unless its certificates are spliced.** -/
theorem sound_iff (records : List TlsaRecord) (chain : List Bytes) :
    (verifyChain x records chain = .authenticated → Authentic x records chain) ↔
      ¬Spliced x records chain := by
  rw [verifyChain_eq_authenticated_iff]
  constructor
  · rintro hsound ⟨⟨cert, hcert, hmatch⟩, hleaf, hapart⟩
    obtain ⟨leaf, hhead⟩ : ∃ leaf, chain.head? = some leaf :=
      Option.isSome_iff_exists.1 (by cases chain with
        | nil => cases hcert
        | cons leaf rest => rfl)
    obtain ⟨leaf', hhead', hauthentic⟩ := hsound ⟨leaf, hhead, .inr ⟨cert, hcert, hmatch⟩⟩
    rcases hauthentic with hmatch | ⟨anchor, hanchor, hmatch, hlinked⟩
    · exact hleaf leaf' hhead' hmatch
    · exact hapart leaf' hhead' anchor hanchor hmatch hlinked
  · rintro hspliced ⟨leaf, hhead, hmatch | hanchor⟩
    · exact ⟨leaf, hhead, .inl hmatch⟩
    · by_contra hauthentic
      refine hspliced ⟨hanchor, fun leaf' hhead' hmatch ↦ ?_,
        fun leaf' hhead' cert hcert hmatch hlinked ↦ ?_⟩
      · exact hauthentic ⟨leaf', hhead', .inl hmatch⟩
      · exact hauthentic ⟨leaf', hhead', .inr ⟨cert, hcert, hmatch, hlinked⟩⟩

/-- Certificates that nobody has signed. -/
def unsigned : X509 := ⟨id, id, some, fun _ _ ↦ False⟩

/-- A trust anchor, by its certificate. -/
def anchorRecord : TlsaRecord := ⟨.daneTa, .fullCert, .full, [2]⟩

/-- A server presents a certificate of its own and, beside it, that of the anchor. -/
theorem spliced_authenticated : verifyChain unsigned [anchorRecord] [[1], [2]] = .authenticated ∧
    ¬Authentic unsigned [anchorRecord] [[1], [2]] := by
  refine ⟨by decide, ?_⟩
  rintro ⟨leaf, hhead, ⟨record, hrecord, husage, -⟩ | ⟨cert, -,
    ⟨record, hrecord, -, hmatch⟩, hlinked⟩⟩
  · rw [List.mem_singleton.1 hrecord] at husage
    cases husage
  · obtain rfl : [1] = leaf := Option.some.inj hhead
    -- no certificate was signed, so that the path is empty
    have hcert : cert = [1] := by
      cases hlinked with
      | refl => rfl
      | tail _ hsigned => exact hsigned.2.elim
    rw [List.mem_singleton.1 hrecord, hcert] at hmatch
    exact absurd hmatch (by decide)

end Epistle.Dane
