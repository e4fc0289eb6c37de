import Epistle.Arc.Chain
import Epistle.Smtp.Scram

/-!
# The signatures of an instance

The signature of the message and the seal of the chain are lists of tags. Reading them is stricter
than looking a single tag up: every part has to be a tag, and white space inside a value does not
count.
-/

namespace Epistle.Arc

open TextFormat
open Smtp (Primitives)

inductive Algorithm
  | rsaSha256
  | ed25519Sha256
  deriving DecidableEq, Repr

/-- How texts are brought to a normal form before they are signed. -/
inductive Canon
  | simple
  | relaxed
  deriving DecidableEq, Repr

structure MessageSignature where
  number : ℕ
  algorithm : Algorithm
  domain : Text
  selector : Text
  signedHeaders : List Text
  bodyHash : Bytes
  signature : Bytes
  headerCanon : Canon
  bodyCanon : Canon
  timestamp : Option ℕ

structure Seal where
  number : ℕ
  algorithm : Algorithm
  domain : Text
  selector : Text
  chainValidation : ChainValidation
  signature : Bytes
  timestamp : Option ℕ

abbrev Tags : Type := List (Text × Text)

namespace Tags

def parse (value : Text) : Option Tags :=
  (((value.splitOn ';').map trim).filter (· ≠ [])).mapM fun tag ↦
    (splitOnce '=' tag).map fun (name, raw) ↦
      (toAsciiLowercase (trim name), raw.filter (!isWhitespace ·))

def get (tags : Tags) (key : String) : Option Text :=
  (tags.find? fun tag ↦ tag.1 = key.toList).map Prod.snd

end Tags

def parseInstance (text : Text) : Option ℕ :=
  (parseU32 text).filter fun number ↦ number ≠ 0 ∧ number ≤ maxInstance

def parseAlgorithm (text : Text) : Option Algorithm :=
  if text = "rsa-sha256".toList then some .rsaSha256
  else if text = "ed25519-sha256".toList then some .ed25519Sha256
  else none

def parseCanon (text : Text) : Option Canon :=
  if text = "simple".toList then some .simple
  else if text = "relaxed".toList then some .relaxed
  else none

/-- The forms of the header and of the body. -/
def parseCanons : Option Text → Option (Canon × Canon)
  | none => some (.simple, .simple)
  | some text => do
    let (header, body) := (splitOnce '/' text).getD (text, "simple".toList)
    return (← parseCanon header, ← parseCanon body)

/-- The time of a signature, which need not be given. -/
def parseTimestamp (tags : Tags) : Option (Option ℕ) :=
  match tags.get "t" with
  | none => some none
  | some value => ((parseDecimal value).filter (· < 2 ^ 64)).map some

def parseMessageSignature (p : Primitives) (value : Text) : Option MessageSignature := do
  let tags ← Tags.parse value
  let number ← (tags.get "i").bind parseInstance
  let algorithm ← (tags.get "a").bind parseAlgorithm
  let signedHeaders := ((← tags.get "h").splitOn ':').map toAsciiLowercase
  -- the sender has to be signed, and fields of the chain must not be
  guard (signedHeaders.any (· = "from".toList))
  guard (!signedHeaders.any ("arc-".toList.isPrefixOf ·))
  let (headerCanon, bodyCanon) ← parseCanons (tags.get "c")
  let domain ← tags.get "d"
  let selector ← tags.get "s"
  let bodyHash ← (tags.get "bh").bind p.base64Decode
  let signature ← (tags.get "b").bind p.base64Decode
  let timestamp ← parseTimestamp tags
  return ⟨number, algorithm, toAsciiLowercase domain, toAsciiLowercase selector,
    signedHeaders, bodyHash, signature, headerCanon, bodyCanon, timestamp⟩

def parseSeal (p : Primitives) (value : Text) : Option Seal := do
  let tags ← Tags.parse value
  -- a seal does not sign the message
  guard ((tags.get "h").isNone ∧ (tags.get "bh").isNone)
  let chainValidation ← (tags.get "cv").bind ChainValidation.parse
  let number ← (tags.get "i").bind parseInstance
  let algorithm ← (tags.get "a").bind parseAlgorithm
  let domain ← tags.get "d"
  let selector ← tags.get "s"
  let signature ← (tags.get "b").bind p.base64Decode
  let timestamp ← parseTimestamp tags
  return ⟨number, algorithm, toAsciiLowercase domain, toAsciiLowercase selector, chainValidation,
    signature, timestamp⟩

/-! ## Tags -/

variable {part name value : Text}

theorem tag_append (h : ';' ∉ part) (rest key : Text) :
    tag (part ++ ';' :: rest) key = (readTag key part).or (tag rest key) := by
  rw [tag, List.splitOn_append_cons_self_of_not_mem h, List.findSome?_cons, tag]
  cases readTag key part <;> rfl

theorem readTag_append (h : '=' ∉ name) (value key : Text) :
    readTag key (name ++ '=' :: value) =
      if eqIgnoreAsciiCase (trim name) key then some (trim value) else none := by
  rw [readTag, splitOnce_append h]
  rfl

theorem readTag_eq {key raw : Text} (hkey : toAsciiLowercase key = key)
    (h : splitOnce '=' (trim part) = some (name, raw)) :
    (readTag key part).map (List.filter (!isWhitespace ·)) =
      if toAsciiLowercase (trim name) = key then some (raw.filter (!isWhitespace ·)) else none := by
  rw [splitOnce_trim (by decide)] at h
  obtain ⟨⟨name', value⟩, hsplit, heq⟩ := Option.map_eq_some_iff.1 h
  obtain ⟨rfl, rfl⟩ := Prod.mk.inj heq
  have hname : trim (trimStart name') = trim name' := by
    rw [trim_eq, trimStart_trimStart, trim_eq]
  rw [readTag, hsplit, hname, filter_trimEnd]
  dsimp only [Option.bind_some]
  by_cases hkey' : toAsciiLowercase (trim name') = key
  · rw [if_pos (by rw [eqIgnoreAsciiCase, hkey, hkey', beq_self_eq_true]), if_pos hkey',
      Option.map_some, trim_eq, filter_trimEnd, filter_trimStart]
  · rw [if_neg (by simpa [eqIgnoreAsciiCase, hkey] using hkey'), if_neg hkey']
    rfl

/-- **Reading all tags agrees with looking one up**, apart from white space inside the value. -/
theorem Tags.get_eq_tag {tags : Tags} (h : Tags.parse value = some tags) (key : String)
    (hkey : toAsciiLowercase key.toList = key.toList) :
    tags.get key = (tag value key.toList).map (List.filter (!isWhitespace ·)) := by
  rw [Tags.parse] at h
  rw [Tags.get, tag]
  generalize value.splitOn ';' = parts at h
  induction parts generalizing tags with
  | nil =>
    obtain rfl := Option.some.inj h
    rfl
  | cons part parts ih =>
    rw [List.findSome?_cons]
    rw [List.map_cons] at h
    by_cases hempty : trim part = []
    · -- there is no tag in white space
      rw [List.filter_cons_of_neg (by simp [hempty])] at h
      have hnone : readTag key.toList part = none := by
        have hsplit := splitOnce_trim (by decide : isWhitespace '=' = false) part
        rw [hempty] at hsplit
        rw [readTag, Option.map_eq_none_iff.1 hsplit.symm]
        rfl
      rw [hnone]
      exact ih h
    · rw [List.filter_cons_of_pos (by simp [hempty]), List.mapM_cons] at h
      obtain ⟨tag, htag, hrest⟩ := Option.bind_eq_some_iff.1 h
      obtain ⟨rest, hparts, hcons⟩ := Option.bind_eq_some_iff.1 hrest
      obtain rfl := Option.some.inj hcons
      obtain ⟨⟨name, raw⟩, hsplit, rfl⟩ := Option.map_eq_some_iff.1 htag
      have hread := readTag_eq hkey hsplit
      rw [List.find?_cons]
      by_cases hname : toAsciiLowercase (trim name) = key.toList
      · rw [if_pos hname] at hread
        obtain ⟨found, hfound, hvalue⟩ := Option.map_eq_some_iff.1 hread
        rw [hfound, decide_eq_true hname, Option.map_some, Option.map_some, hvalue]
      · rw [if_neg hname, Option.map_eq_none_iff] at hread
        rw [hread, decide_eq_false hname]
        exact ih hparts

theorem of_parseSeal {p : Primitives} {parsed : Seal} (h : parseSeal p value = some parsed) :
    (∃ text, tag value "cv".toList = some text ∧
      ChainValidation.parse (text.filter (!isWhitespace ·)) = some parsed.chainValidation) ∧
    ∃ text, tag value "i".toList = some text ∧
      parseInstance (text.filter (!isWhitespace ·)) = some parsed.number := by
  rw [parseSeal] at h
  simp only [Option.bind_eq_bind, Option.bind_eq_some_iff, Option.pure_def, Option.some.injEq] at h
  obtain ⟨tags, htags, -, -, cv, ⟨cvText, hcvText, hcv⟩, number,
    ⟨numberText, hnumberText, hnumber⟩, -, -, -, -, -, -, -, -, -, -, rfl⟩ := h
  rw [Tags.get_eq_tag htags _ (by decide), Option.map_eq_some_iff] at hcvText hnumberText
  obtain ⟨text, htext, rfl⟩ := hcvText
  obtain ⟨text', htext', rfl⟩ := hnumberText
  exact ⟨⟨text, htext, hcv⟩, text', htext', hnumber⟩

end Epistle.Arc
