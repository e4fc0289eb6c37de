import Epistle.Arc.Signature

/-!
# Signing and sealing

An instance is made and checked by way of the same texts. The message signature covers some header
fields and a hash of the body, the seal covers the fields of all instances up to its own.
Signatures, hashes and the keys that are published are those of the surroundings.
-/

namespace Epistle.Arc

open TextFormat
open Smtp (Primitives)

variable (p : Primitives) (sealer : ArcSealer)

/-! ## Normal forms -/

/-- Leave out white space at the start and at the end, and put one space for white space between. -/
def collapse {α : Type} (blank : α → Bool) (space : α) : Bool → Bool → List α → List α
  | _, _, [] => []
  | started, inSpace, c :: t =>
    if blank c then collapse blank space started true t
    else (if inSpace && started then [space] else []) ++ c :: collapse blank space true false t

namespace Canon

/-- The normal form of a header field. -/
def header (canon : Canon) (name value : Text) : Text :=
  match canon with
  | .simple => name ++ ':' :: value ++ ['\r', '\n']
  | .relaxed =>
    toAsciiLowercase name ++
      ':' :: collapse (fun c ↦ [' ', '\t', '\r', '\n'].contains c) ' ' false false value ++
        ['\r', '\n']

/-- Drop empty lines from the end of a body that stands in reverse. -/
def dropEmptyLines : Bytes → Bytes
  | a :: b :: rest =>
    if [a, b] = [0x0a, 0x0d] ∧ [0x0a, 0x0d].isPrefixOf rest then dropEmptyLines rest
    else a :: b :: rest
  | rest => rest

/-- The body with one CRLF at the end. -/
def simpleBody (body : Bytes) : Bytes :=
  let out := (dropEmptyLines body.reverse).reverse
  if [0x0d, 0x0a].isSuffixOf out then out else out ++ [0x0d, 0x0a]

def bodyLines (body : Bytes) : List Bytes :=
  let pieces := body.splitOn 0x0a
  (pieces.dropLast.map fun line ↦ if line.getLast? = some 0x0d then line.dropLast else line) ++
    if pieces.getLastD [] = [] then [] else [pieces.getLastD []]

/-- The body with white space in the lines collapsed. -/
def relaxedBody (body : Bytes) : Bytes :=
  let out := (bodyLines body).flatMap fun line ↦
    collapse (fun b ↦ b = 0x20 || b = 0x09) 0x20 false false line ++ [0x0d, 0x0a]
  (dropEmptyLines out.reverse).reverse

/-- The normal form of a body. -/
def body : Canon → Bytes → Bytes
  | .simple => simpleBody
  | .relaxed => relaxedBody

end Canon

/-- The value with the signature taken out. -/
def stripB (value : Text) : Text :=
  [';'].intercalate ((value.splitOn ';').map fun tag ↦
    if "b=".toList.isPrefixOf (trimStart tag) then
      tag.takeWhile isWhitespace ++ "b=".toList
    else tag)

/-! ## Keys -/

inductive DkimOutcome
  | pass
  | fail
  | permError
  | tempError
  | none
  deriving DecidableEq, Repr

/-- What is published, and how signatures are checked. -/
structure Keys where
  /-- The texts under a name, unless the lookup fails for now. -/
  txt : Text → Option (List Text)
  /-- Whether a signature of a text was made with the key that belongs to a public key. -/
  verify : Bytes → Bytes → Bytes → Bool

def parseKey (text : Text) : Option Bytes :=
  ((text.splitOn ';').findSome? fun tag ↦ (trim tag).dropPrefix? "p=".toList).bind fun value ↦
    p.base64Decode (value.filter (!isWhitespace ·))

def Keys.check (keys : Keys) (p : Primitives) (selector domain input : Text) (signature : Bytes) :
    DkimOutcome :=
  match keys.txt (selector ++ "._domainkey.".toList ++ domain) with
  | .none => .tempError
  | some texts =>
    match texts.findSome? (parseKey p) with
    | .none => .permError
    | some key => if keys.verify key (encodeUtf8 input) signature then .pass else .fail

/-! ## Message signatures -/

def headerField (line : Text) : Option (Text × Text) :=
  (splitOnce ':' line).map fun (name, value) ↦ (trimEnd name, value)

def splitMessage (raw : Bytes) : Option (List (Text × Text) × Bytes) :=
  (messageFields raw).map fun lines ↦ (lines.filterMap headerField, messageBody raw)

/-- The last field of a name that has not been used. -/
def lowestUnused (headers : List (Text × Text)) (used : List Bool) (name : Text) : Option ℕ :=
  (List.range headers.length).reverse.find? fun i ↦
    !(used[i]?.getD false) && (headers[i]?.any fun header ↦ eqIgnoreAsciiCase header.1 name)

/-- The fields for a list of names, each with its name. A field is used once. -/
def selectHeaders (headers : List (Text × Text)) : List Bool → List Text →
    List (Text × (Text × Text))
  | _, [] => []
  | used, name :: names =>
    match lowestUnused headers used name with
    | none => selectHeaders headers used names
    | some i => (name, headers[i]?.getD ([], [])) :: selectHeaders headers (used.set i true) names

/-- What is signed of some header fields. -/
def hashInput (canon : Canon) (selected : List (Text × (Text × Text))) : Text :=
  selected.flatMap fun (_, name, value) ↦ canon.header name value

/-- The fields that are signed if they are there. -/
def signedHeaders : List Text :=
  ["from", "to", "cc", "subject", "date", "message-id"].map String.toList

/-- The field names of an instance. -/
def ArcKind.name : ArcKind → Text
  | .authResults => "ARC-Authentication-Results".toList
  | .messageSignature => "ARC-Message-Signature".toList
  | .arcSeal => "ARC-Seal".toList

/-- A field of an instance as it is signed by itself, without a line end. -/
def ownLine (canon : Canon) (kind : ArcKind) (value : Text) : Text :=
  stripCrlf (canon.header kind.name value)

/-- A text that can be the value of a tag: it has no white space and no separators. -/
def Plain (t : Text) : Prop := ∀ c ∈ t, isWhitespace c = false ∧ c ≠ ';'

instance (t : Text) : Decidable (Plain t) :=
  List.decidableBAll (fun c ↦ isWhitespace c = false ∧ c ≠ ';') t

structure ArcSealer where
  sign : Bytes → Bytes
  publicKey : Bytes
  domain : Text
  selector : Text
  /-- Names of hosts and of keys are plain. -/
  domain_plain : Plain domain
  selector_plain : Plain selector

namespace Ams

/-- The value of a new message signature, unless the message has no sender. -/
def build (number : ℕ) (raw : Bytes) : Option Text := do
  let (headers, body) ← splitMessage raw
  let bodyHash := p.base64Encode (p.sha256 (Canon.relaxed.body body))
  let selected := selectHeaders headers (List.replicate headers.length false) signedHeaders
  guard (selected.any fun header ↦ header.1 = "from".toList)
  let value :=
    " i=".toList ++ decimal number ++ "; a=ed25519-sha256; c=relaxed/relaxed; d=".toList ++
    sealer.domain ++ "; s=".toList ++ sealer.selector ++ "; h=".toList ++
    [':'].intercalate (selected.map Prod.fst) ++ "; bh=".toList ++ bodyHash ++ "; b=".toList
  let input := hashInput .relaxed selected ++ ownLine .relaxed .messageSignature value
  return value ++ p.base64Encode (sealer.sign (encodeUtf8 input))

def verify (keys : Keys) (ams : MessageSignature) (value : Text) (raw : Bytes) :
    DkimOutcome :=
  match splitMessage raw with
  | none => .permError
  | some (headers, body) =>
    if p.sha256 (ams.bodyCanon.body body) ≠ ams.bodyHash then .fail
    else
      let selected := selectHeaders headers (List.replicate headers.length false) ams.signedHeaders
      keys.check p ams.selector ams.domain
        (hashInput ams.headerCanon selected ++ ownLine ams.headerCanon .messageSignature
          (stripB value))
        ams.signature

end Ams

/-! ## Seals -/

namespace AsSeal

def sorted (instances : List Instance) : List Instance :=
  instances.insertionSort fun x y ↦ x.number ≤ y.number

/-- What a seal covers of an instance before the seal itself. -/
def appendInstance (authResults messageSignature : Text) : Text :=
  Canon.relaxed.header ArcKind.authResults.name authResults ++
    Canon.relaxed.header ArcKind.messageSignature.name messageSignature

def earlier (x : Instance) : Text :=
  appendInstance x.authResults x.messageSignature ++
    Canon.relaxed.header ArcKind.arcSeal.name x.arcSeal

def build (number : ℕ) (cv : ChainValidation)
    (prior : List Instance) (authResults messageSignature : Text) : Text :=
  let value := " i=".toList ++ decimal number ++ "; a=ed25519-sha256; d=".toList ++ sealer.domain ++
    "; s=".toList ++ sealer.selector ++ "; cv=".toList ++ cv.asStr ++ "; b=".toList
  let input := (sorted prior).flatMap earlier ++ appendInstance authResults messageSignature ++
    ownLine .relaxed .arcSeal value
  value ++ p.base64Encode (sealer.sign (encodeUtf8 input))

def covered (arcSeal : Seal) (value : Text) (instances : List Instance) : Text :=
  ((sorted instances).filter fun x ↦ x.number ≤ arcSeal.number).flatMap fun x ↦
    if x.number = arcSeal.number then
      appendInstance x.authResults x.messageSignature ++ ownLine .relaxed .arcSeal (stripB value)
    else earlier x

def verify (keys : Keys) (arcSeal : Seal) (value : Text)
    (instances : List Instance) :
    DkimOutcome :=
  keys.check p arcSeal.selector arcSeal.domain (covered arcSeal value instances) arcSeal.signature

end AsSeal

/-! ## Sealers -/

def nextInstance (prior : List Instance) : Option ℕ :=
  let next := (prior.map Instance.number).max?.getD 0 + 1
  if next ≤ maxInstance then some next else none

/-- The values of the fields of a new instance, as they are written. -/
def ArcSealer.values (raw : Bytes) (authResults : Text)
    (prior : List Instance) (cv : ChainValidation) : Option Instance := do
  let number ← nextInstance prior
  let amsValue ← Ams.build p sealer number raw
  let aarValue := " i=".toList ++ decimal number ++ "; ".toList ++ sealer.domain ++ "; ".toList ++
    authResults
  return ⟨number, aarValue, amsValue, AsSeal.build p sealer number cv prior aarValue amsValue⟩

def Instance.line (x : Instance) (kind : ArcKind) : Text := kind.name ++ ':' :: x.value kind

def Instance.lines (x : Instance) : Text :=
  ([.arcSeal, .messageSignature, .authResults].map x.line).flatMap (· ++ ['\r', '\n'])

/-- Seal a message: the header fields to put before it. -/
def ArcSealer.seal (raw : Bytes) (authResults : Text)
    (prior : List Instance) (cv : ChainValidation) : Option Text :=
  (sealer.values p raw authResults prior cv).map Instance.lines

/-! ## Sealing what is sent on -/

/-- The value of the first header of a name. -/
def headerOf (data : Bytes) (field : String) : Option Text :=
  let text := p.fromUtf8Lossy data
  let headers := ((splitOnceText "\r\n\r\n".toList text).map Prod.fst).getD text
  ((splitCrlf headers).map stripCrlf).findSome? fun line ↦
    (splitOnce ':' line).bind fun (name, value) ↦
      if eqIgnoreAsciiCase (trim name) field.toList then some (trim value) else none

/-- What the sealer knows of the chain of a message. -/
def priorOf : Except ChainError (Option (List Instance)) → List Instance
  | .ok (some prior) => prior
  | _ => []

def sealedBy (domain : Text) (prior : List Instance) : Bool :=
  prior.getLast?.any fun top ↦ (tag top.arcSeal "d".toList).any (eqIgnoreAsciiCase · domain)

/-- What a new seal says of the chain: what the newest one says. -/
def recordedStatus (prior : List Instance) : ChainValidation :=
  if prior.isEmpty then .none else (chainStatus prior).getD .fail

/-- The instance that is added to a message, unless none is. The program may panic. -/
def arcInstance (data : Bytes) : Option (Option Instance) :=
  (extract data).map fun extracted ↦
    let prior := priorOf extracted
    if sealedBy sealer.domain prior then none
    else
      let authResults := (headerOf p data "authentication-results").getD "none".toList
      sealer.values p data authResults prior (recordedStatus prior)

/-- The header fields that are put before a message that is sent on. -/
def arcSeal (data : Bytes) : Option (Option Text) :=
  (arcInstance p sealer data).map fun added ↦ added.map Instance.lines

end Epistle.Arc
