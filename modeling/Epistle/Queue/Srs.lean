import Epistle.Smtp.Connection

/-!
# The sender rewriting scheme

Mail that is sent on keeps its sender's address in the local part of an address of ours, together
with a day and a hash that only we can make. A report that comes back to such an address is sent on
to the original sender, if the hash is right and the day is not too long ago.
-/

namespace Epistle.Queue

open TextFormat

structure Srs where
  key : Bytes

namespace Srs

def base32 : Text := "ABCDEFGHIJKLMNOPQRSTUVWXYZ234567".toList

/-- Days are counted modulo this. -/
def tsModulus : ℕ := 1024

/-- Two base32 characters for a day. -/
def encodeTimestamp (days : ℕ) : Text :=
  let value := days % tsModulus
  [base32.getD (value / 32 % 32) 'A', base32.getD (value % 32) 'A']

def base32Value (c : Char) : Option ℕ := base32.idxOf? c.toUpper

/-- The day that two base32 characters denote. -/
def decodeTimestamp (ts : Text) : Option ℕ :=
  match ts with
  | [hi, lo] => do
    let hi ← base32Value hi
    let lo ← base32Value lo
    pure (hi * 32 + lo)
  | _ => none

/-- How many days ago a day was. -/
def timestampAge (stamp nowDays : ℕ) : ℕ := (nowDays % tsModulus + tsModulus - stamp) % tsModulus

def hash (p : Smtp.Primitives) (srs : Srs) (ts domain localPart : Text) : Text :=
  let data := toAsciiLowercase (ts ++ '=' :: domain ++ '=' :: localPart)
  (p.base64Encode (p.hmacSha256 srs.key (encodeUtf8 data))).take 4

def forward (p : Smtp.Primitives) (srs : Srs) (localPart domain ourDomain : Text) (nowDays : ℕ) :
    Text :=
  let ts := encodeTimestamp nowDays
  "SRS0=".toList ++ srs.hash p ts domain localPart ++ '=' :: ts ++ '=' :: domain ++
    '=' :: localPart ++
    '@' :: ourDomain

/-- The text after `SRS0=`, in any case, if it begins so. The program panics, which is `none` here,
if the fifth byte is in the middle of a character. -/
def stripMark (text : Text) : Option (Option Text) :=
  if utf8Len text < 5 then some none
  else (Smtp.sliceTo 5 text).map fun start ↦
    if eqIgnoreAsciiCase start "SRS0=".toList then some (text.drop start.length) else none

/-- The hash, the day, the domain and the local part in a rewritten address. -/
def fields (rest : Text) : Option (Text × Text × Text × Text) := do
  let (hash, rest) ← splitOnce '=' rest
  let (ts, rest) ← splitOnce '=' rest
  let (domain, localPart) ← splitOnce '=' rest
  if domain.isEmpty || localPart.isEmpty then none else pure (hash, ts, domain, localPart)

/-- The address that was rewritten, unless the program panics. -/
def reverse (p : Smtp.Primitives) (srs : Srs) (srsLocal : Text) (nowDays maxAgeDays : ℕ) :
    Option (Option (Text × Text)) :=
  (stripMark srsLocal).map fun rest ↦ do
    let (hash, ts, domain, localPart) ← fields (← rest)
    if srs.hash p ts domain localPart ≠ hash then none
    else
      let stamp ← decodeTimestamp ts
      if timestampAge stamp nowDays > maxAgeDays then none else pure (localPart, domain)

end Srs

end Epistle.Queue
