import Epistle.Text.Format

/-!
# MTA-STS policies

A domain can publish a policy that says which exchange hosts it has and whether mail may be handed
to them inside verified TLS only. The policy is a text file that is fetched over HTTPS if a TXT
record announces it, and it is kept until its time is over. While it is kept, nothing is looked up:
a policy that is in force stays in force, whatever DNS and the web server then answer.

Points of time are in nanoseconds.
-/

namespace Epistle.MtaSts

open TextFormat

inductive Mode
  | enforce
  | testing
  | none
  deriving DecidableEq, Repr

structure Policy where
  mode : Mode
  /-- Host names, or `*.` and a domain. -/
  mx : List Text
  /-- In seconds. -/
  maxAge : ℕ
  deriving DecidableEq, Repr

def beforeSuffix (suffix t : Text) : Option Text :=
  if suffix.isSuffixOf t then some (t.take (t.length - suffix.length)) else none

/-- Whether a host, in lower case, is one that a pattern describes. A wildcard stands for one
label. -/
def permitsPattern (host pattern : Text) : Bool :=
  if "*.".toList.isPrefixOf pattern then
    ((beforeSuffix (pattern.drop 2) host).bind (beforeSuffix ['.'])).any fun label ↦
      !label.isEmpty && !label.contains '.'
  else host == pattern

def Policy.permitsMx (policy : Policy) (host : Text) : Bool :=
  policy.mx.any (permitsPattern (toAsciiLowercase host))

inductive PolicyError
  | notFound
  | temporary (reason : Text)
  | malformed (reason : Text)
  deriving DecidableEq, Repr

/-! ## The policy file -/

/-- What has been read of a file. -/
structure Draft where
  version : Option Text := none
  mode : Option Mode := none
  maxAge : Option ℕ := none
  mx : List Text := []

def parseMode (value : Text) : Except PolicyError Mode :=
  if value = "enforce".toList then .ok .enforce
  else if value = "testing".toList then .ok .testing
  else if value = "none".toList then .ok .none
  else .error (.malformed ("unknown mode ".toList ++ value))

/-- Read a line. Keys that are not known are passed over. -/
def Draft.readLine (draft : Draft) (raw : Text) : Except PolicyError Draft :=
  let line := trim raw
  if line.isEmpty then .ok draft
  else match splitOnce ':' line with
    | none => .error (.malformed ("bad line \"".toList ++ line ++ ['"']))
    | some (key, rest) =>
      let value := trim rest
      if trim key = "version".toList then .ok { draft with version := some value }
      else if trim key = "mode".toList then do
        let mode ← parseMode value
        return { draft with mode := some mode }
      else if trim key = "max_age".toList then
        match (parseDecimal value).filter (· < 2 ^ 64) with
        | none => .error (.malformed "bad max_age".toList)
        | some maxAge => .ok { draft with maxAge := some maxAge }
      else if trim key = "mx".toList then
        .ok { draft with mx := draft.mx ++ [toAsciiLowercase value] }
      else .ok draft

def parse (text : Text) : Except PolicyError Policy := do
  let draft ← (lines text).foldlM Draft.readLine {}
  if draft.version ≠ some "STSv1".toList then throw (.malformed "version must be STSv1".toList)
  match draft.mode with
  | none => throw (.malformed "missing mode".toList)
  | some mode =>
    if mode ≠ .none ∧ draft.mx = [] then throw (.malformed "missing mx entries".toList)
    match draft.maxAge with
    | none => throw (.malformed "missing max_age".toList)
    | some maxAge => return ⟨mode, draft.mx, maxAge⟩

/-! ## The policy store -/

def second : ℕ := 10 ^ 9

def maxCache : ℕ := 24 * 3600

/-- The policies that are kept, each up to a point of time. A domain may also be known to have
none. -/
abbrev Cache : Type := List (Text × Option Policy × ℕ)

def Cache.insert (cache : Cache) (domain : Text) (policy : Option Policy) (expiry : ℕ) : Cache :=
  (domain, policy, expiry) :: cache.filter fun entry ↦ entry.1 ≠ domain

/-- What is found when a policy is looked for. -/
structure Discovery where
  /-- TXT records, unless the lookup fails for now. -/
  txt : Text → Option (List Text)
  fetch : Text → Except PolicyError Text
  /-- When the kept policies are looked at. -/
  now : ℕ
  /-- When an answer is put there. -/
  later : ℕ

/-- Look for a policy outside. -/
def discover (d : Discovery) (domain : Text) (cache : Cache) :
    Except PolicyError (Option Policy) × Cache :=
  match d.txt ("_mta-sts.".toList ++ domain) with
  | none => (.error (.temporary "TXT lookup failed".toList), cache)
  | some records =>
    if records.any "v=STSv1".toList.isPrefixOf then
      match (d.fetch domain).bind parse with
      | .error error => (.error error, cache)
      | .ok policy =>
        (.ok (some policy),
          cache.insert domain (some policy) (d.later + min policy.maxAge maxCache * second))
    else (.ok none, cache.insert domain none (d.later + 600 * second))

def policy (d : Discovery) (domain : Text) (cache : Cache) :
    Except PolicyError (Option Policy) × Cache :=
  let domain := toAsciiLowercase domain
  match cache.lookup domain with
  | none => discover d domain cache
  | some (policy, expiry) => if d.now < expiry then (.ok policy, cache) else discover d domain cache

example :
    (parse (["version: STSv1\n", "mode: enforce\n", "mx: *.example.org\n", "max_age: 60\n"].flatMap
    String.toList)).toOption.map (·.permitsMx "MX.example.org".toList) = some true := by
  decide

end Epistle.MtaSts
