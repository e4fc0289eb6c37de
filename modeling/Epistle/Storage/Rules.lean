import Epistle.Queue.Client
import Epistle.Smtp.Connection

/-!
# Delivery rules

A rule files mail into a mailbox by the sender's domain or by a header. The first rule that matches
wins; a rule without conditions matches nothing.
-/

namespace Epistle.Storage

open TextFormat

structure Rule where
  senderDomain : Option Text
  header : Option Text
  headerContains : Option Text
  junk : Bool
  mailbox : Option Text

namespace Rule

/-- The value of the header whose line begins with `start`. -/
def findHeader (start : Text) : List Text → Option Text
  | [] => none
  | line :: rest =>
    if start.isPrefixOf (toAsciiLowercase line) then
      some ((rest.takeWhile isFolded).foldl (fun value cont ↦ value ++ ' ' :: trim cont)
        (trim (line.drop start.length)))
    else findHeader start rest

def headerValue (raw : Bytes) (name : Text) : Option Text :=
  (decodeUtf8 (headerBlock raw)).bind fun headers ↦
    findHeader (toAsciiLowercase (name ++ [':'])) (splitCrlf headers)

def «matches» (raw : Bytes) (senderDomain : Option Text) (rule : Rule) : Bool :=
  (rule.senderDomain.all fun want ↦ senderDomain.any fun got ↦ eqIgnoreAsciiCase got want) &&
  (match rule.header, rule.headerContains with
    | some name, some needle => (headerValue raw name).any fun value ↦
        Queue.contains (toAsciiLowercase needle) (toAsciiLowercase value)
    | _, _ => true) &&
  (rule.senderDomain.isSome || rule.header.isSome && rule.headerContains.isSome)

def evaluate (rules : List Rule) (raw : Bytes) (senderDomain : Option Text) : Option Rule :=
  rules.find? fun rule ↦ rule.matches raw senderDomain

end Rule

end Epistle.Storage
