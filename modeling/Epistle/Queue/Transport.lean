import Epistle.Text.Format

/-!
# Outbound transports

A rule says for the mail of an account, or to a domain, or for all mail how it leaves the server.
The most specific rule that matches is taken, the last of them if there are several.
-/

namespace Epistle.Queue

open TextFormat

inductive TransportKind
  | direct
  | relay
  | fail
  deriving DecidableEq, Repr

structure Transport where
  /-- The sender's local part. -/
  account : Option Text
  /-- The recipient's domain. -/
  domain : Option Text
  kind : TransportKind
  host : Option Text
  port : Option ℕ
  /-- A relay is given mail inside TLS only. -/
  starttls : Bool
  username : Option Text
  password : Option Text
  socksProxy : Option Text

namespace Transport

/-- How specifically a rule matches: a sender before a domain before everything. -/
def specificity (senderAccount : Option Text) (recipientDomain : Text) (rule : Transport) :
    Option ℕ :=
  match rule.account, rule.domain with
  | some account, _ =>
    if senderAccount.any fun sender ↦ eqIgnoreAsciiCase sender account then some 2 else none
  | none, some domain => if eqIgnoreAsciiCase recipientDomain domain then some 1 else none
  | none, none => some 0

def better (senderAccount : Option Text) (recipientDomain : Text) (best : Option (ℕ × Transport))
    (rule : Transport) : Option (ℕ × Transport) :=
  match rule.specificity senderAccount recipientDomain with
  | none => best
  | some specificity =>
    if best.all fun other ↦ other.1 ≤ specificity then some (specificity, rule) else best

def select (rules : List Transport) (senderAccount : Option Text) (recipientDomain : Text) :
    Option Transport :=
  (rules.foldl (better senderAccount recipientDomain) none).map Prod.snd

end Transport

end Epistle.Queue
