import Epistle.Smtp.Connection
import Epistle.Text.Clock

/-!
# Delivery reports

A report tells the sender that delivery has failed, or that it takes longer. It has a part for
people and a part for programs, with one block for each recipient. Reports have no sender, and a
message without a sender gets none, so reports do not loop.
-/

namespace Epistle.Queue

open TextFormat

inductive Kind
  | failed
  | delayed
  deriving DecidableEq, Repr

/-- The remote's words without control characters, and not too many of them. -/
def sanitizeReason (reason : Text) : Text :=
  (reason.map fun c ↦ if isControl c then ' ' else c).take 512

/-- Three numbers with dots between. -/
def isEnhancedCode (token : Text) : Bool :=
  let parts := token.splitOn '.'
  parts.length == 3 && parts.all fun part ↦ !part.isEmpty && part.all Char.isDigit

def enhancedStatus (reason default : Text) : Text :=
  (((reason.splitOnP isWhitespace).filter (· ≠ [])).find? isEnhancedCode).getD default

/-- The headers of the original message, up to a size. -/
def originalHeaderBlock (p : Smtp.Primitives) (data : Bytes) : Text :=
  p.fromUtf8Lossy ((headerBlock data).take 4096)

structure Wording where
  subject : String
  action : String
  defaultStatus : String
  intro : String
  reasonLabel : String
  closing : String

def Kind.wording : Kind → Wording
  | failed => ⟨"Undelivered Mail Returned to Sender", "failed", "5.0.0",
      "Your message could not be delivered to the following recipients:", "Reason:",
      "The message will not be retried."⟩
  | delayed => ⟨"Delivery Status Notification (Delay)", "delayed", "4.0.0",
      "Your message is taking longer than expected to deliver to:", "Reason for the delay:",
      "No action is required: delivery will keep being retried."⟩

def reportLine (parts : List Text) : Text := parts.flatten ++ "\r\n".toList

def recipientBlock (action status reason recipient : Text) : Text :=
  reportLine ["Final-Recipient: rfc822; ".toList, recipient] ++
    reportLine ["Action: ".toList, action] ++
    reportLine ["Status: ".toList, status] ++
    reportLine ["Diagnostic-Code: smtp; ".toList, reason] ++ reportLine []

/-- The part of a report before the blocks of the recipients. -/
def reportHead (wording : Wording) (hostname reversePath : Text) (recipients : List Text)
    (reason boundary : Text) (now : ℕ) : Text :=
  ([["From: Mail Delivery System <MAILER-DAEMON@".toList, hostname, ">".toList],
    ["To: <".toList, reversePath, ">".toList],
    ["Subject: ".toList, wording.subject.toList],
    ["Date: ".toList, rfc5322 now],
    ["Auto-Submitted: auto-replied".toList],
    ["MIME-Version: 1.0".toList],
    ["Content-Type: multipart/report; report-type=delivery-status;".toList],
    ["\tboundary=\"".toList, boundary, "\"".toList],
    [],
    ["--".toList, boundary],
    ["Content-Type: text/plain; charset=us-ascii".toList],
    [],
    ["This is the mail system at host ".toList, hostname, ".".toList],
    [],
    [wording.intro.toList],
    []] : List (List Text)).flatMap reportLine ++
  recipients.flatMap (fun recipient ↦ reportLine ["   ".toList, recipient]) ++
  ([[],
    [wording.reasonLabel.toList],
    [reason],
    [],
    [wording.closing.toList],
    [],
    ["--".toList, boundary],
    ["Content-Type: message/delivery-status".toList],
    [],
    ["Reporting-MTA: dns; ".toList, hostname],
    []] : List (List Text)).flatMap reportLine

/-- The part of a report after the blocks of the recipients. -/
def reportTail (boundary originalHeaders : Text) : Text :=
  ([["--".toList, boundary],
    ["Content-Type: message/rfc822-headers".toList],
    [],
    [originalHeaders],
    ["--".toList, boundary, "--".toList]] : List (List Text)).flatMap reportLine

/-- Build a report. A message without a sender gets none. -/
def buildReport (p : Smtp.Primitives) (kind : Kind) (hostname originalReversePath : Text)
    (recipients : List Text) (reason : Text) (originalData : Bytes) (now : ℕ) :
    Option Smtp.AcceptedMessage :=
  if originalReversePath.isEmpty then none
  else
    let reason := sanitizeReason reason
    let boundary := "=_dsn_".toList ++ decimal now
    let wording := kind.wording
    let status := enhancedStatus reason wording.defaultStatus.toList
    let body := reportHead wording hostname originalReversePath recipients reason boundary now ++
      recipients.flatMap (recipientBlock wording.action.toList status reason) ++
      reportTail boundary (originalHeaderBlock p originalData)
    some ⟨[], [originalReversePath], encodeUtf8 body, false, none, []⟩

def build (p : Smtp.Primitives) (hostname originalReversePath : Text) (failedRecipients : List Text)
    (reason : Text) (originalData : Bytes) (now : ℕ) : Option Smtp.AcceptedMessage :=
  buildReport p .failed hostname originalReversePath failedRecipients reason originalData now

def buildDelayWarning (p : Smtp.Primitives) (hostname originalReversePath : Text)
    (recipients : List Text) (reason : Text) (originalData : Bytes) (now : ℕ) :
    Option Smtp.AcceptedMessage :=
  buildReport p .delayed hostname originalReversePath recipients reason originalData now

/-- A report has a line about the recipient. -/
def Names (message : Smtp.AcceptedMessage) (recipient : Text) : Prop :=
  encodeUtf8 ("Final-Recipient: rfc822; ".toList ++ recipient ++ "\r\n".toList) <:+: message.data

theorem encodeUtf8_append (t u : Text) : encodeUtf8 (t ++ u) = encodeUtf8 t ++ encodeUtf8 u :=
  List.flatMap_append

theorem encodeUtf8_infix {t u : Text} (h : t <:+: u) : encodeUtf8 t <:+: encodeUtf8 u := by
  obtain ⟨before, after, rfl⟩ := h
  rw [encodeUtf8_append, encodeUtf8_append]
  exact List.infix_append _ _ _

variable {recipient hostname reason reversePath : Text} {recipients : List Text} {data : Bytes}
  {kind : Kind} {now : ℕ} {p : Smtp.Primitives}

theorem infix_flatMap {f : Text → Text}
    (hmem : recipient ∈ recipients) : f recipient <:+: recipients.flatMap f := by
  obtain ⟨before, after, rfl⟩ := List.append_of_mem hmem
  rw [List.flatMap_append, List.flatMap_cons, ← List.append_assoc]
  exact List.infix_append _ _ _

theorem names_of_buildReport {message : Smtp.AcceptedMessage}
    (h : buildReport p kind hostname reversePath recipients reason data now = some message)
    (hmem : recipient ∈ recipients) : Names message recipient := by
  unfold buildReport at h
  split at h
  · exact absurd h nofun
  · rw [← Option.some.inj h]
    refine encodeUtf8_infix (List.IsInfix.trans ?_ (List.infix_append _ _ _))
    refine List.IsInfix.trans ?_ (infix_flatMap hmem)
    have hline : reportLine ["Final-Recipient: rfc822; ".toList, recipient] =
        "Final-Recipient: rfc822; ".toList ++ recipient ++ "\r\n".toList := by
      rw [reportLine, List.flatten_cons, List.flatten_singleton]
    rw [← hline, recipientBlock, List.append_assoc, List.append_assoc, List.append_assoc]
    exact (List.prefix_append _ _).isInfix

theorem buildReport_isSome (h : reversePath ≠ []) :
    ∃ message, buildReport p kind hostname reversePath recipients reason data now =
      some message := by
  unfold buildReport
  rw [if_neg (by simpa using h)]
  exact ⟨_, rfl⟩

end Epistle.Queue
