import Epistle.Storage.Reachable

/-!
# Notices of refusals

When the filter of an account refuses a message, the sender gets a notice. The delivery keeps one
reason only, that of the first account that refuses, and the notice is about all recipients that are
here: those of whose accounts none has refused the message are named as well, and the reason may be
another account's (`keeper_named`). The notice is right exactly if no filter refuses, or every
recipient has an account that does, for the reason of the first one when all of them do
(`named_iff`).
-/

namespace Epistle.Storage

open TextFormat Effects
open Smtp (AcceptedMessage)

namespace LocalDelivery

variable (p : Smtp.Primitives) (sink : LocalDelivery)

def accountsAt (recipient : Text) : List Text := (sink.accountsOf p recipient).toOption.getD []

def refusal (message : AcceptedMessage) (hint : Option Text) (account : Text) : Option Text :=
  (sink.filterOutcome account message hint).bind Sieve.Outcome.reject

variable {p sink}

theorem mem_mapM_accountsOf {recipients : List Text} : ∀ {accounts : List (List Text)},
    recipients.mapM (sink.accountsOf p) = .ok accounts → ∀ {account : Text},
      account ∈ accounts.flatten ↔ ∃ recipient ∈ recipients, account ∈
        sink.accountsAt p recipient := by
  induction recipients with
  | nil =>
    intro accounts h account
    obtain rfl := Except.ok.inj h
    simp
  | cons recipient recipients ih =>
    intro accounts h account
    rw [List.mapM_cons] at h
    cases hfirst : sink.accountsOf p recipient with
    | error error =>
      rw [hfirst] at h
      cases h
    | ok first =>
      rw [hfirst] at h
      cases hrest : recipients.mapM (sink.accountsOf p) with
      | error error =>
        rw [hrest] at h
        cases h
      | ok rest =>
        rw [hrest] at h
        obtain rfl := Except.ok.inj h
        have hat : sink.accountsAt p recipient = first := by rw [accountsAt, hfirst]; rfl
        rw [List.flatten_cons, List.mem_append, ih hrest]
        simp [hat]

theorem mem_routedTo {message : AcceptedMessage} {mailbox : Option Text} {accounts : List Text}
    (h : sink.routedTo p message mailbox = .ok accounts) {account : Text} :
    account ∈ accounts ↔ ∃ recipient ∈ message.recipients, account ∈
      sink.accountsAt p recipient := by
  obtain ⟨-, hfor, -⟩ := routedTo_eq_ok.1 h
  unfold accountsFor at hfor
  cases hmap : message.recipients.mapM (sink.accountsOf p) with
  | error error =>
    rw [hmap] at hfor
    cases hfor
  | ok lists =>
    rw [hmap] at hfor
    rw [← Except.ok.inj hfor, List.mem_insertionSort, List.mem_dedup, mem_mapM_accountsOf hmap]

theorem reject_remainder (account : Text) (message : AcceptedMessage) (hint : Option Text) :
    (sink.remainder account message hint).reject =
      if message.reversePath.isEmpty then none else sink.refusal message hint account := by
  unfold remainder refusal filterOutcome
  cases hint with
  | some mailbox => cases message.reversePath.isEmpty <;> rfl
  | none =>
    cases sink.sieveOutcome account message with
    | none => cases message.reversePath.isEmpty <;> rfl
    | some outcome =>
      cases hreject : outcome.reject with
      | none | some reason => simp [hreject]

/-- Of the accounts that refuse, the first one's reason is kept. -/
theorem reject_allRemainders (accounts : List Text) (message : AcceptedMessage)
    (hint : Option Text) : (sink.allRemainders accounts message hint).reject =
      if message.reversePath.isEmpty then none
      else accounts.findSome? (sink.refusal message hint) := by
  have hfold : ∀ delivered : Delivered,
      (accounts.foldl (fun delivered account ↦
        delivered.extend (sink.remainder account message hint)) delivered).reject =
      delivered.reject.or (if message.reversePath.isEmpty then none
        else accounts.findSome? (sink.refusal message hint)) := by
    induction accounts with
    | nil => cases message.reversePath.isEmpty <;> simp
    | cons account accounts ih =>
      intro delivered
      rw [List.foldl_cons, ih, Delivered.extend, reject_remainder, Option.or_assoc]
      cases message.reversePath.isEmpty with
      | true => rfl
      | false =>
        simp only [Bool.false_eq_true, if_false, List.findSome?_cons]
        cases sink.refusal message hint account <;> rfl
  exact (hfold .default).trans (Option.none_or ..)

end LocalDelivery

namespace SplitDelivery

variable (p : Smtp.Primitives) (sink : SplitDelivery) (now : ℕ)

def listedHere (message : AcceptedMessage) (recipients : List Text) : AcceptedMessage :=
  sink.here.listed p { message with recipients }

def refusalHere (message : AcceptedMessage) (recipients : List Text) (account : Text) :
    Option Text :=
  sink.here.refusal (sink.listedHere p message recipients) (sink.hintFor message) account

def notice (message : AcceptedMessage) (recipients accounts : List Text) :
    Option (List Text × Text) :=
  let named := recipients.filter fun recipient ↦ !message.noDsn.contains recipient
  if message.reversePath.isEmpty || named.isEmpty then none
  else (accounts.findSome? (sink.refusalHere p message recipients)).map fun reason ↦ (named, reason)

def noticeHost (recipients : List Text) : Text :=
  ((recipients.head?.bind (rsplitOnce '@')).map Prod.snd).getD "localhost".toList

theorem reversePath_listed (message : AcceptedMessage) :
    (sink.here.listed p message).reversePath = message.reversePath := by
  unfold LocalDelivery.listed
  cases h : sink.here.listMessage p message with
  | none => rfl
  | some listed =>
    obtain ⟨headers, -, rfl⟩ := Option.map_eq_some_iff.1 h
    rfl

variable {p sink now}

variable {accounts recipients : List Text} {message : AcceptedMessage}

/-- What is spooled as a bounce is the report about the notice. -/
theorem bounce_mem_iff {bounce : AcceptedMessage} (split : Split) :
    Write.spool .bounce bounce ∈ sink.hereWrites p now message recipients accounts ++
        (if (sink.forwardData p message.data).isSome then sink.awayWrites message split else []) ↔
      ∃ about ∈ sink.notice p message recipients accounts,
        Queue.build p (noticeHost recipients) message.reversePath about.1 about.2 message.data now =
          some bounce := by
  have haway : Write.spool .bounce bounce ∉
      if (sink.forwardData p message.data).isSome then sink.awayWrites message split else [] := by
    unfold awayWrites
    cases split.remote.isEmpty <;> split <;> simp
  have hlater : ∀ delivered : Delivered, Write.spool .bounce bounce ∉
      (sink.forwardData p message.data).elim [] fun data ↦ delivered.redirects.map (fun address ↦
        .spool .redirect (sink.forwarded p now message data address)) ++
      delivered.replies.map (.spool .reply) := by
    intro delivered
    cases sink.forwardData p message.data <;> simp
  have hcopies : ∀ listed hint, Write.spool .bounce bounce ∉
    sink.here.allCopies accounts listed hint := by
    intro listed hint hmem
    obtain ⟨account, -, hcopy⟩ := List.mem_flatMap.1 hmem
    cases sink.here.account_of_mem_copies hcopy
  have hreject : (sink.here.allRemainders accounts (sink.here.listed p { message with recipients })
      (sink.hintFor message)).reject = if message.reversePath.isEmpty then none
        else accounts.findSome? (sink.refusalHere p message recipients) := by
    rw [LocalDelivery.reject_allRemainders, reversePath_listed]
    rfl
  simp only [hereWrites, deliveredWrites, List.mem_append, haway, hcopies, hlater,
    List.mem_map, or_false,
    false_or, Write.spool.injEq, true_and, exists_eq_right, Option.mem_toList,
    Option.mem_def, hreject]
  unfold notice rejection noticeHost
  generalize accounts.findSome? (sink.refusalHere p message recipients) = found
  generalize (recipients.filter fun recipient ↦ !message.noDsn.contains recipient) = named
  cases message.reversePath.isEmpty with
  | true => simp
  | false =>
    cases named.isEmpty with
    | true | false => cases found <;> simp

variable (p sink now)

/-- A notice is right: whom it names has an account that has refused the message; and a recipient
all of whose accounts have refused it, and who has not asked for no reports, is named with the
reason of one of them. -/
def Named (message : AcceptedMessage) (recipients accounts : List Text) : Prop :=
  (∀ about ∈ sink.notice p message recipients accounts, ∀ recipient ∈ about.1,
    ∃ account ∈ sink.here.accountsAt p recipient,
      (sink.refusalHere p message recipients account).isSome = true) ∧
  ∀ recipient ∈ recipients, recipient ∉ message.noDsn → sink.here.accountsAt p recipient ≠ [] →
    (∀ account ∈ sink.here.accountsAt p recipient,
      (sink.refusalHere p message recipients account).isSome = true) →
    ∃ about ∈ sink.notice p message recipients accounts, recipient ∈ about.1 ∧
      ∃ account ∈ sink.here.accountsAt p recipient,
        ∃ reason ∈ sink.refusalHere p message recipients account,
          Queue.sanitizeReason reason = Queue.sanitizeReason about.2

/-- No filter of an account refuses the message; or there is a sender, every recipient who has not
asked for no reports has an account whose filter refuses, and if all of them do, one has the words
of the first account that does. -/
def Agreed (message : AcceptedMessage) (recipients accounts : List Text) : Prop :=
  ∀ first ∈ accounts.findSome? (sink.refusalHere p message recipients),
    ∀ recipient ∈ recipients, recipient ∉ message.noDsn →
      (message.reversePath ≠ [] → ∃ account ∈ sink.here.accountsAt p recipient,
        (sink.refusalHere p message recipients account).isSome = true) ∧
      (sink.here.accountsAt p recipient ≠ [] → (∀ account ∈ sink.here.accountsAt p recipient,
        (sink.refusalHere p message recipients account).isSome = true) →
        message.reversePath ≠ [] ∧ ∃ account ∈ sink.here.accountsAt p recipient,
          ∃ reason ∈ sink.refusalHere p message recipients account,
            Queue.sanitizeReason reason = Queue.sanitizeReason first)

variable {p sink now}

theorem mem_notice {about : List Text × Text} :
    about ∈ sink.notice p message recipients accounts ↔ message.reversePath ≠ [] ∧
      about.1 = recipients.filter (fun recipient ↦ !message.noDsn.contains recipient) ∧
        about.1 ≠ [] ∧
      accounts.findSome? (sink.refusalHere p message recipients) = some about.2 := by
  unfold notice
  dsimp only
  generalize accounts.findSome? (sink.refusalHere p message recipients) = found
  generalize (recipients.filter fun recipient ↦ !message.noDsn.contains recipient) = named
  rw [Option.mem_def]
  split
  · rename_i hempty
    constructor
    · intro h
      cases h
    · rintro ⟨hsender, rfl, hne, -⟩
      exact absurd hempty (by simp [hsender, hne])
  · rename_i hempty
    rw [Bool.or_eq_true, List.isEmpty_iff, List.isEmpty_iff, not_or] at hempty
    rw [Option.map_eq_some_iff]
    constructor
    · rintro ⟨reason, rfl, rfl⟩
      exact ⟨hempty.1, rfl, hempty.2, rfl⟩
    · rintro ⟨-, hnamed, -, rfl⟩
      exact ⟨about.2, rfl, by rw [← hnamed]⟩

/-- **A notice of a refusal is right** exactly if the recipients agree about it. -/
theorem named_iff {message : Smtp.AcceptedMessage} {split : Split} {accounts : List Text}
    (hsplit : sink.split p now message.recipients = .ok split) (hhere : split.here ≠ [])
    (haccounts : sink.here.routedTo p { message with recipients := split.here }
      (sink.hintFor message) =
      .ok accounts) :
    (∃ ws, sink.deliver p now message = ⟨ws, sink.sealing p message⟩ ∧
      ∀ bounce, Write.spool .bounce bounce ∈ ws ↔
      ∃ about ∈ sink.notice p message split.here accounts,
        Queue.build p (noticeHost split.here) message.reversePath about.1 about.2 message.data now =
          some bounce) ∧
    (sink.Named p message split.here accounts ↔ sink.Agreed p message split.here accounts) := by
  constructor
  · refine ⟨_, ?_, fun _ ↦ bounce_mem_iff split⟩
    rw [deliver_eq, writesFor, hsplit]
    dsimp only
    rw [if_neg (by simpa using hhere), haccounts]
  · have hnamed : ∀ {recipient : Text}, recipient ∈ split.here.filter (fun recipient ↦
        !message.noDsn.contains recipient) ↔ recipient ∈ split.here ∧
          recipient ∉ message.noDsn := by
      simp
    constructor
    · rintro ⟨hlisted, hall⟩ first hfirst recipient hmem hdsn
      refine ⟨fun hsender ↦ ?_, fun hne hrefuse ↦ ?_⟩
      · have hin := hnamed.2 ⟨hmem, hdsn⟩
        exact hlisted (_, first)
          (mem_notice.2 ⟨hsender, rfl, List.ne_nil_of_mem hin, hfirst⟩) recipient hin
      · obtain ⟨about, habout, -, hreason⟩ := hall recipient hmem hdsn hne hrefuse
        obtain ⟨hsender, -, -, hfound⟩ := mem_notice.1 habout
        rw [Option.some.inj (hfirst.symm.trans hfound)]
        exact ⟨hsender, hreason⟩
    · intro hagreed
      refine ⟨fun about habout recipient hin ↦ ?_, fun recipient hmem hdsn hne hrefuse ↦ ?_⟩
      · obtain ⟨hsender, heq, -, hfound⟩ := mem_notice.1 habout
        rw [heq] at hin
        obtain ⟨hmem, hdsn⟩ := hnamed.1 hin
        exact (hagreed _ hfound recipient hmem hdsn).1 hsender
      · -- an account of the recipient refuses, so there is a first one that does
        obtain ⟨account, haccount⟩ := List.exists_mem_of_ne_nil _ hne
        have hsome : (accounts.findSome? (sink.refusalHere p message split.here)).isSome =
          true := by
          rw [List.findSome?_isSome_iff]
          exact ⟨account, (LocalDelivery.mem_routedTo haccounts).2 ⟨recipient, hmem, haccount⟩,
            hrefuse account haccount⟩
        obtain ⟨first, hfirst⟩ := Option.isSome_iff_exists.1 hsome
        obtain ⟨hsender, hreason⟩ := (hagreed first hfirst recipient hmem hdsn).2 hne hrefuse
        have hin := hnamed.2 ⟨hmem, hdsn⟩
        exact ⟨(_, first), mem_notice.2 ⟨hsender, rfl, List.ne_nil_of_mem hin, hfirst⟩,
          hin, hreason⟩

end SplitDelivery

def refusing : SplitDelivery := { twoAccounts with
  here := { twoAccounts.here with
    sieveOutcome := fun account _ ↦
      if account = "u".toList then some ⟨false, [], [], [], some "no".toList, none⟩ else none } }

/-- Both accounts refuse, in the same words. -/
def refusingBoth : SplitDelivery := { twoAccounts with
  here := { twoAccounts.here with
    sieveOutcome := fun _ _ ↦ some ⟨false, [], [], [], some "no".toList, none⟩ } }

theorem named_toBoth :
    refusingBoth.Named .plain toBoth toBoth.recipients ["u".toList, "v".toList] := by
  refine (SplitDelivery.named_iff (show refusingBoth.split .plain 0 toBoth.recipients =
    .ok ⟨toBoth.recipients, [], []⟩ from rfl) (by simp [toBoth]) (by decide)).2.2 ?_
  intro first hfirst recipient hmem _
  obtain rfl : "no".toList = first := Option.some.inj
    ((show ["u".toList, "v".toList].findSome?
      (refusingBoth.refusalHere .plain toBoth toBoth.recipients) = some "no".toList by
        decide).symm.trans hfirst)
  have haccount : ∃ account ∈ refusingBoth.here.accountsAt .plain recipient,
      refusingBoth.refusalHere .plain toBoth toBoth.recipients account = some "no".toList := by
    revert recipient
    decide
  obtain ⟨account, hin, hrefuse⟩ := haccount
  exact ⟨fun _ ↦ ⟨account, hin, by rw [hrefuse]; rfl⟩,
    fun _ _ ↦ ⟨by decide, account, hin, _, hrefuse, rfl⟩⟩

/-- An account has kept the message, and the notice names its recipient. -/
theorem keeper_named :
    refusing.split .plain 0 toBoth.recipients = .ok ⟨toBoth.recipients, [], []⟩ ∧
      refusing.here.routedTo .plain toBoth none = .ok ["u".toList, "v".toList] ∧
      Write.copy "v".toList none [] [] ∈ (refusing.deliver .plain 0 toBoth).writes ∧
      refusing.notice .plain toBoth toBoth.recipients ["u".toList, "v".toList] =
        some (["u@b.net".toList, "v@b.net".toList], "no".toList) ∧
      ¬refusing.Named .plain toBoth toBoth.recipients ["u".toList, "v".toList] := by
  have hnotice : refusing.notice .plain toBoth toBoth.recipients ["u".toList, "v".toList] =
      some (["u@b.net".toList, "v@b.net".toList], "no".toList) := by
    decide
  refine ⟨rfl, by decide, by decide, hnotice, fun h ↦ ?_⟩
  obtain ⟨account, haccount, hrefuse⟩ := h.1 _ hnotice "v@b.net".toList (by decide)
  have hat : refusing.here.accountsAt .plain "v@b.net".toList = ["v".toList] := by decide
  rw [hat, List.mem_singleton] at haccount
  rw [haccount] at hrefuse
  exact absurd hrefuse (by decide)

end Epistle.Storage
