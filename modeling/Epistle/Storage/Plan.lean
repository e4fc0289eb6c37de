import Epistle.Storage.Routing

/-!
# What a delivery writes

The writes of a delivery depend on the message, the directory and the filters only; a write that
fails cuts them off, and so does a panic. Here they are listed: the copies for an account, the
copies for all accounts, and what is spooled.

A delivery that fails after it has created something has left that behind, and the client, who is
told to try again, will cause a copy to be written a second time (`secondCopy_left_behind`).
-/

namespace Epistle.Storage

open TextFormat Effects
open Smtp (AcceptedMessage)

namespace LocalDelivery

variable (p : Smtp.Primitives) (sink : LocalDelivery)
variable (account : Text) (message : AcceptedMessage) (mailbox : Option Text)

/-- A copy, after the directory it goes to. -/
def copyTo (data : Bytes) (flags : List Text) :
    List Write :=
  [.directory account mailbox, .copy account mailbox data flags]

/-- The copies that a filter asks for. -/
def outcomeCopies (data : Bytes) (outcome : Sieve.Outcome) : List Write :=
  (if outcome.keep then copyTo account none data outcome.flags else []) ++
    outcome.fileinto.flatMap fun folder ↦
      if isSafeMailbox folder then copyTo account (some folder) data outcome.flags else []

def copies (hint : Option Text) : List Write :=
  match hint, sink.sieveOutcome account message with
  | some mailbox, _ => copyTo account (some mailbox) message.data []
  | none, none =>
    if (sink.accountForwards account message).2 || (sink.accountForwards account message).1.isEmpty
    then copyTo account none message.data [] else []
  | none, some outcome =>
    if outcome.reject.isSome then [] else outcomeCopies account message.data outcome

/-- What the delivery to an account leaves for the caller to do. -/
def remainder (hint : Option Text) : Delivered :=
  match hint, sink.sieveOutcome account message with
  | some _, _ => .default
  | none, none => { Delivered.default with redirects := (sink.accountForwards account message).1 }
  | none, some outcome =>
    match outcome.reject with
    | some reason => { Delivered.default with
        reject := if message.reversePath.isEmpty then none else some reason }
    | none =>
      ⟨(if message.reversePath.isEmpty then [] else outcome.redirects) ++
        (sink.accountForwards account message).1, none,
        (outcome.vacation.bind (sink.vacationReply account message)).toList⟩

theorem copy_mem_outcomeCopies {account owner : Text} {mailbox : Option Text} {data data' : Bytes}
    {flags : List Text} {outcome : Sieve.Outcome} :
    Write.copy owner mailbox data' flags ∈ outcomeCopies account data outcome ↔
      (outcome.keep = true ∧ Write.copy owner mailbox data' flags =
        .copy account none data outcome.flags) ∨
      ∃ folder ∈ outcome.fileinto, isSafeMailbox folder = true ∧
        Write.copy owner mailbox data' flags = .copy account (some folder) data outcome.flags := by
  rw [outcomeCopies, List.mem_append, List.mem_flatMap]
  refine or_congr ?_ (exists_congr fun folder ↦ and_congr Iff.rfl ?_) <;>
  · split <;> simp [*, copyTo]

theorem account_of_mem_copies {account : Text} {message : AcceptedMessage} {hint : Option Text}
    {w : Write} (h : w ∈ sink.copies account message hint) : w.account = some account := by
  have hcopy : ∀ {mailbox data flags}, w ∈ copyTo account mailbox data flags →
      w.account = some account := by
    intro mailbox data flags h
    rw [copyTo, List.mem_pair] at h
    rcases h with rfl | rfl <;> rfl
  unfold copies at h
  split at h
  · exact hcopy h
  · split at h
    · exact hcopy h
    · exact absurd h nofun
  · split at h
    · exact absurd h nofun
    · rw [outcomeCopies, List.mem_append, List.mem_flatMap] at h
      rcases h with h | ⟨folder, -, h⟩ <;>
      · split at h
        · exact hcopy h
        · exact absurd h nofun

theorem fileOutcome_eq (forwards : List Text)
    (outcome : Sieve.Outcome) :
    sink.fileOutcome account message forwards outcome =
      ⟨outcomeCopies account message.data outcome,
        .ok ⟨(if message.reversePath.isEmpty then [] else outcome.redirects) ++ forwards, none,
          (outcome.vacation.bind (sink.vacationReply account message)).toList⟩⟩ := by
  have hfolder : ∀ folder, (if isSafeMailbox folder then
      deliverToAccount account (some folder) message.data outcome.flags
      else (pure () : Delivery Unit)) = ⟨if isSafeMailbox folder then
        copyTo account (some folder) message.data outcome.flags else [], .ok ()⟩ := by
    intro folder
    split <;> rfl
  unfold fileOutcome outcomeCopies
  rw [Filing.forM_eq hfolder]
  cases outcome.keep with
  | true => simp [Filing.bind_ok, deliverToAccount, Filing.write, pure, copyTo]
  | false => simp [Filing.bind_ok, pure]

/-- The delivery to an account writes its copies and does not fail by itself. -/
theorem deliverForAccount_eq (hint : Option Text) :
    sink.deliverForAccount account message hint =
      ⟨sink.copies account message hint, .ok (sink.remainder account message hint)⟩ := by
  unfold deliverForAccount copies remainder
  cases hint with
  | some mailbox => rfl
  | none =>
    cases houtcome : sink.sieveOutcome account message with
    | none =>
      dsimp only
      split <;> rfl
    | some outcome =>
      dsimp only
      cases hreject : outcome.reject with
      | some reason => rfl
      | none => exact sink.fileOutcome_eq account message _ outcome

def allCopies (accounts : List Text) (message : AcceptedMessage) (mailbox : Option Text) :
    List Write :=
  accounts.flatMap fun account ↦ sink.copies account message mailbox

/-- What the delivery to accounts leaves for the caller to do. -/
def allRemainders (accounts : List Text) (message : AcceptedMessage) (mailbox : Option Text) :
    Delivered :=
  accounts.foldl (fun delivered account ↦
    delivered.extend (sink.remainder account message mailbox)) .default

/-- The accounts that a message is delivered to, unless the delivery is refused at once. -/
def routedTo : Except SinkError (List Text) :=
  match mailbox.filter fun name ↦ !isSafeMailbox name with
  | some name => .error (.unsafeMailbox name)
  | none =>
    match sink.accountsFor p message with
    | .error error => .error error
    | .ok accounts => if accounts.isEmpty then .error .noAccounts else .ok accounts

theorem routedTo_eq_ok {p : Smtp.Primitives} {sink : LocalDelivery} {message : AcceptedMessage}
    {mailbox : Option Text} {accounts : List Text} :
    sink.routedTo p message mailbox = .ok accounts ↔
      (∀ name ∈ mailbox, isSafeMailbox name = true) ∧ sink.accountsFor p message = .ok accounts ∧
        accounts ≠ [] := by
  unfold routedTo
  split
  · grind [Option.filter_eq_some_iff]
  · grind [Option.filter_eq_none_iff, Option.mem_def]

def listed : AcceptedMessage :=
  (sink.listMessage p message).getD message

/-- A delivery is refused at once, or it writes the copies of the accounts. -/
theorem deliverRouted_eq :
    sink.deliverRouted p message mailbox =
      match sink.routedTo p message mailbox with
      | .error error => .fail error
      | .ok accounts => ⟨sink.allCopies accounts (sink.listed p message) mailbox,
          .ok (sink.allRemainders accounts (sink.listed p message) mailbox)⟩ := by
  unfold deliverRouted routedTo
  cases mailbox.filter fun name ↦ !isSafeMailbox name with
  | some name => rfl
  | none =>
    cases sink.accountsFor p message with
    | error error => rfl
    | ok accounts =>
      dsimp only
      split
      · rfl
      · refine Filing.foldlM_eq (fun delivered account ↦ ?_) accounts _
        rw [deliverForAccount_eq, Filing.bind_ok rfl]
        simp [listed, pure]

end LocalDelivery

namespace SplitDelivery

variable (p : Smtp.Primitives) (sink : SplitDelivery) (now : ℕ)
variable (message : AcceptedMessage)

/-- The mailbox that a message is filed to, if it is not left to the filters. -/
def hintFor : Option Text :=
  message.mailbox.or (sink.targetMailbox message)

/-- What is spooled when a local delivery has been made. -/
def deliveredWrites (localMessage : AcceptedMessage) (delivered : Delivered) :
    List Write :=
  (delivered.reject.bind (rejection p now message localMessage)).toList.map (.spool .bounce) ++
    (sink.forwardData p message.data).elim [] fun data ↦ delivered.redirects.map (fun address ↦
      .spool .redirect (sink.forwarded p now message data address)) ++
    delivered.replies.map (.spool .reply)

/-- How a delivery goes on once the copies are made and a refusal is reported. -/
def sealing : Except SinkError Unit :=
  if (sink.forwardData p message.data).isSome then .ok () else .error .panicked

def hereWrites (recipients accounts : List Text) : List Write :=
  let localMessage := { message with recipients }
  let listed := sink.here.listed p localMessage
  sink.here.allCopies accounts listed (sink.hintFor message) ++
    sink.deliveredWrites p now message localMessage
      (sink.here.allRemainders accounts listed (sink.hintFor message))

/-- What is spooled for the recipients that are not here. -/
def awayWrites (split : Split) : List Write :=
  split.srsReturns.map (fun original ↦ .spool .srsReturn (returned message original)) ++
    if split.remote.isEmpty then [] else [.spool .relay (sink.outbound message split.remote)]

/-- What a message calls for to be written, unless it is refused at once, and how that ends. -/
def writesFor : Except SinkError (List Write × Except SinkError Unit) :=
  match sink.split p now message.recipients with
  | .error error => .error error
  | .ok split =>
    if split.here.isEmpty then .ok (sink.awayWrites message split, .ok ())
    else
      match sink.here.routedTo p { message with recipients := split.here }
        (sink.hintFor message) with
      | .error error => .error error
      | .ok accounts =>
        .ok (sink.hereWrites p now message split.here accounts ++
          (if (sink.forwardData p message.data).isSome then sink.awayWrites message split else []),
          sink.sealing p message)

theorem spool_eq (purpose : Purpose) (message : AcceptedMessage) :
    spool purpose message = ⟨[.spool purpose message], .ok ()⟩ := rfl

theorem forM_spool {γ : Type} (purpose : Purpose) (f : γ → AcceptedMessage) (l : List γ) :
    l.forM (fun c ↦ spool purpose (f c)) = ⟨l.map fun c ↦ .spool purpose (f c), .ok ()⟩ := by
  rw [Filing.forM_eq (fun c ↦ spool_eq purpose (f c)), ← List.map_eq_flatMap]

theorem spoolDelivered_eq (localMessage : AcceptedMessage) (delivered : Delivered) :
    sink.spoolDelivered p now message localMessage delivered =
      ⟨sink.deliveredWrites p now message localMessage delivered, sink.sealing p message⟩ := by
  unfold spoolDelivered deliveredWrites sealing
  have hbounce := forM_spool .bounce id
    (delivered.reject.bind (rejection p now message localMessage)).toList
  have hreplies := forM_spool .reply id delivered.replies
  dsimp only [id] at hbounce hreplies
  rw [hbounce, Filing.bind_ok rfl]
  cases sink.forwardData p message.data with
  | none => rfl
  | some data =>
    dsimp only [Option.elim_some]
    rw [forM_spool, hreplies, Filing.bind_ok rfl]
    rfl

section

variable (message : AcceptedMessage)

theorem deliverHere_eq (recipients : List Text) :
    sink.deliverHere p now message recipients =
      match sink.here.routedTo p { message with recipients } (sink.hintFor message) with
      | .error error => .fail error
      | .ok accounts =>
        ⟨sink.hereWrites p now message recipients accounts, sink.sealing p message⟩ := by
  have hrouted := sink.here.deliverRouted_eq p { message with recipients } (sink.hintFor message)
  change sink.here.deliverRouted p _ (sink.hintFor message) >>= _ = _
  cases haccounts : sink.here.routedTo p { message with recipients } (sink.hintFor message) with
  | error error =>
    rw [haccounts] at hrouted
    rw [hrouted]
    rfl
  | ok accounts =>
    rw [haccounts] at hrouted
    rw [hrouted, Filing.bind_ok rfl, spoolDelivered_eq]
    rfl

theorem deliverAway_eq (split : Split) :
    sink.deliverAway message split = ⟨sink.awayWrites message split, .ok ()⟩ := by
  unfold deliverAway awayWrites
  rw [forM_spool, Filing.bind_ok rfl]
  cases split.remote.isEmpty with
  | true | false => rfl

/-- A delivery is refused at once, or it makes the writes that the message calls for. -/
theorem deliver_eq :
    sink.deliver p now message =
      match sink.writesFor p now message with
      | .error error => .fail error
      | .ok (ws, result) => ⟨ws, result⟩ := by
  unfold deliver writesFor
  cases sink.split p now message.recipients with
  | error error => rfl
  | ok split =>
    dsimp only
    rw [deliverAway_eq]
    cases hhere : split.here.isEmpty with
    | true => rfl
    | false =>
      rw [deliverHere_eq]
      cases sink.here.routedTo p { message with recipients := split.here }
        (sink.hintFor message) with
      | error error => rfl
      | ok accounts =>
        unfold sealing
        cases sink.forwardData p message.data with
        | none => simp [bind, Filing.bind]
        | some data => exact Filing.bind_ok rfl _

theorem result_of_writesFor {made : List Write × Except SinkError Unit}
    (h : sink.writesFor p now message = .ok made) :
    made.2 = .ok () ∨ made.2 = .error .panicked := by
  unfold writesFor at h
  split at h
  · cases h
  · split at h
    · obtain rfl := Except.ok.inj h
      exact .inl rfl
    · split at h
      · cases h
      · obtain rfl := Except.ok.inj h
        dsimp only
        unfold sealing
        split
        · exact .inl rfl
        · exact .inr rfl

/-- A delivery that returns an error by itself has written nothing. -/
theorem writes_of_error {error : SinkError} (h : (sink.deliver p now message).result = .error error)
    (hreturned : error ≠ .panicked) : (sink.deliver p now message).writes = [] := by
  rw [deliver_eq] at h ⊢
  cases hwrites : sink.writesFor p now message with
  | error error => rfl
  | ok made =>
    rw [hwrites] at h
    change made.2 = .error error at h
    rcases sink.result_of_writesFor p now message hwrites with hok | hpanicked
    · cases hok.symm.trans h
    · exact absurd (Except.error.inj (h.symm.trans hpanicked)) hreturned

end

/-! ## What a failure leaves behind -/

/-- A delivery when some writes fail: `faults` has the reason why a write fails, if it does. -/
def deliverWith (faults : ℕ → Option Text) (message : AcceptedMessage) :
    List Write × Except SinkError Unit :=
  (sink.deliver p now message).run (fun n ↦ (faults n).map .storage) 0

/-- **A failed delivery leaves nothing behind** exactly if, of the writes that the message calls
for, none fails or the first that does comes before anything is created: only directories of
mailboxes that exist come before it. -/
theorem leaves_nothing_iff (existing : Text → Option Text → Bool) (faults : ℕ → Option Text)
    (message : Smtp.AcceptedMessage) :
    (∀ error, (sink.deliverWith p now faults message).2 = .error error → error ≠ .panicked →
      ∀ w ∈ (sink.deliverWith p now faults message).1, w.creates existing = false) ↔
    ∀ ws result, sink.writesFor p now message = .ok (ws, result) →
      ∀ i < ws.length, (faults i).isSome = true →
        ∃ j ≤ i, (faults j).isSome = true ∧ ∀ w ∈ ws.take j, w.creates existing = false := by
  have hfaults : ∀ n error, (faults n).map SinkError.storage = some error → error ≠ .panicked := by
    intro n error h
    obtain ⟨reason, -, rfl⟩ := Option.map_eq_some_iff.1 h
    exact nofun
  have hiff := Filing.harmless_iff (fun w ↦ w.creates existing = false)
    (fun _ ↦ sink.writes_of_error p now message) hfaults
  simp only [Option.isSome_map] at hiff
  rw [deliverWith, hiff, deliver_eq]
  cases sink.writesFor p now message with
  | error error =>
    exact ⟨fun _ ws _ hws ↦ absurd hws nofun, fun _ i hi ↦ absurd hi (Nat.not_lt_zero i)⟩
  | ok made =>
    constructor
    · intro h ws result hws
      obtain rfl := Except.ok.inj hws
      exact h
    · exact fun h ↦ h made.1 made.2 rfl

end SplitDelivery

def twoAccounts : SplitDelivery where
  here := {
    directory := { Smtp.Directory.empty with
      domains := ["b.net".toList]
      accountsByAddress := (∅ : Smtp.Table Text).insert "u@b.net".toList "u".toList
        |>.insert "v@b.net".toList "v".toList }
    sieveOutcome := fun _ _ ↦ none
    vacationReply := fun _ _ _ ↦ none }
  rules := []
  srs := none
  arcSealer := none
  sign := fun _ _ ↦ none

def toBoth : AcceptedMessage :=
  ⟨"s@c.org".toList, ["u@b.net".toList, "v@b.net".toList], [], false, none, []⟩

/-- The second copy cannot be stored, and the first one stays. -/
theorem secondCopy_left_behind :
    twoAccounts.deliverWith .plain 0 (fun n ↦ if n = 3 then
      some "disk full".toList else none) toBoth =
      ([.directory "u".toList none, .copy "u".toList none [] [], .directory "v".toList none],
        .error (.storage "disk full".toList)) := by
  decide

end Epistle.Storage
