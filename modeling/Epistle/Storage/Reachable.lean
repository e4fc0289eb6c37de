import Epistle.Storage.Plan

/-!
# Delivered messages can be found

A message that an account has got should be in a mailbox that the account's owner can open. The
names that deliveries accept (`isSafeMailbox`) are not the names of mailboxes (`validName`): a
folder may be called `inbox` or end with a blank for the one, not for the other, and a folder that
deliveries do not accept is passed over. A filter that files a message into such a folder only, or
that only redirects a message without a sender, makes it disappear (`filedNowhere_not_found`).
-/

namespace Epistle.Storage

open TextFormat Effects

def storeCopies (crypto : Imap.MessageCrypto) (stamps : ℕ → Imap.Stamp) (owner : Text) :
    ℕ → List Write → Imap.Account → Imap.Account
  | _, [], a => a
  | n, .copy account mailbox data flags :: ws, a =>
    storeCopies crypto stamps owner (n + 1) ws
      (if account = owner then
        ((Imap.deliverTo crypto mailbox data flags (stamps n)).run Imap.Account.exec a).2
      else a)
  -- a delivery to the account makes the directories that it needs
  | n, .directory _ _ :: ws, a | n, .spool _ _ :: ws, a =>
    storeCopies crypto stamps owner (n + 1) ws a

section Folders

variable {crypto : Imap.MessageCrypto} {stamps : ℕ → Imap.Stamp} {owner : Text}

variable {ws : List Write}

theorem folder_storeCopies_of_isSome {path : Imap.Path} :
    ∀ {n : ℕ} {a : Imap.Account}, (a.folder path).isSome = true →
      ((storeCopies crypto stamps owner n ws a).folder path).isSome = true := by
  induction ws with
  | nil => exact fun h ↦ h
  | cons w ws ih =>
    intro n a h
    cases w with
    | directory account mailbox | spool purpose message => exact ih h
    | copy account mailbox data flags =>
      rw [storeCopies]
      split
      · exact ih (by rw [Imap.folder_deliverTo, h, Bool.or_true])
      · exact ih h

theorem folder_storeCopies {mailbox : Option Text} {data : Bytes} {flags : List Text}
    (h : Write.copy owner mailbox data flags ∈ ws) :
    ∀ {n : ℕ} {a : Imap.Account},
      ((storeCopies crypto stamps owner n ws a).folder (mailbox.elim .inbox .folder)).isSome =
        true := by
  induction ws with
  | nil => exact absurd h nofun
  | cons w ws ih =>
    intro n a
    rcases List.mem_cons.mp h with rfl | hrest
    · rw [storeCopies, if_pos rfl]
      exact folder_storeCopies_of_isSome (by simp [Imap.folder_deliverTo])
    · cases w with
      | directory account mailbox' | spool purpose message | copy account mailbox' data' flags' =>
        exact ih hrest

end Folders

/-- A copy in the INBOX or a folder can be opened. -/
def isOpenable (mailbox : Option Text) : Bool := mailbox.all Imap.validName

/-- Some listed mailbox is the one of a copy exactly if the mailbox can be opened. -/
theorem exists_listed_iff {mailbox : Option Text} {a : Imap.Account}
    (h : (a.folder (mailbox.elim .inbox .folder)).isSome = true) :
    (∃ name ∈ (Imap.list.run Imap.Account.exec a).1,
      Imap.mailboxDir name = some (mailbox.elim .inbox .folder)) ↔ isOpenable mailbox = true := by
  cases mailbox with
  | none => exact ⟨fun _ ↦ rfl, fun _ ↦ ⟨"INBOX".toList, Imap.mem_list.mpr (.inl rfl), by decide⟩⟩
  | some folder =>
    constructor
    · rintro ⟨name, -, hdir⟩
      exact (Imap.eq_of_mailboxDir_folder hdir).2
    · intro hvalid
      exact ⟨folder, Imap.mem_list.mpr (.inr ⟨h, hvalid⟩), Imap.mailboxDir_of_validName hvalid⟩

namespace LocalDelivery

variable (p : Smtp.Primitives) (sink : LocalDelivery)

def filterOutcome (account : Text) (message : Smtp.AcceptedMessage) (hint : Option Text) :
    Option Sieve.Outcome :=
  if hint.isSome then none else sink.sieveOutcome account message

/-- The filter discards the message: it keeps nothing, files nothing and redirects nothing. -/
def Discards (outcome : Sieve.Outcome) : Prop :=
  outcome.keep = false ∧ outcome.fileinto = [] ∧ outcome.redirects = []

/-- The message can be found: of the copies that were made, one is in a mailbox that the account
lists; or the message is returned to be sent on; or the filter has discarded it. -/
def Found (a : Imap.Account) (account : Text) (made : List Write) (one delivered : Delivered)
    (outcome : Option Sieve.Outcome) : Prop :=
  (∃ mailbox data flags, Write.copy account mailbox data flags ∈ made ∧
    ∃ name ∈ (Imap.list.run Imap.Account.exec a).1,
      Imap.mailboxDir name = some (mailbox.elim .inbox .folder)) ∨
  (∃ address ∈ one.redirects, address ∈ delivered.redirects) ∨
  ∃ o ∈ outcome, Discards o

/-- What the filter or the hint says can be carried out so that the message is found: a mailbox that
a hint names can be opened; a filter that refuses a message without a sender discards it; and else
the filter keeps the message, files it into a folder that is safe and can be opened, sends it on, or
discards it. -/
def Findable (account : Text) (message : Smtp.AcceptedMessage) (hint : Option Text) : Prop :=
  match hint, sink.sieveOutcome account message with
  | some mailbox, _ => Imap.validName mailbox = true
  | none, none => True
  | none, some outcome =>
    if outcome.reject.isSome then Discards outcome
    else outcome.keep = true ∨
      (∃ folder ∈ outcome.fileinto, isSafeMailbox folder = true ∧ Imap.validName folder = true) ∨
      (message.reversePath ≠ [] ∧ outcome.redirects ≠ []) ∨
      (sink.accountForwards account message).1 ≠ [] ∨ Discards outcome

/-! ## Copies -/

variable {account : Text} {mailbox : Option Text} {message : Smtp.AcceptedMessage}

variable {data : Bytes} {accounts : List Text} {hint : Option Text}

theorem openable_outcomeCopies {outcome : Sieve.Outcome} :
    (∃ mailbox data' flags, Write.copy account mailbox data' flags ∈
        outcomeCopies account data outcome ∧ isOpenable mailbox = true) ↔
      outcome.keep = true ∨ ∃ folder ∈ outcome.fileinto,
        isSafeMailbox folder = true ∧ Imap.validName folder = true := by
  constructor
  · rintro ⟨mailbox, data', flags, hmem, hopenable⟩
    rcases copy_mem_outcomeCopies.mp hmem with ⟨hkeep, -⟩ | ⟨folder, hfolder, hsafe, heq⟩
    · exact .inl hkeep
    · rw [(Write.copy.inj heq).2.1] at hopenable
      exact .inr ⟨folder, hfolder, hsafe, hopenable⟩
  · rintro (hkeep | ⟨folder, hfolder, hsafe, hvalid⟩)
    · exact ⟨none, data, outcome.flags, copy_mem_outcomeCopies.mpr (.inl ⟨hkeep, rfl⟩), rfl⟩
    · exact ⟨some folder, data, outcome.flags,
        copy_mem_outcomeCopies.mpr (.inr ⟨folder, hfolder, hsafe, rfl⟩), hvalid⟩

theorem mem_allCopies (haccount : account ∈ accounts) {flags : List Text} :
    Write.copy account mailbox data flags ∈ sink.allCopies accounts message hint ↔
      Write.copy account mailbox data flags ∈ sink.copies account message hint := by
  rw [allCopies, List.mem_flatMap]
  constructor
  · rintro ⟨other, -, hmem⟩
    obtain rfl : account = other := Option.some.inj (account_of_mem_copies sink hmem)
    exact hmem
  · exact fun hmem ↦ ⟨account, haccount, hmem⟩

/-- The account has a copy that can be opened, or the message is sent on, or discarded, exactly if
what the hint or the filter says can be carried out so. -/
theorem openable_iff_findable (hreject : (sink.remainder account message hint).reject = none) :
    ((∃ mailbox data flags, Write.copy account mailbox data flags ∈
      sink.copies account message hint ∧
        isOpenable mailbox = true) ∨
      (sink.remainder account message hint).redirects ≠ [] ∨
      ∃ o ∈ sink.filterOutcome account message hint, Discards o) ↔
    sink.Findable account message hint := by
  unfold remainder at hreject
  unfold copies remainder filterOutcome Findable
  cases hint with
  | some mailbox =>
    simp [isOpenable, Delivered.default, copyTo]
  | none =>
    cases houtcome : sink.sieveOutcome account message with
    | none =>
      -- without a filter there is a copy in the INBOX, or the message is forwarded
      simp only [iff_true]
      cases hforwards : (sink.accountForwards account message).1 with
      | nil =>
        left
        exact ⟨none, message.data, [], by simp [copyTo], rfl⟩
      | cons target targets =>
        right
        left
        exact List.cons_ne_nil _ _
    | some outcome =>
      dsimp only at hreject ⊢
      cases hreason : outcome.reject with
      | some reason => simp [Delivered.default]
      | none =>
        have hredirects : ∀ forwards : List Text,
            (if message.reversePath.isEmpty then [] else outcome.redirects) ++ forwards ≠ [] ↔
              message.reversePath ≠ [] ∧ outcome.redirects ≠ [] ∨ forwards ≠ [] := by
          cases message.reversePath with
          | nil => simp
          | cons c rest => simp [← not_and_or]
        simp only [Option.isSome_none, Bool.false_eq_true, if_false]
        rw [openable_outcomeCopies, hredirects]
        simp only [Option.mem_def, Option.some.injEq, exists_eq_left', or_assoc]

theorem redirects_foldl_extend (f : Text → Delivered) (accounts : List Text) :
    ∀ delivered : Delivered, (accounts.foldl (fun delivered account ↦ delivered.extend (f account))
      delivered).redirects = delivered.redirects ++ accounts.flatMap fun account ↦
        (f account).redirects := by
  induction accounts with
  | nil => exact fun _ ↦ (List.append_nil _).symm
  | cons account accounts ih =>
    intro delivered
    rw [List.foldl_cons, ih, List.flatMap_cons, Delivered.extend, List.append_assoc]

/-- What is sent on for an account is returned to the caller. -/
theorem mem_redirects_allRemainders (haccount : account ∈ accounts) {address : Text}
    (h : address ∈ (sink.remainder account message mailbox).redirects) :
    address ∈ (sink.allRemainders accounts message mailbox).redirects := by
  rw [allRemainders, redirects_foldl_extend]
  exact List.mem_append_right _ (List.mem_flatMap.mpr ⟨account, haccount, h⟩)

theorem deliverRouted_run_ok
    {faults : ℕ → Option SinkError} {made : List Write} {delivered : Delivered}
    (h : (sink.deliverRouted p message mailbox).run faults 0 = (made, .ok delivered)) :
    ∃ accounts, sink.accountsFor p message = .ok accounts ∧
      made = sink.allCopies accounts (sink.listed p message) mailbox ∧
      delivered = sink.allRemainders accounts (sink.listed p message) mailbox := by
  obtain ⟨hwrites, hresult⟩ := Filing.run_ok h
  have hrouted := sink.deliverRouted_eq p message mailbox
  cases haccounts : sink.routedTo p message mailbox with
  | error error =>
    rw [haccounts] at hrouted
    rw [hrouted] at hresult
    exact absurd hresult nofun
  | ok accounts =>
    rw [haccounts] at hrouted
    rw [hrouted] at hwrites hresult
    exact ⟨accounts, (routedTo_eq_ok.1 haccounts).2.1, hwrites.symm, (Except.ok.inj hresult).symm⟩

/-- **A message that an account has got can be found**, when the delivery has succeeded and the
filter has not refused the message, exactly if what the hint or the filter says can be carried out
so. -/
theorem found_iff_findable (crypto : Imap.MessageCrypto) (stamps : ℕ → Imap.Stamp)
    (a : Imap.Account) (message : Smtp.AcceptedMessage) (mailbox : Option Text)
    (faults : ℕ → Option SinkError) {made : List Write} {delivered one : Delivered}
    {accounts : List Text} {account : Text}
    (hdelivered : (sink.deliverRouted p message mailbox).run faults 0 = (made, .ok delivered))
    (haccounts : sink.accountsFor p message = .ok accounts) (haccount : account ∈ accounts)
    (hone : (sink.deliverForAccount account (sink.listed p message) mailbox).result = .ok one)
    (hreject : one.reject = none) :
    Found (storeCopies crypto stamps account 0 made a) account made one delivered
        (sink.filterOutcome account (sink.listed p message) mailbox) ↔
      sink.Findable account (sink.listed p message) mailbox := by
  obtain ⟨accounts', hfor, rfl, rfl⟩ := sink.deliverRouted_run_ok p hdelivered
  obtain rfl : accounts = accounts' := Except.ok.inj (haccounts.symm.trans hfor)
  rw [deliverForAccount_eq] at hone
  obtain rfl := Except.ok.inj hone
  rw [← sink.openable_iff_findable hreject, Found]
  refine or_congr ?_ (or_congr ?_ Iff.rfl)
  · -- the mailbox of a copy is there, so it is listed if it can be opened
    refine exists_congr fun mailbox' ↦ exists_congr fun data ↦ exists_congr fun flags ↦ ?_
    rw [← sink.mem_allCopies haccount]
    exact and_congr_right fun hmem ↦ exists_listed_iff (folder_storeCopies hmem)
  · constructor
    · exact fun ⟨address, hmem, _⟩ ↦ List.ne_nil_of_mem hmem
    · intro hne
      obtain ⟨address, hmem⟩ := List.exists_mem_of_ne_nil _ hne
      exact ⟨address, hmem, sink.mem_redirects_allRemainders haccount hmem⟩

end LocalDelivery

/-! ## Folders of a filter -/

def filingInto (folder : Text) : LocalDelivery :=
  { twoAccounts.here with sieveOutcome := fun _ _ ↦ some ⟨false, [folder], [], [], none, none⟩ }

def toOne : Smtp.AcceptedMessage := { toBoth with recipients := ["u@b.net".toList] }

def sampleStamps (n : ℕ) : Imap.Stamp := ⟨.ofNat n, [], ⟨n, 0⟩⟩

/-- A message that is filed into a folder with a proper name is found. -/
theorem found_filingInto_work :
    (filingInto "work".toList).deliverRouted .plain toOne none =
        ⟨LocalDelivery.copyTo "u".toList (some "work".toList) [] [], .ok .default⟩ ∧
      LocalDelivery.Found (storeCopies .disabled sampleStamps "u".toList 0
          (LocalDelivery.copyTo "u".toList (some "work".toList) [] []) .empty) "u".toList
        (LocalDelivery.copyTo "u".toList (some "work".toList) [] []) .default .default
        ((filingInto "work".toList).filterOutcome "u".toList toOne none) := by
  have hwork : isSafeMailbox "work".toList = true ∧ Imap.validName "work".toList = true := by decide
  have hrun : ((filingInto "work".toList).deliverRouted .plain toOne none).run (fun _ ↦ none) 0 =
      (LocalDelivery.copyTo "u".toList (some "work".toList) [] [], .ok .default) := rfl
  have haccounts : (filingInto "work".toList).accountsFor .plain toOne = .ok ["u".toList] := by
    decide
  have hone : ((filingInto "work".toList).deliverForAccount "u".toList
      ((filingInto "work".toList).listed .plain toOne) none).result = .ok .default := rfl
  exact ⟨rfl,
    ((filingInto "work".toList).found_iff_findable .plain .disabled sampleStamps .empty toOne
    none _ hrun haccounts (List.mem_singleton.mpr rfl) hone rfl).mpr
      (.inr (.inl ⟨"work".toList, List.mem_singleton.mpr rfl, hwork⟩))⟩

/-- A message that is filed only into a folder whose name is not accepted is not found. -/
theorem filedNowhere_not_found :
    (filingInto "a.b".toList).deliverRouted .plain toOne none = ⟨[], .ok .default⟩ ∧
      (filingInto "a.b".toList).accountsFor .plain toOne = .ok ["u".toList] ∧
      (filingInto "a.b".toList).deliverForAccount "u".toList toOne none = ⟨[], .ok .default⟩ ∧
      ¬LocalDelivery.Found (storeCopies .disabled sampleStamps "u".toList 0 [] .empty) "u".toList []
        .default .default ((filingInto "a.b".toList).filterOutcome "u".toList toOne none) := by
  refine ⟨rfl, by decide, rfl, ?_⟩
  rintro (⟨mailbox, data, flags, hmem, -⟩ | ⟨address, hmem, -⟩ | ⟨outcome, hmem, hdiscards⟩)
  · exact absurd hmem nofun
  · exact absurd hmem nofun
  · obtain rfl := Option.some.inj hmem
    exact absurd hdiscards.2.1 nofun

end Epistle.Storage
