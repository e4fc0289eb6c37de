import Epistle.DirectoryStore.Mutations

/-!
# Who owns an address

The directory finds accounts by the text of their addresses in lower case, and looks addresses up in
normal form. `add` compares texts as well, so an internationalised domain in two spellings gives one
address two owners, and the spelling that is not the normal form leads nowhere (`two_spellings`).
`replace_account` does not even ask for addresses.

If the accounts that are added or put in place of others list the normal form of all their
addresses, and are in the configured domains, then every address leads to its account and to no
other (`owned_of_spelled`).
-/

namespace Epistle.DirectoryStore

open TextFormat Smtp Effects Interleaving

/-! ## Tables -/

theorem lookup_collect {α : Type} {pairs : List (Text × α)} {key : Text} {value : α}
    (hmem : ∃ pair ∈ pairs, pair.1 = key) (hall : ∀ pair ∈ pairs, pair.1 = key → pair.2 = value) :
    (collect pairs).lookup key = some value := by
  induction pairs using List.reverseRecOn with
  | nil =>
    obtain ⟨pair, hpair, -⟩ := hmem
    exact absurd hpair nofun
  | append_singleton pairs last ih =>
    rw [collect, List.foldl_append, List.foldl_cons, List.foldl_nil]
    by_cases hlast : last.1 = key
    · -- the last pair counts
      have hvalue := hall last (by simp) hlast
      rw [← hlast, AList.lookup_insert, hvalue]
    · rw [AList.lookup_insert_ne (Ne.symm hlast)]
      refine ih ?_ fun pair hpair ↦ hall pair (List.mem_append_left _ hpair)
      obtain ⟨pair, hpair, hkey⟩ := hmem
      rcases List.mem_append.mp hpair with hpair | hpair
      · exact ⟨pair, hpair, hkey⟩
      · rw [List.mem_singleton.mp hpair] at hkey
        exact absurd hkey hlast

theorem toAsciiLowercase_domain {u : Unicode} {raw : Text} {address : Address}
    (h : Address.parse u raw = .ok address) : toAsciiLowercase address.domain = address.domain := by
  obtain ⟨domain, -, hnormal⟩ := Address.parse_spec h
  obtain ⟨ascii, -, heq⟩ := Domain.normalize_spec hnormal
  rw [heq]
  exact toAsciiLowercase_toAsciiLowercase ascii

theorem resolve_of_lookup {directory : Directory} {address : Address} {name : Text}
    (halias : directory.domainAliases.lookup address.domain = none)
    (hlocal : directory.domains.contains address.domain = true)
    (hlookup : directory.accountsByAddress.lookup (toAsciiLowercase address.toText) = some name) :
    directory.resolve address = .account name := by
  unfold Directory.resolve
  extract_lets domain key
  have hdomain : domain = address.domain := by simp only [domain, halias, Option.getD_none]
  have hkey : key = toAsciiLowercase address.toText :=
    congrArg (fun domain ↦ toAsciiLowercase (address.localPart ++ '@' :: domain)) hdomain
  have hcontains : ¬(!directory.domains.contains domain) = true := by
    rw [hdomain, hlocal]
    nofun
  rw [if_neg hcontains, hkey, hlookup]

/-! ## The addresses of accounts -/

namespace AccountStore

/-- The addresses are in the domains, and the normal form of each is among them. -/
def spelled (u : Unicode) (domains addresses : List Text) : Bool :=
  addresses.all fun raw ↦
    match Address.parse u raw with
    | .error _ => false
    | .ok address => (domains.any fun domain ↦ eqIgnoreAsciiCase domain address.domain) &&
        addresses.any fun other ↦ eqIgnoreAsciiCase other address.toText

theorem spelled_spec {u : Unicode} {domains addresses : List Text}
    (h : spelled u domains addresses = true) {raw : Text} (hraw : raw ∈ addresses) :
    ∃ address, Address.parse u raw = .ok address ∧
      (∃ domain ∈ domains, toAsciiLowercase domain = address.domain) ∧
      ∃ other ∈ addresses, toAsciiLowercase other = toAsciiLowercase address.toText := by
  have hone := List.all_eq_true.mp h raw hraw
  split at hone
  · exact absurd hone nofun
  · rename_i address hparse
    rw [Bool.and_eq_true, List.any_eq_true, List.any_eq_true] at hone
    obtain ⟨⟨domain, hdomain, heq⟩, other, hother, hnormal⟩ := hone
    refine ⟨address, hparse, ⟨domain, hdomain, ?_⟩, other, hother, eq_of_beq hnormal⟩
    exact (eq_of_beq heq).trans (toAsciiLowercase_domain hparse)

/-- Every address of a dynamic account leads to it in the directory, and no two accounts have
addresses with the same normal form. -/
structure Owned (u : Unicode) (accounts : Accounts) (directory : Directory) : Prop where
  resolves : ∀ account ∈ accounts, ∀ raw ∈ account.addresses,
    ∃ address, Address.parse u raw = .ok address ∧ directory.resolve address = .account account.name
  apart : accounts.Pairwise fun account account' ↦
    ∀ raw ∈ account.addresses, ∀ raw' ∈ account'.addresses, ∀ address address',
      Address.parse u raw = .ok address → Address.parse u raw' = .ok address' →
        toAsciiLowercase address.toText ≠ toAsciiLowercase address'.toText

/-- What the store has to keep: names are different, texts of addresses too, and addresses are
spelled well. -/
structure Distinct (u : Unicode) (domains : List Text) (accounts : Accounts) : Prop where
  names : (accounts.map (·.name)).Nodup
  texts : ∀ account ∈ accounts, ∀ account' ∈ accounts, account.name ≠ account'.name →
    ∀ raw ∈ account.addresses, ∀ raw' ∈ account'.addresses, toAsciiLowercase raw ≠
      toAsciiLowercase raw'
  spelled : ∀ account ∈ accounts, AccountStore.spelled u domains account.addresses = true

/-- There are no accounts but dynamic ones, and no domain aliases. -/
structure OnlyDynamic (s : AccountStore) : Prop where
  staticAccounts : s.staticAccounts = []
  sqlAccounts : s.sqlAccounts = []
  ldapAccounts : s.ldapAccounts = []
  domainAliases : s.domainAliases = []

variable {u : Unicode} {s : AccountStore}

section

variable (h : Distinct u s.domains s.dynamic.memory) (honly : s.OnlyDynamic)
include h honly

theorem Distinct.lookup {account : DynamicAccount} (haccount : account ∈ s.dynamic.memory)
    {raw : Text} (hraw : raw ∈ account.addresses) :
    s.buildDirectory.accountsByAddress.lookup (toAsciiLowercase raw) = some account.name := by
  have hpairs : s.addressAccounts = s.dynamic.memory.flatMap fun account ↦
      account.addresses.map fun address ↦ (address, account.name) := by
    rw [addressAccounts, honly.staticAccounts, honly.sqlAccounts, honly.ldapAccounts]
    rfl
  change (collectLowercase s.addressAccounts).lookup _ = _
  rw [hpairs, collectLowercase]
  refine lookup_collect ?_ ?_
  · refine ⟨(toAsciiLowercase raw, account.name), List.mem_map.mpr ⟨(raw, account.name), ?_,
      rfl⟩, rfl⟩
    exact List.mem_flatMap.mpr ⟨account, haccount, List.mem_map.mpr ⟨raw, hraw, rfl⟩⟩
  · intro pair hpair hkey
    obtain ⟨source, hsource, rfl⟩ := List.mem_map.mp hpair
    obtain ⟨other, hother, hsource⟩ := List.mem_flatMap.mp hsource
    obtain ⟨raw', hraw', rfl⟩ := List.mem_map.mp hsource
    by_contra hne
    exact h.texts other hother account haccount hne raw' hraw' raw hraw hkey

theorem Distinct.owned : Owned u s.dynamic.memory s.buildDirectory := by
  constructor
  · intro account haccount raw hraw
    obtain ⟨address, hparse, ⟨domain, hdomain, heq⟩, other, hother, hnormal⟩ :=
      spelled_spec (h.spelled account haccount) hraw
    refine ⟨address, hparse, ?_⟩
    have hlookup := h.lookup honly haccount hother
    have halias : s.buildDirectory.domainAliases.lookup address.domain = none := by
      change (collect (s.domainAliases.map _)).lookup _ = none
      rw [honly.domainAliases]
      rfl
    have hlocal : s.buildDirectory.domains.contains address.domain = true := by
      rw [List.contains_iff_mem]
      exact List.mem_map.mpr ⟨domain, hdomain, heq⟩
    rw [hnormal] at hlookup
    exact resolve_of_lookup halias hlocal hlookup
  · have hnames : s.dynamic.memory.Pairwise fun account account' ↦ account.name ≠ account'.name :=
      List.pairwise_map.mp h.names
    refine hnames.imp_of_mem fun {account account'} haccount haccount' hne ↦ ?_
    intro raw hraw raw' hraw' address address' hparse hparse' heq
    obtain ⟨_, hparse₁, -, other, hother, hnormal⟩ := spelled_spec (h.spelled account haccount) hraw
    obtain ⟨_, hparse₂, -, other', hother', hnormal'⟩ :=
      spelled_spec (h.spelled account' haccount') hraw'
    obtain rfl := Except.ok.inj (hparse.symm.trans hparse₁)
    obtain rfl := Except.ok.inj (hparse'.symm.trans hparse₂)
    exact h.texts account haccount account' haccount' hne other hother other' hother'
      (hnormal.trans (heq.trans hnormal'.symm))

end

/-! ## What the calls check -/

theorem taken_eq_none {known addresses : List Text} (h : taken known addresses = none) {raw : Text}
    (hraw : raw ∈ addresses) {other : Text} (hother : other ∈ known) :
    toAsciiLowercase raw ≠ toAsciiLowercase other := by
  intro heq
  have hnot := List.find?_eq_none.mp h raw hraw
  rw [List.contains_iff_mem, heq] at hnot
  exact hnot (List.mem_map_of_mem hother)

theorem add_spec {account : DynamicAccount} {accounts : Accounts}
    (h : accounts ∈ (s.add u account).changed?) :
    accounts = s.dynamic.memory ++ [account] ∧ account.name ∉ s.dynamic.memory.map (·.name) ∧
      ∀ raw ∈ account.addresses, ∀ other ∈ s.dynamic.memory, ∀ raw' ∈ other.addresses,
        toAsciiLowercase raw ≠ toAsciiLowercase raw' := by
  unfold add at h
  split at h
  · exact absurd h nofun
  · split at h
    · exact absurd h nofun
    · split at h
      · exact absurd h nofun
      · split at h
        · exact absurd h nofun
        · rename_i hname
          split at h
          · exact absurd h nofun
          · rename_i htaken
            refine ⟨(Option.some.inj h).symm, fun hmem ↦ hname ?_, ?_⟩
            · rw [List.contains_iff_mem]
              exact List.mem_append_right _ hmem
            · intro raw hraw other hother raw' hraw'
              exact taken_eq_none htaken hraw
                (List.mem_append_right _ (List.mem_flatMap.mpr ⟨other, hother, hraw'⟩))

theorem remove_spec {name : Text} {accounts : Accounts} (h : accounts ∈ (s.remove name).changed?) :
    accounts = s.dynamic.memory.filter (·.name != name) := by
  unfold remove at h
  extract_lets kept at h
  split at h
  · exact absurd h nofun
  · exact (Option.some.inj h).symm

theorem replaceAccount_spec {name : Text} {replacement : DynamicAccount} {accounts : Accounts}
    (h : accounts ∈ (s.replaceAccount name replacement).changed?) :
    ∃ slot old, s.dynamic.memory[slot]? = some old ∧ old.name = name ∧
      accounts = s.dynamic.memory.set slot { replacement with name } ∧
      ∀ raw ∈ replacement.addresses, ∀ other ∈ s.dynamic.memory.eraseIdx slot,
        ∀ raw' ∈ other.addresses, toAsciiLowercase raw ≠ toAsciiLowercase raw' := by
  unfold replaceAccount at h
  extract_lets slot at h
  split at h
  · exact absurd h nofun
  · rename_i hslot
    split at h
    · exact absurd h nofun
    · rename_i htaken
      have hlt : slot < s.dynamic.memory.length := lt_of_le_of_ne List.findIdx_le_length hslot
      refine ⟨slot, s.dynamic.memory[slot], List.getElem?_eq_getElem hlt, ?_,
        (Option.some.inj h).symm, ?_⟩
      · exact eq_of_beq (List.findIdx_getElem (w := hlt))
      · intro raw hraw other hother raw' hraw'
        exact taken_eq_none htaken hraw
          (List.mem_append_right _ (List.mem_flatMap.mpr ⟨other, hother, hraw'⟩))

/-! ## What the calls keep -/

variable {domains : List Text} {accounts : Accounts}

section

variable (h : Distinct u domains accounts)
include h

theorem Distinct.append {account : DynamicAccount} (hname : account.name ∉ accounts.map (·.name))
    (htexts : ∀ raw ∈ account.addresses, ∀ other ∈ accounts, ∀ raw' ∈ other.addresses,
    toAsciiLowercase raw ≠ toAsciiLowercase raw')
    (hspelled : AccountStore.spelled u domains account.addresses = true) :
    Distinct u domains (accounts ++ [account]) := by
  constructor
  · rw [List.map_append, List.map_singleton, List.nodup_append]
    refine ⟨h.names, List.nodup_singleton _, ?_⟩
    intro name hmem name' hmem' heq
    rw [List.mem_singleton.mp hmem'] at heq
    exact hname (heq ▸ hmem)
  · intro first hfirst second hsecond hne raw hraw raw' hraw'
    rcases List.mem_append.mp hfirst with hfirst | hfirst
    · rcases List.mem_append.mp hsecond with hsecond | hsecond
      · exact h.texts first hfirst second hsecond hne raw hraw raw' hraw'
      · rw [List.mem_singleton.mp hsecond] at hraw'
        exact (htexts raw' hraw' first hfirst raw hraw).symm
    · rw [List.mem_singleton.mp hfirst] at hraw hne
      rcases List.mem_append.mp hsecond with hsecond | hsecond
      · exact htexts raw hraw second hsecond raw' hraw'
      · rw [List.mem_singleton.mp hsecond] at hne
        exact absurd rfl hne
  · intro other hother
    rcases List.mem_append.mp hother with hother | hother
    · exact h.spelled other hother
    · rw [List.mem_singleton.mp hother]
      exact hspelled

theorem Distinct.sublist {rest : Accounts} (hrest : rest.Sublist accounts) :
    Distinct u domains rest where
  names := h.names.sublist (hrest.map _)
  texts := fun first hfirst second hsecond ↦
    h.texts first (hrest.subset hfirst) second (hrest.subset hsecond)
  spelled := fun account haccount ↦ h.spelled account (hrest.subset haccount)

theorem Distinct.set {slot : ℕ} {old account : DynamicAccount} (hold : accounts[slot]? = some old)
    (hname : old.name = account.name) (htexts : ∀ raw ∈ account.addresses, ∀ other ∈
    accounts.eraseIdx slot, ∀ raw' ∈ other.addresses, toAsciiLowercase raw ≠ toAsciiLowercase raw')
    (hspelled : AccountStore.spelled u domains account.addresses = true) :
    Distinct u domains (accounts.set slot account) := by
  -- an account of another name is not the one that is replaced
  have hothers : ∀ other ∈ accounts, account.name ≠ other.name →
    other ∈ accounts.eraseIdx slot := by
    intro other hother hne
    obtain ⟨i, hi⟩ := List.mem_iff_getElem?.mp hother
    refine List.mem_eraseIdx_iff_getElem?.mpr ⟨i, ?_, hi⟩
    rintro rfl
    rw [hi] at hold
    rw [Option.some.inj hold] at hne
    exact hne hname.symm
  constructor
  · have hnames : (accounts.set slot account).map (·.name) = accounts.map (·.name) := by
      refine List.ext_getElem? fun i ↦ ?_
      rw [List.map_set, List.getElem?_set]
      split
      · rename_i heq
        subst heq
        obtain ⟨hlt, -⟩ := List.getElem?_eq_some_iff.mp hold
        rw [List.getElem?_map, hold, Option.map_some, hname, List.length_map, if_pos hlt]
      · rfl
    rw [hnames]
    exact h.names
  · intro first hfirst second hsecond hne raw hraw raw' hraw'
    rcases List.mem_or_eq_of_mem_set hfirst with hmem | rfl
    · rcases List.mem_or_eq_of_mem_set hsecond with hmem' | rfl
      · exact h.texts first hmem second hmem' hne raw hraw raw' hraw'
      · exact (htexts raw' hraw' first (hothers first hmem hne.symm) raw hraw).symm
    · rcases List.mem_or_eq_of_mem_set hsecond with hmem' | rfl
      · exact htexts raw hraw second (hothers second hmem' hne) raw' hraw'
      · exact absurd rfl hne
  · intro other hother
    rcases List.mem_or_eq_of_mem_set hother with hother | rfl
    · exact h.spelled other hother
    · exact hspelled

end

/-! ## Runs -/

/-- A call that changes who owns addresses. -/
inductive Enrolment
  | add (account : DynamicAccount)
  | remove (name : Text)
  | replaceAccount (name : Text) (replacement : DynamicAccount)

def Enrolment.decision (u : Unicode) (s : AccountStore) :
    Enrolment → Decision Accounts StoreError Unit
  | .add account => s.add u account
  | .remove name => s.remove name
  | .replaceAccount name replacement => s.replaceAccount name replacement

def Enrolment.addresses : Enrolment → List Text
  | .add account => account.addresses
  | .remove _ => []
  | .replaceAccount _ replacement => replacement.addresses

/-- A store, and whether every change has been written. -/
structure Registry where
  store : AccountStore
  written : Bool

/-- A call, and the error of the file if it cannot be written. -/
structure EnrolmentEvent where
  call : Enrolment
  fault : Option StoreError

/-- The store under calls that can fail. -/
def registry (u : Unicode) : Machine Registry EnrolmentEvent where
  enabled := fun _ _ ↦ True
  step := fun w event ↦
    let decision := event.call.decision u w.store
    ⟨(w.store.mutate true event.fault decision).2,
      w.written && (event.fault.isNone || decision.changed?.isNone)⟩

/-- The account that the store is about to accept is spelled well. -/
def SpelledCall (u : Unicode) (w : Registry) (event : EnrolmentEvent) : Prop :=
  (event.call.decision u w.store).changed?.isSome = true →
    spelled u w.store.domains event.call.addresses = true

instance (u : Unicode) (w : Registry) (event : EnrolmentEvent) :
    Decidable ((registry u).enabled w event) := isTrue trivial

instance (u : Unicode) (w : Registry) (event : EnrolmentEvent) :
    Decidable (SpelledCall u w event) :=
  inferInstanceAs (Decidable (_ → _))

theorem mutate_eq {β : Type} (publishes : Bool) (fault : Option StoreError)
    (decision : Decision Accounts StoreError β) (s : AccountStore) :
    ∃ dynamic published, (s.mutate publishes fault decision).2 = { s with dynamic, published } ∧
      dynamic.memory = decision.changed?.getD s.dynamic.memory := by
  refine ⟨(s.dynamic.mutate fault decision).2, (s.mutate publishes fault decision).2.published, ?_,
    Mirrored.memory_mutate fault decision s.dynamic⟩
  unfold mutate
  split
  · rename_i heq
    rw [heq]
  · rename_i heq
    rw [heq]
    cases publishes with
    | true | false => rfl

theorem Distinct.decision {call : Enrolment} (h : Distinct u s.domains s.dynamic.memory)
    {accounts : Accounts} (hchanged : accounts ∈ (call.decision u s).changed?)
    (hspelled : AccountStore.spelled u s.domains call.addresses = true) :
    Distinct u s.domains accounts := by
  cases call with
  | add account =>
    obtain ⟨rfl, hname, htexts⟩ := add_spec hchanged
    exact h.append hname htexts hspelled
  | remove name =>
    rw [remove_spec hchanged]
    exact h.sublist List.filter_sublist
  | replaceAccount name replacement =>
    obtain ⟨slot, old, hold, hname, rfl, htexts⟩ := replaceAccount_spec hchanged
    exact h.set hold hname htexts hspelled

/-- What holds of the store throughout a run. -/
structure Enrolled (u : Unicode) (w : Registry) : Prop where
  only : w.store.OnlyDynamic
  distinct : Distinct u w.store.domains w.store.dynamic.memory
  current : w.written = true → w.store.Current

theorem Enrolled.step {w : Registry} (h : Enrolled u w) {event : EnrolmentEvent}
    (hspelled : SpelledCall u w event) : Enrolled u ((registry u).step w event) := by
  obtain ⟨dynamic, published, hafter, hmemory⟩ :=
    mutate_eq true event.fault (event.call.decision u w.store) w.store
  have hdistinct : Distinct u w.store.domains dynamic.memory := by
    rw [hmemory]
    cases hchanged : (event.call.decision u w.store).changed? with
    | none => exact h.distinct
    | some accounts => exact h.distinct.decision hchanged (hspelled (by rw [hchanged]; rfl))
  refine ⟨?_, ?_, ?_⟩
  · change (w.store.mutate true event.fault (event.call.decision u w.store)).2.OnlyDynamic
    rw [hafter]
    exact ⟨h.only.staticAccounts, h.only.sqlAccounts, h.only.ldapAccounts, h.only.domainAliases⟩
  · change Distinct u (w.store.mutate true event.fault (event.call.decision u w.store)).2.domains
      (w.store.mutate true event.fault (event.call.decision u w.store)).2.dynamic.memory
    rw [hafter]
    exact hdistinct
  · intro hwritten
    obtain ⟨hbefore, hnow⟩ := Bool.and_eq_true_iff.mp hwritten
    change (w.store.mutate true event.fault (event.call.decision u w.store)).2.Current
    have hcurrent := h.current hbefore
    cases hfault : event.fault with
    | none => exact hcurrent.mutate _
    | some error =>
      rw [hfault] at hnow
      cases hdecision : event.call.decision u w.store with
      | refuse error => exact hcurrent
      | keep result => exact current_publish _
      | change value result =>
        rw [hdecision] at hnow
        exact absurd hnow nofun

/-- **Addresses lead to their owners and to nobody else**, in every run in which the accounts that
are added or put in place of others are spelled well: in the directory that the store builds, and as
long as every change could be written, in the one that is published. -/
theorem owned_of_spelled (u : Unicode) {s₀ : AccountStore} (honly : s₀.OnlyDynamic)
    (hempty : s₀.dynamic.memory = []) (hcurrent : s₀.Current) {w : Registry}
    (hreach : (registry u).Reach (SpelledCall u) ⟨s₀, true⟩ w) :
    Owned u w.store.dynamic.memory w.store.buildDirectory ∧
      (w.written = true → w.store.published = w.store.buildDirectory) := by
  have henrolled : Enrolled u w := by
    refine Machine.Reach.invariant (I := Enrolled u) ?_ (fun w event h _ ↦ h.step) hreach
    refine ⟨honly, ?_, fun _ ↦ hcurrent⟩
    rw [hempty]
    exact ⟨List.nodup_nil, nofun, nofun⟩
  exact ⟨henrolled.distinct.owned henrolled.only, henrolled.current⟩

/-- Bob is joined by Alice, who cannot have Bob's address too, and gets another one. -/
def enrolments : List EnrolmentEvent :=
  let alice : DynamicAccount :=
    { bob with name := "alice".toList, addresses := ["alice@x.org".toList] }
  [⟨.add bob, none⟩, ⟨.add alice, none⟩,
    ⟨.replaceAccount "alice".toList { alice with addresses := ["Bob@x.org".toList] }, none⟩,
    ⟨.replaceAccount "alice".toList { alice with addresses := ["Al@X.org".toList] }, none⟩]

theorem owned_of_spelled_enrolments :
    let w := enrolments.foldl (registry .ascii).step ⟨.empty, true⟩
    Owned .ascii w.store.dynamic.memory w.store.published ∧
      w.store.dynamic.memory.map (·.addresses) = [["bob@x.org".toList], ["Al@X.org".toList]] := by
  have honly : AccountStore.empty.OnlyDynamic := ⟨rfl, rfl, rfl, rfl⟩
  obtain ⟨howned, hpublished⟩ := owned_of_spelled .ascii honly rfl rfl
    (w := enrolments.foldl (registry .ascii).step ⟨.empty, true⟩)
    (.of_passes (by decide))
  refine ⟨?_, by decide⟩
  exact howned

/-- Tables that know one name outside the ASCII range. -/
def umlaut : Unicode where
  domainToAsciiStrict := fun t ↦
    if t = "bücher.org".toList then some "xn--bcher-kva.org".toList
    else Unicode.ascii.domainToAsciiStrict t
  punycodeDecode := fun t ↦ if t = "bcher-kva".toList then some "bücher".toList else none
  isSingleScript := fun _ ↦ true
  skeleton := id

/-- Eve is given Bob's address in another spelling. -/
def twoSpellings : List EnrolmentEvent :=
  [⟨.add { bob with addresses := ["bob@xn--bcher-kva.org".toList] }, none⟩,
    ⟨.add { bob with name := "eve".toList, addresses := ["bob@bücher.org".toList] }, none⟩]

/-- Eve's address leads to Bob. -/
theorem two_spellings :
    ∃ w, (registry umlaut).Reach (fun _ _ ↦ True)
        ⟨publish { empty with domains := ["xn--bcher-kva.org".toList] }, true⟩ w ∧
      w.written = true ∧ ¬Owned umlaut w.store.dynamic.memory w.store.published := by
  refine ⟨twoSpellings.foldl (registry umlaut).step
    ⟨publish { empty with domains := ["xn--bcher-kva.org".toList] }, true⟩,
    .of_passes (by decide), by decide, fun howned ↦ ?_⟩
  obtain ⟨address, hparse, hresolve⟩ := howned.resolves
    { bob with name := "eve".toList, addresses := ["bob@bücher.org".toList] }
    (List.mem_cons_of_mem _ List.mem_cons_self) "bob@bücher.org".toList List.mem_cons_self
  have hnormal : Address.parse umlaut "bob@bücher.org".toList =
      .ok ⟨"bob".toList, "xn--bcher-kva.org".toList⟩ := by decide
  obtain rfl := Except.ok.inj (hnormal.symm.trans hparse)
  revert hresolve
  decide

end AccountStore

end Epistle.DirectoryStore
