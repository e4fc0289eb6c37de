import Epistle.DirectoryStore.Store
import Epistle.Interleaving.Machine

/-!
# Calls that change accounts

A call that changes dynamic accounts does three things: it changes the list, writes the file and
publishes the directory. `set_totp` leaves the last one out, so a second factor is not asked for
until something else is changed (`unpublished_secret`). All other calls leave the directory current
(`published_of_keepsSecrets`).

A call whose file cannot be written has changed the list already, and the next call that does better
makes that change effective (`failed_add_takes_effect`). A call that fails changes nothing only if
its checks refuse it or what is to be set is set already (`Harmless`, `run_eq_self_iff`).
-/

namespace Epistle.DirectoryStore

open TextFormat Smtp Effects Interleaving
open Decision (leaves_change_iff leaves_keep_iff leaves_refuse_iff)

/-! ## The published directory -/

namespace AccountStore

inductive Call
  | add (account : DynamicAccount)
  | remove (name : Text)
  | setPasswordHash (name hash : Text) (scram : Option ScramStored)
  | setTotp (name : Text) (secret : Option Text)
  | setDisabled (name : Text) (disabled : Bool)
  | replaceAccount (name : Text) (replacement : DynamicAccount)
  | setSqlAccounts (accounts : List SqlAccount)
  | setLdapAccounts (accounts : List LdapAccount)

/-- The store after a call whose file is written. -/
def call (u : Unicode) (s : AccountStore) : Call → AccountStore
  | .add account => (s.mutate true none (s.add u account)).2
  | .remove name => (s.mutate true none (s.remove name)).2
  | .setPasswordHash name hash scram => (s.mutate true none (s.setPasswordHash name hash scram)).2
  | .setTotp name secret => (s.mutate false none (s.setTotp name secret)).2
  | .setDisabled name disabled => (s.mutate true none (s.setDisabled name disabled)).2
  | .replaceAccount name replacement => (s.mutate true none (s.replaceAccount name replacement)).2
  | .setSqlAccounts accounts => s.setSqlAccounts accounts
  | .setLdapAccounts accounts => s.setLdapAccounts accounts

def machine (u : Unicode) : Machine AccountStore Call := ⟨fun _ _ ↦ True, call u⟩

instance (u : Unicode) (s : AccountStore) (event : Call) :
    Decidable ((machine u).enabled s event) :=
  isTrue trivial

def Current (s : AccountStore) : Prop := s.published = s.buildDirectory

/-- A call of `set_totp` leaves the table of secrets as it is. -/
def KeepsSecrets (s : AccountStore) : Call → Prop
  | .setTotp name secret => ∀ dynamic ∈ (s.setTotp name secret).changed?,
    totp dynamic = totp s.dynamic.memory
  | _ => True

instance (s : AccountStore) : ∀ event, Decidable (KeepsSecrets s event)
  | .setTotp name secret =>
    decidable_of_iff (∀ dynamic ∈ (s.setTotp name secret).changed?,
      (totp dynamic).entries = (totp s.dynamic.memory).entries)
      (forall₂_congr fun _ _ ↦ AList.ext_iff.symm)
  | .add _ | .remove _ | .setPasswordHash _ _ _ | .setDisabled _ _ | .replaceAccount _ _
  | .setSqlAccounts _ | .setLdapAccounts _ => isTrue trivial

theorem current_publish (s : AccountStore) : s.publish.Current := rfl

theorem Current.mutate {β : Type} {s : AccountStore} (h : s.Current)
    (decision : Decision Accounts StoreError β) : (s.mutate true none decision).2.Current := by
  cases decision with
  | refuse error => exact h
  | keep result => exact current_publish s
  | change value result => exact current_publish _

def withoutSecret (account : DynamicAccount) : DynamicAccount := { account with totpSecret := none }

theorem buildDirectory_withoutSecret (s : AccountStore) :
    s.buildDirectory = { AccountStore.buildDirectory { s with
        dynamic := ⟨s.dynamic.memory.map withoutSecret, []⟩ } with
      totp := totp s.dynamic.memory } := by
  simp [buildDirectory, addressAccounts, passwordHashes, allowedProtocols, List.flatMap_map,
    List.filterMap_map, List.filter_map, Function.comp_def, withoutSecret]

variable {name : Text} {secret : Option Text}

theorem map_withoutSecret_setTotp {s : AccountStore}
    {dynamic : Accounts} (h : dynamic ∈ (s.setTotp name secret).changed?) :
    dynamic.map withoutSecret = s.dynamic.memory.map withoutSecret := by
  unfold setTotp update at h
  split at h
  · exact absurd h nofun
  · obtain rfl := Option.some.inj h
    generalize s.dynamic.memory.findIdx (·.name == name) = i
    refine List.ext_getElem? fun j ↦ ?_
    rw [List.getElem?_map, List.getElem?_map, List.getElem?_modify]
    cases s.dynamic.memory[j]? with
    | none => rfl
    | some account =>
      by_cases hij : i = j
      · simp [hij, withoutSecret]
      · simp [hij]

theorem Current.setTotp {s : AccountStore} (h : s.Current)
    (hkeeps : KeepsSecrets s (.setTotp name secret)) :
    (s.mutate false none (s.setTotp name secret)).2.Current := by
  cases hdecision : s.setTotp name secret with
  | refuse error | keep result => exact h
  | change dynamic result =>
    have hchanged : dynamic ∈ (s.setTotp name secret).changed? := by rw [hdecision]; rfl
    have hsame := map_withoutSecret_setTotp hchanged
    have htotp := hkeeps dynamic hchanged
    refine h.trans ?_
    rw [buildDirectory_withoutSecret, ← htotp, ← hsame]
    exact (buildDirectory_withoutSecret { s with dynamic := ⟨dynamic, dynamic⟩ }).symm

/-- **Calls keep the published directory current**, in every run in which `set_totp` does not change
the table of secrets. -/
theorem published_of_keepsSecrets (u : Unicode) {s₀ s : AccountStore} (h₀ : s₀.Current)
    (hreach : (machine u).Reach KeepsSecrets s₀ s) : s.published = s.buildDirectory := by
  refine Machine.Reach.invariant (I := Current) h₀ ?_ hreach
  intro s event hcurrent _ hkeeps
  cases event with
  | add account | remove name | setPasswordHash name hash scram => exact hcurrent.mutate _
  | setTotp name secret => exact hcurrent.setTotp hkeeps
  | setDisabled name disabled | replaceAccount name replacement => exact hcurrent.mutate _
  | setSqlAccounts accounts | setLdapAccounts accounts => exact current_publish _

def empty : AccountStore := publish
  { domains := ["x.org".toList]
    domainAliases := []
    staticAccounts := []
    domainSubmissionLimits := []
    aliases := []
    appPasswords := []
    dynamic := ⟨[], []⟩
    sqlAccounts := []
    ldapAccounts := []
    ldapAuth := none
    masked := ⟨⟨∅, ∅⟩, 0⟩
    aliasesDisabled := []
    published := .empty }

def bob : DynamicAccount where
  name := "bob".toList
  addresses := ["bob@x.org".toList]
  passwordHash := "b".toList
  scram := none
  totpSecret := none
  disabled := false
  allowedProtocols := none

theorem published_of_keepsSecrets_disabled :
    let s := [Call.add bob, .setTotp "bob".toList none, .setDisabled "bob".toList true].foldl
      (machine .ascii).step empty
    s.published = s.buildDirectory ∧ s.published.disabled = ["bob".toList] :=
  ⟨published_of_keepsSecrets .ascii (rfl : empty.Current)
    (.of_passes (by decide)), by decide⟩

/-- Bob gets a second factor, and the servers do not know. -/
theorem unpublished_secret :
    ∃ s, (machine .ascii).Reach (fun _ _ ↦ True) empty s ∧ s.published ≠ s.buildDirectory := by
  refine ⟨[Call.add bob, .setTotp "bob".toList (some "key".toList)].foldl
    (machine .ascii).step empty, .of_passes (by decide), fun heq ↦ ?_⟩
  have hlookup := congrArg (fun directory ↦ directory.totp.lookup "bob".toList) heq
  revert hlookup
  decide

end AccountStore

/-! ## What the calls ask for -/

namespace AccountStore

/-- The checks of `add` let the account pass. -/
structure Addable (u : Unicode) (account : DynamicAccount) (s : AccountStore) : Prop where
  name : validateName account.name = .ok ()
  some_address : account.addresses ≠ []
  addresses : validateAddresses u s.domains account.addresses = .ok ()
  new_name : account.name ∉ s.staticAccounts.map (·.name) ++ s.dynamic.memory.map (·.name)
  free : taken (s.staticAccounts.flatMap (·.addresses) ++ s.dynamic.memory.flatMap (·.addresses))
    account.addresses = none

/-- The first account of a name. -/
def named (name : Text) (s : AccountStore) : Option DynamicAccount :=
  s.dynamic.memory.find? (·.name == name)

/-- The addresses are not those of other accounts than the one of the name. -/
def Free (name : Text) (addresses : List Text) (s : AccountStore) : Prop :=
  taken (s.staticAccounts.flatMap (·.addresses) ++ (s.dynamic.memory.eraseIdx
    (s.dynamic.memory.findIdx (·.name == name))).flatMap (·.addresses)) addresses = none

variable {u : Unicode} {s : AccountStore} {account : DynamicAccount} {name : Text}

theorem leaves_add_iff :
    (s.add u account).Leaves s.dynamic.memory ↔ ¬s.Addable u account := by
  unfold add
  split
  next error hname => exact leaves_refuse_iff fun h ↦ by cases hname.symm.trans h.name
  next hname =>
  split
  next hempty => exact leaves_refuse_iff fun h ↦ h.some_address (List.isEmpty_iff.mp hempty)
  next hempty =>
  split
  next error haddresses =>
    exact leaves_refuse_iff fun h ↦ by cases haddresses.symm.trans h.addresses
  next haddresses =>
  split
  next hold => exact leaves_refuse_iff fun h ↦ h.new_name (List.contains_iff_mem.mp hold)
  next hnew =>
  split
  next raw htaken => exact leaves_refuse_iff fun h ↦ by cases htaken.symm.trans h.free
  next hfree =>
    rw [leaves_change_iff]
    refine iff_of_false (by simp) (not_not.mpr ⟨hname, ?_, haddresses, ?_, hfree⟩)
    · exact fun h ↦ hempty (List.isEmpty_iff.mpr h)
    · exact fun h ↦ hnew (List.contains_iff_mem.mpr h)

theorem leaves_remove_iff : (s.remove name).Leaves s.dynamic.memory ↔
    ∀ account ∈ s.dynamic.memory, account.name ≠ name := by
  have hkept : (s.dynamic.memory.filter (·.name != name)).length = s.dynamic.memory.length ↔
      ∀ account ∈ s.dynamic.memory, account.name ≠ name := by
    simp [List.length_filter_eq_length_iff]
  unfold remove
  dsimp only
  split
  next hlength => exact leaves_refuse_iff (hkept.mp hlength)
  next hlength =>
    rw [leaves_change_iff]
    exact iff_of_false (fun h ↦ hlength (congrArg List.length h)) (mt hkept.mpr hlength)

/-- An account is changed in place. -/
theorem leaves_update_iff {β : Type} {f : DynamicAccount → DynamicAccount}
    {result : DynamicAccount → β} : (s.update name f result).Leaves s.dynamic.memory ↔
      ∀ account ∈ s.named name, f account = account := by
  unfold update
  rw [← named]
  cases hfound : s.named name with
  | none => exact leaves_refuse_iff nofun
  | some account =>
    have hat : s.dynamic.memory[s.dynamic.memory.findIdx (·.name == name)]? = some account :=
      List.find?_eq_getElem?_findIdx.symm.trans hfound
    rw [leaves_change_iff]
    constructor
    · rintro h account' ⟨rfl⟩
      have hget := congrArg (·[s.dynamic.memory.findIdx (·.name == name)]?) h
      rw [List.getElem?_modify, hat] at hget
      simpa using hget
    · intro h
      refine List.ext_getElem? fun i ↦ ?_
      rw [List.getElem?_modify]
      split
      next heq =>
        rw [← heq, hat]
        exact congrArg some (h account rfl)
      next => rw [id_map']

theorem leaves_replaceAccount_iff {replacement : DynamicAccount} :
    (s.replaceAccount name replacement).Leaves s.dynamic.memory ↔
      ∀ account ∈ s.named name, ¬s.Free name replacement.addresses ∨
        account = { replacement with name } := by
  have hfind : s.named name = s.dynamic.memory[s.dynamic.memory.findIdx (·.name == name)]? :=
    List.find?_eq_getElem?_findIdx
  unfold replaceAccount
  dsimp only
  split
  next hslot =>
    rw [hfind, hslot, List.getElem?_length]
    exact leaves_refuse_iff nofun
  next hslot =>
    have hlt : s.dynamic.memory.findIdx (·.name == name) < s.dynamic.memory.length :=
      lt_of_le_of_ne List.findIdx_le_length hslot
    rw [hfind, List.getElem?_eq_getElem hlt]
    split
    next raw htaken =>
      refine leaves_refuse_iff fun _ _ ↦ .inl fun hfree ↦ ?_
      cases htaken.symm.trans hfree
    next hfree =>
      rw [leaves_change_iff]
      constructor
      · rintro h account ⟨rfl⟩
        have hget := congrArg (·[s.dynamic.memory.findIdx (·.name == name)]?) h
        rw [List.getElem?_set_self hlt, List.getElem?_eq_getElem hlt] at hget
        exact .inr (Option.some.inj hget).symm
      · intro h
        rw [← (h _ rfl).resolve_left (not_not.mpr hfree)]
        exact List.set_getElem_self hlt

end AccountStore

namespace AppPasswordStore

variable {cidrOk : Text → Bool} {store : AppPasswordStore} {account label : Text}

theorem leaves_add_iff {password : AppPassword} :
    (AppPasswordStore.add cidrOk account password store).Leaves store.memory ↔
      (∃ spec, password.ipCidr = some spec ∧ cidrOk spec = false) ∨
        ∃ list ∈ store.memory.lookup (toAsciiLowercase account),
          ∃ other ∈ list, other.label = password.label := by
  unfold AppPasswordStore.add
  split
  next spec hspec =>
    obtain ⟨hsome, hbad⟩ := Option.filter_eq_some_iff.mp hspec
    exact leaves_refuse_iff (.inl ⟨spec, hsome, by simpa using hbad⟩)
  next hspec =>
  dsimp only
  split
  next hlabel =>
    refine leaves_refuse_iff (.inr ?_)
    cases hlist : store.memory.lookup (toAsciiLowercase account) with
    | none => simp [hlist] at hlabel
    | some list => exact ⟨list, rfl, by simpa [hlist] using hlabel⟩
  next hlabel =>
    rw [leaves_change_iff]
    refine iff_of_false (fun h ↦ ?_) ?_
    · have hlookup := congrArg (AList.lookup (toAsciiLowercase account)) h
      rw [AList.lookup_insert] at hlookup
      cases hlist : store.memory.lookup (toAsciiLowercase account) with
      | none => simp [hlist] at hlookup
      | some list => simp [hlist] at hlookup
    · rintro (⟨spec, hsome, hbad⟩ | ⟨list, hlist, other, hother, heq⟩)
      · simp [hsome, hbad] at hspec
      · rw [hlist] at hlabel
        exact hlabel (List.any_eq_true.mpr ⟨other, hother, beq_iff_eq.mpr heq⟩)

theorem leaves_remove_iff :
    (AppPasswordStore.remove account label store).Leaves store.memory ↔
      ∀ list ∈ store.memory.lookup (toAsciiLowercase account),
        ∀ password ∈ list, password.label ≠ label := by
  unfold AppPasswordStore.remove
  dsimp only
  split
  next hnone =>
    refine leaves_refuse_iff fun list hlist ↦ ?_
    cases hnone.symm.trans hlist
  next list hlist =>
    have hkept : (list.filter (·.label != label)).length = list.length ↔
        ∀ password ∈ list, password.label ≠ label := by
      simp [List.length_filter_eq_length_iff]
    have hall : (∀ list' ∈ store.memory.lookup (toAsciiLowercase account),
        ∀ password ∈ list', password.label ≠ label) ↔
          ∀ password ∈ list, password.label ≠ label := by
      simp [hlist]
    rw [hall, ← hkept]
    split
    next hlength => exact leaves_refuse_iff hlength
    next hlength =>
      rw [leaves_change_iff]
      refine iff_of_false (fun h ↦ ?_) hlength
      have hlookup := congrArg (AList.lookup (toAsciiLowercase account)) h
      rw [hlist] at hlookup
      split at hlookup
      · rw [AList.lookup_erase] at hlookup
        cases hlookup
      · rw [AList.lookup_insert] at hlookup
        exact hlength (congrArg List.length (Option.some.inj hlookup))

end AppPasswordStore

namespace MaskedAddressStore

def maskedAddress (label domain suffix : Text) : Text :=
  toAsciiLowercase (slugifyLabel label ++ '.' :: suffix ++ '@' :: domain)

/-- One of the suffixes that are drawn gives a new address. -/
def Drawn (label domain : Text) (suffix secondSuffix : Except Text Text)
    (store : MaskedAddressStore) : Prop :=
  ∃ first, suffix = .ok first ∧
    (store.entries.memory.lookup (maskedAddress label domain first) = none ∨
      ∃ second, secondSuffix = .ok second ∧
        store.entries.memory.lookup (maskedAddress label domain second) = none)

/-- The checks of `add` let the address pass, and one of the suffixes gives a new one. -/
structure Maskable (account label domain : Text) (suffix secondSuffix : Except Text Text)
    (store : MaskedAddressStore) : Prop where
  account_ne : account ≠ []
  domain_ne : domain ≠ []
  label_ne : slugifyLabel label ≠ []
  room : 0 < store.maxPerAccount → (store.entries.memory.entries.filter fun entry ↦
    entry.2.account == toAsciiLowercase account).length < store.maxPerAccount
  drawn : store.Drawn label domain suffix secondSuffix

variable {store : MaskedAddressStore} {account address label domain : Text}

theorem insert_ne {table : Table MaskedAddress} {key : Text} {entry : MaskedAddress}
    (h : table.lookup key ≠ some entry) : table.insert key entry ≠ table := by
  intro heq
  have hlookup := congrArg (AList.lookup key) heq
  rw [AList.lookup_insert] at hlookup
  exact h hlookup.symm

theorem leaves_add_iff {now : ℕ} {suffix secondSuffix : Except Text Text} :
    (store.add account label domain now suffix secondSuffix).Leaves store.entries.memory ↔
      ¬store.Maskable account label domain suffix secondSuffix := by
  unfold add
  dsimp only
  split
  next haccount =>
    exact leaves_refuse_iff fun h ↦ h.account_ne (by simpa [toAsciiLowercase] using haccount)
  next haccount =>
  split
  next hdomain => exact leaves_refuse_iff fun h ↦ h.domain_ne (List.isEmpty_iff.mp hdomain)
  next hdomain =>
  split
  next hlabel => exact leaves_refuse_iff fun h ↦ h.label_ne (List.isEmpty_iff.mp hlabel)
  next hlabel =>
  split
  next hfull =>
    rw [Bool.and_eq_true, decide_eq_true_eq, decide_eq_true_eq] at hfull
    exact leaves_refuse_iff fun h ↦ absurd (h.room hfull.1) (not_lt.mpr hfull.2)
  next hfull =>
  have hchecked : store.Drawn label domain suffix secondSuffix →
      store.Maskable account label domain suffix secondSuffix := by
    refine fun hdrawn ↦ ⟨?_, ?_, ?_, fun hlimit ↦ ?_, hdrawn⟩
    · simpa [toAsciiLowercase] using haccount
    · simpa using hdomain
    · simpa using hlabel
    · rw [Bool.and_eq_true, decide_eq_true_eq, decide_eq_true_eq, not_and, not_le] at hfull
      exact hfull hlimit
  cases suffix with
  | error reason => exact leaves_refuse_iff fun h ↦ by obtain ⟨_, h, -⟩ := h.drawn; cases h
  | ok first =>
    dsimp only [freshEntry]
    rw [← maskedAddress]
    split
    next hnew =>
      rw [Option.isNone_iff_eq_none] at hnew
      rw [leaves_change_iff]
      exact iff_of_false (insert_ne (by simp [hnew]))
        (not_not.mpr (hchecked ⟨first, rfl, .inl hnew⟩))
    next hold =>
      rw [Option.isNone_iff_eq_none] at hold
      cases secondSuffix with
      | error reason =>
        refine leaves_refuse_iff fun h ↦ ?_
        obtain ⟨_, ⟨rfl⟩, hnew | ⟨_, hsecond, -⟩⟩ := h.drawn
        · exact hold hnew
        · cases hsecond
      | ok second =>
        dsimp only
        rw [← maskedAddress]
        split
        next hnew =>
          rw [Option.isNone_iff_eq_none] at hnew
          rw [leaves_change_iff]
          exact iff_of_false (insert_ne (by simp [hnew]))
            (not_not.mpr (hchecked ⟨first, rfl, .inr ⟨second, rfl, hnew⟩⟩))
        next hold' =>
          rw [Option.isNone_iff_eq_none] at hold'
          refine leaves_refuse_iff fun h ↦ ?_
          obtain ⟨_, ⟨rfl⟩, hnew | ⟨_, ⟨rfl⟩, hnew⟩⟩ := h.drawn
          · exact hold hnew
          · exact hold' hnew

theorem lookup_of_owned {entry : MaskedAddress} (h : store.owned account address = .ok entry) :
    store.entries.memory.lookup (toAsciiLowercase address) = some entry := by
  unfold owned at h
  split at h
  · cases h
  next found hfound =>
    cases h
    exact (Option.filter_eq_some_iff.mp hfound).1

theorem leaves_setEnabled_iff {enabled : Bool} :
    (store.setEnabled account address enabled).Leaves store.entries.memory ↔
      ∀ entry, store.owned account address = .ok entry → entry.enabled = enabled := by
  unfold setEnabled
  cases howned : store.owned account address with
  | error error => exact leaves_refuse_iff nofun
  | ok entry =>
    dsimp only
    split
    next hsame =>
      refine leaves_keep_iff ?_
      rintro _ ⟨rfl⟩
      exact hsame
    next hother =>
      rw [leaves_change_iff]
      refine iff_of_false (insert_ne fun h ↦ ?_) fun h ↦ hother (h entry rfl)
      rw [lookup_of_owned howned] at h
      exact hother (congrArg MaskedAddress.enabled (Option.some.inj h))

theorem leaves_remove_iff : (store.remove account address).Leaves store.entries.memory ↔
    ∀ entry, store.owned account address = .ok entry →
      store.entries.memory.lookup entry.address = none := by
  unfold remove
  cases howned : store.owned account address with
  | error error => exact leaves_refuse_iff nofun
  | ok entry =>
    dsimp only
    rw [leaves_change_iff]
    constructor
    · rintro h _ ⟨rfl⟩
      rw [← h]
      exact AList.lookup_erase _ _
    · intro h
      -- an address that is not there is erased in vain
      exact AList.ext (List.kerase_of_notMem_keys (AList.lookup_eq_none.mp (h entry rfl)))

end MaskedAddressStore

/-! ## Calls that fail -/

/-- The stores: the accounts, with their masked addresses, and the app passwords. -/
structure Stores where
  accounts : AccountStore
  appPasswords : AppPasswordStore

inductive Mutation
  | add (account : DynamicAccount)
  | remove (name : Text)
  | setPasswordHash (name hash : Text) (scram : Option ScramStored)
  | setTotp (name : Text) (secret : Option Text)
  | setDisabled (name : Text) (disabled : Bool)
  | replaceAccount (name : Text) (replacement : DynamicAccount)
  | addAppPassword (account : Text) (password : AppPassword)
  | removeAppPassword (account label : Text)
  | addMasked (account label domain : Text) (now : ℕ) (suffix secondSuffix : Except Text Text)
  | setMaskedEnabled (account address : Text) (enabled : Bool)
  | removeMasked (account address : Text)

def errorOf {β : Type} : Except StoreError β → Option StoreError
  | .error error => some error
  | .ok _ => none

namespace Stores

variable {β : Type}

def onAccounts (publishes : Bool) (fault : Option StoreError)
    (decision : Decision AccountStore.Accounts StoreError β) (s : Stores) :
      Option StoreError × Stores :=
  let after := s.accounts.mutate publishes fault decision
  (errorOf after.1, { s with accounts := after.2 })

def onAppPasswords (fault : Option StoreError)
    (decision : Decision (Table (List AppPassword)) StoreError β) (s : Stores) :
    Option StoreError × Stores :=
  let after := s.appPasswords.mutate fault decision
  (errorOf after.1, { s with appPasswords := after.2 })

def onMasked (fault : Option StoreError) (decision : Decision (Table MaskedAddress) StoreError β)
    (s : Stores) : Option StoreError × Stores :=
  let after := s.accounts.masked.entries.mutate fault decision
  (errorOf after.1, { s with
    accounts := { s.accounts with masked := { s.accounts.masked with entries := after.2 } } })

end Stores

namespace Mutation

def run (u : Unicode) (cidrOk : Text → Bool) (fault : Option StoreError) (s : Stores) :
    Mutation → Option StoreError × Stores
  | .add account => s.onAccounts true fault (s.accounts.add u account)
  | .remove name => s.onAccounts true fault (s.accounts.remove name)
  | .setPasswordHash name hash scram =>
    s.onAccounts true fault (s.accounts.setPasswordHash name hash scram)
  | .setTotp name secret => s.onAccounts false fault (s.accounts.setTotp name secret)
  | .setDisabled name disabled => s.onAccounts true fault (s.accounts.setDisabled name disabled)
  | .replaceAccount name replacement =>
    s.onAccounts true fault (s.accounts.replaceAccount name replacement)
  | .addAppPassword account password =>
    s.onAppPasswords fault (s.appPasswords.add cidrOk account password)
  | .removeAppPassword account label => s.onAppPasswords fault (s.appPasswords.remove account label)
  | .addMasked account label domain now suffix secondSuffix =>
    s.onMasked fault (s.accounts.masked.add account label domain now suffix secondSuffix)
  | .setMaskedEnabled account address enabled =>
    s.onMasked fault (s.accounts.masked.setEnabled account address enabled)
  | .removeMasked account address => s.onMasked fault (s.accounts.masked.remove account address)

/-- The checks of the call refuse it, or what it would set is set already. -/
def Harmless (u : Unicode) (cidrOk : Text → Bool) (s : Stores) : Mutation → Prop
  | .add account => ¬s.accounts.Addable u account
  | .remove name => ∀ account ∈ s.accounts.dynamic.memory, account.name ≠ name
  | .setPasswordHash name hash scram => ∀ account ∈ s.accounts.named name,
      account.passwordHash = hash ∧ account.scram = scram
  | .setTotp name secret => ∀ account ∈ s.accounts.named name, account.totpSecret = secret
  | .setDisabled name disabled => ∀ account ∈ s.accounts.named name, account.disabled = disabled
  | .replaceAccount name replacement => ∀ account ∈ s.accounts.named name,
      ¬s.accounts.Free name replacement.addresses ∨ account = { replacement with name }
  | .addAppPassword account password =>
      (∃ spec, password.ipCidr = some spec ∧ cidrOk spec = false) ∨
        ∃ list ∈ s.appPasswords.memory.lookup (toAsciiLowercase account),
          ∃ other ∈ list, other.label = password.label
  | .removeAppPassword account label =>
      ∀ list ∈ s.appPasswords.memory.lookup (toAsciiLowercase account),
        ∀ password ∈ list, password.label ≠ label
  | .addMasked account label domain _ suffix secondSuffix =>
      ¬s.accounts.masked.Maskable account label domain suffix secondSuffix
  | .setMaskedEnabled account address enabled =>
      ∀ entry, s.accounts.masked.owned account address = .ok entry → entry.enabled = enabled
  | .removeMasked account address => ∀ entry, s.accounts.masked.owned account address = .ok entry →
      s.accounts.masked.entries.memory.lookup entry.address = none

end Mutation

theorem errorOf_eq_some {β : Type} {result : Except StoreError β} {error : StoreError}
    (h : errorOf result = some error) : result = .error error := by
  cases result with
  | error e => exact congrArg Except.error (Option.some.inj h)
  | ok value => exact absurd h nofun

theorem AccountStore.mutate_error {β : Type} {publishes : Bool} {fault : Option StoreError}
    {decision : Decision Accounts StoreError β} {s : AccountStore} {error : StoreError}
    (h : (s.mutate publishes fault decision).1 = .error error) :
    (s.dynamic.mutate fault decision).1 = .error error ∧
      (s.mutate publishes fault decision).2 =
        { s with dynamic := (s.dynamic.mutate fault decision).2 } := by
  unfold mutate at h ⊢
  split at h
  · rename_i heq
    simp only [heq]
    exact ⟨h, trivial⟩
  · exact absurd h nofun

namespace Stores

variable {β : Type} {fault : Option StoreError} {s : Stores} {error : StoreError}

theorem onAccounts_eq_self_iff {publishes : Bool}
    {decision : Decision AccountStore.Accounts StoreError β}
    (h : (s.onAccounts publishes fault decision).1 = some error) :
    (s.onAccounts publishes fault decision).2 = s ↔ decision.Leaves s.accounts.dynamic.memory := by
  obtain ⟨herror, hafter⟩ := AccountStore.mutate_error (errorOf_eq_some h)
  rw [← Mirrored.mutate_eq_self_iff herror, onAccounts, hafter]
  constructor
  · exact congrArg fun s : Stores ↦ s.accounts.dynamic
  · intro heq
    rw [heq]

theorem onAppPasswords_eq_self_iff {decision : Decision (Table (List AppPassword)) StoreError β}
    (h : (s.onAppPasswords fault decision).1 = some error) :
    (s.onAppPasswords fault decision).2 = s ↔ decision.Leaves s.appPasswords.memory := by
  rw [← Mirrored.mutate_eq_self_iff (errorOf_eq_some h), onAppPasswords]
  constructor
  · exact congrArg fun s : Stores ↦ s.appPasswords
  · intro heq
    rw [heq]

theorem onMasked_eq_self_iff {decision : Decision (Table MaskedAddress) StoreError β}
    (h : (s.onMasked fault decision).1 = some error) :
    (s.onMasked fault decision).2 = s ↔ decision.Leaves s.accounts.masked.entries.memory := by
  rw [← Mirrored.mutate_eq_self_iff (errorOf_eq_some h), onMasked]
  constructor
  · exact congrArg fun s : Stores ↦ s.accounts.masked.entries
  · intro heq
    rw [heq]

end Stores

/-- **A call that fails changes nothing**, neither in memory nor in a file nor in the published
directory, if and only if its checks have refused it or what it would set was set already. -/
theorem Mutation.run_eq_self_iff (u : Unicode) (cidrOk : Text → Bool) (fault : Option StoreError)
    (s : Stores) (mutation : Mutation) {error : StoreError}
    (h : (mutation.run u cidrOk fault s).1 = some error) :
    (mutation.run u cidrOk fault s).2 = s ↔ mutation.Harmless u cidrOk s := by
  cases mutation with
  | add account => exact (Stores.onAccounts_eq_self_iff h).trans AccountStore.leaves_add_iff
  | remove name => exact (Stores.onAccounts_eq_self_iff h).trans AccountStore.leaves_remove_iff
  | setPasswordHash name hash scram =>
    refine ((Stores.onAccounts_eq_self_iff h).trans AccountStore.leaves_update_iff).trans ?_
    exact forall₂_congr fun account _ ↦ by cases account; simp [eq_comm]
  | setTotp name secret | setDisabled name disabled =>
    refine ((Stores.onAccounts_eq_self_iff h).trans AccountStore.leaves_update_iff).trans ?_
    exact forall₂_congr fun account _ ↦ by cases account; simp [eq_comm]
  | replaceAccount name replacement =>
    exact (Stores.onAccounts_eq_self_iff h).trans AccountStore.leaves_replaceAccount_iff
  | addAppPassword account password =>
    exact (Stores.onAppPasswords_eq_self_iff h).trans AppPasswordStore.leaves_add_iff
  | removeAppPassword account label =>
    exact (Stores.onAppPasswords_eq_self_iff h).trans AppPasswordStore.leaves_remove_iff
  | addMasked account label domain now suffix secondSuffix =>
    exact (Stores.onMasked_eq_self_iff h).trans MaskedAddressStore.leaves_add_iff
  | setMaskedEnabled account address enabled =>
    exact (Stores.onMasked_eq_self_iff h).trans MaskedAddressStore.leaves_setEnabled_iff
  | removeMasked account address =>
    exact (Stores.onMasked_eq_self_iff h).trans MaskedAddressStore.leaves_remove_iff

def Stores.empty : Stores := ⟨.empty, ⟨∅, ∅⟩⟩

theorem Mutation.run_eq_self_iff_unknown :
    let after := (Mutation.remove "bob".toList).run .ascii (fun _ ↦ true) (some .io) .empty
    after.1 = some (.notFound "bob".toList) ∧ after.2 = .empty :=
  ⟨by decide,
    (run_eq_self_iff .ascii (fun _ ↦ true) (some .io) .empty (.remove "bob".toList) rfl).mpr nofun⟩

/-- Bob cannot be added, as the file cannot be written, and is there when somebody else is added. -/
theorem failed_add_takes_effect :
    let failed := (Mutation.add AccountStore.bob).run .ascii (fun _ ↦ true) (some .io) .empty
    let later := (Mutation.add { AccountStore.bob with
      name := "alice".toList, addresses := ["alice@x.org".toList] }).run .ascii (fun _ ↦
        true) none failed.2
    failed.1 = some .io ∧ failed.2 ≠ .empty ∧ later.1 = none ∧
      later.2.accounts.published.resolve ⟨"bob".toList, "x.org".toList⟩ =
        .account "bob".toList := by
  refine ⟨by decide, fun heq ↦ ?_, by decide, by decide⟩
  have hlength := congrArg (fun s : Stores ↦ s.accounts.dynamic.memory.length) heq
  revert hlength
  decide

end Epistle.DirectoryStore
