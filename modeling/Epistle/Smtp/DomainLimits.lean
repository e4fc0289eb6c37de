import Epistle.Smtp.Directory

/-!
# Quotas and rate limits of domains

An account has addresses in several domains, and each domain may have a quota and a rate limit.
The directory walks its address table and takes the first limit it meets. The table is a hash map,
so that the order of the walk is another one in each process and after each rebuild. Here the order
is that of the entries, and a table in another order has a permutation of them.
-/

namespace Epistle.Smtp

open TextFormat

/-! ## The first hit of a walk -/

/-- What a walk finds first is the same in every order exactly if all that it can find is equal. -/
theorem findSome?_eq_of_perm_iff {α β : Type} {found : α → Option β} {walk : List α} :
    (∀ walk' : List α, walk'.Perm walk → walk'.findSome? found = walk.findSome? found) ↔
      ∀ a ∈ walk, ∀ b ∈ walk, ∀ x y, found a = some x → found b = some y → x = y := by
  constructor
  · intro hsame a ha b hb x y hx hy
    -- A walk can be made to start at any entry.
    have hfirst : ∀ c ∈ walk, ∀ z, found c = some z → walk.findSome? found = some z := by
      intro c hc z hz
      obtain ⟨before, after, rfl⟩ := List.append_of_mem hc
      rw [← hsame _ List.perm_middle.symm, List.findSome?_cons, hz]
    exact Option.some.inj ((hfirst a ha x hx).symm.trans (hfirst b hb y hy))
  · intro hequal walk' hperm
    cases hfound : walk.findSome? found with
    | none =>
      rw [List.findSome?_eq_none_iff] at hfound ⊢
      exact fun a ha ↦ hfound a (hperm.mem_iff.1 ha)
    | some x =>
      obtain ⟨a, ha, hx⟩ := List.exists_of_findSome?_eq_some hfound
      obtain ⟨y, hy⟩ := Option.isSome_iff_exists.1 <|
        List.findSome?_isSome_iff.2 ⟨a, hperm.mem_iff.2 ha, Option.isSome_of_eq_some hx⟩
      obtain ⟨b, hb, hyb⟩ := List.exists_of_findSome?_eq_some hy
      rw [hy, hequal b (hperm.mem_iff.1 hb) a ha y x hyb hx]

namespace Directory

variable {limits : Table ℕ} {account : Text}

/-- The storage quotas, in bytes, of accounts and of domains. -/
structure Quotas where
  accountQuotas : Table ℕ
  domainQuotas : Table ℕ

/-- The limit an address gives the account: that of its domain, if the address is the account's. -/
def limitAt (limits : Table ℕ) (account : Text) (entry : (_ : Text) × Text) : Option ℕ :=
  if eqIgnoreAsciiCase entry.2 account then
    (rsplitOnce '@' entry.1).bind fun parts ↦ limits.lookup parts.2
  else none

def quotaFor (directory : Directory) (quotas : Quotas) (account : Text) : Option ℕ :=
  (quotas.accountQuotas.lookup (toAsciiLowercase account)).or <|
    directory.accountsByAddress.entries.findSome?
      (limitAt quotas.domainQuotas (toAsciiLowercase account))

/-- The same directory, whose address table is walked in the order of another table. -/
def walked (directory : Directory) (table : Table Text) : Directory :=
  { directory with accountsByAddress := table }

/-- No two addresses of the account are in domains with different limits. -/
def OneLimit (directory : Directory) (limits : Table ℕ) (account : Text) : Prop :=
  ∀ a ∈ directory.accountsByAddress.entries, ∀ b ∈ directory.accountsByAddress.entries,
    ∀ x y, limitAt limits account a = some x → limitAt limits account b = some y → x = y

theorem limitAt_toAsciiLowercase :
    limitAt limits (toAsciiLowercase account) = limitAt limits account := by
  funext entry
  rw [limitAt, limitAt, eqIgnoreAsciiCase, toAsciiLowercase_toAsciiLowercase, eqIgnoreAsciiCase]

/-- Every permutation of the entries of a table is the order of another table. -/
theorem forall_table_iff (table : Table Text) (P : List ((_ : Text) × Text) → Prop) :
    (∀ table' : Table Text, table'.entries.Perm table.entries → P table'.entries) ↔
      ∀ walk, walk.Perm table.entries → P walk :=
  ⟨fun h walk hperm ↦ h ⟨walk, (List.perm_nodupKeys hperm).2 table.nodupKeys⟩ hperm,
    fun h table' ↦ h table'.entries⟩

/-- In whatever order the addresses are walked, the quota is the same exactly if the account has one
of its own or its domains agree, and the submission limit exactly if they agree. -/
theorem sameLimits_iff (directory : Directory) (quotas : Quotas) (account : Text) :
    ((∀ table : Table Text, table.entries.Perm directory.accountsByAddress.entries →
        (directory.walked table).quotaFor quotas account = directory.quotaFor quotas account) ↔
      (quotas.accountQuotas.lookup (toAsciiLowercase account)).isSome ∨
        directory.OneLimit quotas.domainQuotas account) ∧
    ((∀ table : Table Text, table.entries.Perm directory.accountsByAddress.entries →
        (directory.walked table).submissionLimitFor account =
          directory.submissionLimitFor account) ↔
      directory.OneLimit directory.domainSubmissionLimits account) := by
  have hwalk (limits : Table ℕ) := (forall_table_iff directory.accountsByAddress fun walk ↦
    walk.findSome? (limitAt limits account) = directory.accountsByAddress.entries.findSome?
      (limitAt limits account)).trans findSome?_eq_of_perm_iff
  refine ⟨?_, hwalk directory.domainSubmissionLimits⟩
  simp only [quotaFor, walked, limitAt_toAsciiLowercase]
  cases quotas.accountQuotas.lookup (toAsciiLowercase account) with
  | some own => simp only [Option.some_or, implies_true, Option.isSome_some, true_or]
  | none =>
    simp only [Option.none_or, Option.isSome_none, Bool.false_eq_true, false_or]
    exact hwalk quotas.domainQuotas

/-- One account with an address in each of two domains. -/
def twoDomains : Directory :=
  { empty with
    accountsByAddress := ⟨[⟨"a@x".toList, "a".toList⟩, ⟨"a@y".toList, "a".toList⟩],
      List.nodup_cons.2 <| by decide⟩
    domainSubmissionLimits := ⟨[⟨"x".toList, 1⟩, ⟨"y".toList, 2⟩], List.nodup_cons.2 <| by decide⟩ }

/-- The table read backwards gives the account the quota and the rate of its other domain. -/
theorem twoDomains_reversed :
    let backwards : Table Text :=
      ⟨[⟨"a@y".toList, "a".toList⟩, ⟨"a@x".toList, "a".toList⟩], List.nodup_cons.2 <| by decide⟩
    let quotas : Quotas := ⟨∅, twoDomains.domainSubmissionLimits⟩
    backwards.entries.Perm twoDomains.accountsByAddress.entries ∧
      twoDomains.quotaFor quotas "a".toList = some 1 ∧
      (twoDomains.walked backwards).quotaFor quotas "a".toList = some 2 ∧
      twoDomains.submissionLimitFor "a".toList = some 1 ∧
      (twoDomains.walked backwards).submissionLimitFor "a".toList = some 2 := by
  decide

end Directory

end Epistle.Smtp
