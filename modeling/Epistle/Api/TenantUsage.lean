import Epistle.Text.Format

/-!
# Storage of tenants

The usage of a tenant is the sum of the usages of its accounts. But the usage of an account has all
of the pool of uploaded blobs in it, whoever uploaded them. So the blobs of all tenants count for
each tenant, once for each of its accounts. The sum is right only if there is nothing in the pool,
or if all of it belongs to the only account of the tenant (`usage_iff`).
-/

namespace Epistle.Api

open TextFormat

def saturatingAdd (a b : ℕ) : ℕ := min (2 ^ 64 - 1) (a + b)

/-- A configured tenant. -/
structure Tenant where
  name : Option Text
  domains : List Text
  quotaBytes : Option ℕ
  submissionRateLimitPerMin : Option ℕ

namespace Tenant

def label (tenant : Tenant) : Text := tenant.name.getD "<unnamed tenant>".toList

def ownsDomain (domain : Text) (tenant : Tenant) : Bool :=
  tenant.domains.any (eqIgnoreAsciiCase domain)

/-- Whether one of the addresses is in a domain of the tenant. -/
def touches (tenant : Tenant) (addresses : List Text) : Bool :=
  addresses.any fun raw ↦ (rsplitOnce '@' raw).any fun parts ↦ tenant.ownsDomain parts.2

end Tenant

/-- The tenants in configuration order. -/
abbrev TenantLimits : Type := List Tenant

namespace TenantLimits

/-- The tenant that a domain belongs to: the last one that has it. -/
def byDomain (tenants : TenantLimits) (domain : Text) : Option ℕ :=
  (List.range tenants.length).reverse.find? fun index ↦ tenants[index]?.any (·.ownsDomain domain)

/-- Every tenant that owns one of the addresses. -/
def tenantsForAddresses (tenants : TenantLimits) (addresses : List Text) : List ℕ :=
  addresses.foldl (fun result raw ↦
    match (rsplitOnce '@' raw).bind fun parts ↦ tenants.byDomain parts.2 with
    | none => result
    | some index => if index ∈ result then result else result ++ [index]) []

end TenantLimits

/-! ## Usage -/

/-- The files of an uploaded blob: their sizes, and the account in its `.owner` file. -/
structure Blob where
  payload : ℕ
  type : ℕ
  ownerFile : ℕ
  owner : Text

/-- What is stored: the accounts with their addresses, the mail of each, and the blobs. -/
structure Stored where
  accountViews : List (Text × List Text)
  accountUsage : Text → ℕ
  blobs : List Blob

def Blob.size (blob : Blob) : ℕ := blob.payload + blob.type + blob.ownerFile

def Stored.blobsUsageBytes (stored : Stored) : ℕ :=
  stored.blobs.foldl (fun total blob ↦
    [blob.payload, blob.type, blob.ownerFile].foldl saturatingAdd total) 0

def Stored.accountUsageBytes (stored : Stored) (account : Text) : ℕ :=
  saturatingAdd (stored.accountUsage account) stored.blobsUsageBytes

/-- The accounts that touch the tenant, each of them once. -/
def Tenant.accounts (tenant : Tenant) (stored : Stored) : List Text :=
  ((stored.accountViews.filter fun view ↦ tenant.touches view.2).map Prod.fst).dedup

def Tenant.usageBytes (tenant : Tenant) (stored : Stored) : ℕ :=
  (tenant.accounts stored).foldl (fun total name ↦
    saturatingAdd total (stored.accountUsageBytes name)) 0

def Tenant.checkQuota (tenant : Tenant) (stored : Stored) (additional : ℕ) : Except Text Unit :=
  match tenant.quotaBytes with
  | none => .ok ()
  | some cap =>
    if saturatingAdd (tenant.usageBytes stored) additional > cap then
      .error ("tenant \"".toList ++ tenant.label ++
        "\" has reached its aggregate storage cap of ".toList ++ decimal cap ++ " bytes".toList)
    else .ok ()

def TenantLimits.checkAggregateQuota (tenants : TenantLimits) (stored : Stored)
    (accountAddresses : List Text) (additional : ℕ) : Except Text Unit :=
  (tenants.tenantsForAddresses accountAddresses).forM fun index ↦
    tenants[index]?.elim (.ok ()) (·.checkQuota stored additional)

/-! ## What is counted -/

section

variable (tenant : Tenant) (stored : Stored)

/-- The size of the blobs that accounts of the tenant own. -/
def Tenant.owned : ℕ :=
  ((stored.blobs.filter fun blob ↦ blob.owner ∈ tenant.accounts stored).map Blob.size).sum

/-- The mail of the tenant's accounts and their blobs, in 64 bits. -/
def Tenant.trueUsage : ℕ :=
  min (2 ^ 64 - 1) (((tenant.accounts stored).map stored.accountUsage).sum + tenant.owned stored)

def Stored.pool : ℕ := (stored.blobs.map Blob.size).sum

/-- The condition: the tenant has no accounts, or nothing is uploaded, or it has one account and all
blobs are its own, or the usage does not fit into 64 bits anyway. -/
def Tenant.Apart : Prop :=
  tenant.accounts stored = [] ∨ stored.pool = 0 ∨
    (tenant.accounts stored).length = 1 ∧ tenant.owned stored = stored.pool ∨
    tenant.trueUsage stored = 2 ^ 64 - 1

variable {tenant stored}

theorem foldl_saturatingAdd {α : Type} (f : α → ℕ) (l : List α) (total : ℕ) :
    l.foldl (fun total x ↦ saturatingAdd total (f x)) (min (2 ^ 64 - 1) total) =
      min (2 ^ 64 - 1) (total + (l.map f).sum) := by
  induction l generalizing total with
  | nil => rfl
  | cons x l ih =>
    have hstep : saturatingAdd (min (2 ^ 64 - 1) total) (f x) = min (2 ^ 64 - 1) (total + f x) := by
      rw [saturatingAdd]
      omega
    rw [List.foldl_cons, hstep, ih, List.map_cons, List.sum_cons, Nat.add_assoc]

theorem blobsUsageBytes_eq : stored.blobsUsageBytes = min (2 ^ 64 - 1) stored.pool := by
  have hsum := foldl_saturatingAdd Blob.size stored.blobs 0
  rw [Nat.zero_add] at hsum
  rw [Stored.blobsUsageBytes, Stored.pool, ← hsum]
  congr 1
  funext total blob
  simp only [List.foldl_cons, List.foldl_nil, saturatingAdd, Blob.size]
  omega

theorem usageBytes_eq : tenant.usageBytes stored = min (2 ^ 64 - 1)
    (((tenant.accounts stored).map stored.accountUsage).sum +
      (tenant.accounts stored).length * stored.pool) := by
  have hsum := foldl_saturatingAdd stored.accountUsageBytes (tenant.accounts stored) 0
  rw [Nat.zero_add] at hsum
  refine hsum.trans ?_
  induction tenant.accounts stored with
  | nil => simp
  | cons name names ih =>
    simp only [List.map_cons, List.sum_cons, List.length_cons, Nat.succ_mul,
      Stored.accountUsageBytes, blobsUsageBytes_eq, saturatingAdd] at ih ⊢
    omega

theorem owned_le_pool : tenant.owned stored ≤ stored.pool :=
  (List.filter_sublist.map Blob.size).sum_le_sum fun _ _ ↦ Nat.zero_le _

theorem usageBytes_eq_trueUsage_iff :
    tenant.usageBytes stored = tenant.trueUsage stored ↔ tenant.Apart stored := by
  have hle : tenant.owned stored ≤ stored.pool := owned_le_pool
  rw [usageBytes_eq, Tenant.Apart, Tenant.trueUsage]
  cases haccounts : tenant.accounts stored with
  | nil =>
    have howned : tenant.owned stored = 0 := by simp [Tenant.owned, haccounts]
    simp [howned]
  | cons name names =>
    have hzero : names.length * stored.pool = 0 ↔ names.length = 0 ∨ stored.pool = 0 :=
      Nat.mul_eq_zero
    simp only [reduceCtorEq, false_or, List.length_cons, Nat.succ_mul]
    omega

/-- The usage is that of the tenant's own mail and blobs exactly under the condition. As long as it
is met, no upload or deletion by others changes what the quota check says. -/
theorem usage_iff (tenant : Tenant) (stored : Stored) :
    (tenant.usageBytes stored = tenant.trueUsage stored ↔ tenant.Apart stored) ∧
    ∀ blobs : List Blob, (blobs.filter fun blob ↦ blob.owner ∈ tenant.accounts stored) =
        (stored.blobs.filter fun blob ↦ blob.owner ∈ tenant.accounts stored) →
      tenant.Apart stored → tenant.Apart { stored with blobs } →
      ∀ (tenants : TenantLimits) (index additional : ℕ) (addresses : List Text),
        tenants[index]? = some tenant → tenants.tenantsForAddresses addresses = [index] →
        tenants.checkAggregateQuota { stored with blobs } addresses additional =
          tenants.checkAggregateQuota stored addresses additional := by
  refine ⟨usageBytes_eq_trueUsage_iff,
    fun blobs hown hbefore hafter tenants index additional addresses
    htenant hindex ↦ ?_⟩
  have haccounts : tenant.accounts { stored with blobs } = tenant.accounts stored := rfl
  have htrue : tenant.trueUsage { stored with blobs } = tenant.trueUsage stored := by
    rw [Tenant.trueUsage, Tenant.trueUsage, Tenant.owned, Tenant.owned, haccounts, hown]
  have husage : tenant.usageBytes { stored with blobs } = tenant.usageBytes stored := by
    rw [usageBytes_eq_trueUsage_iff.2 hafter, htrue, usageBytes_eq_trueUsage_iff.2 hbefore]
  have hcheck : tenant.checkQuota { stored with blobs } additional =
      tenant.checkQuota stored additional := by
    rw [Tenant.checkQuota, husage, Tenant.checkQuota]
  rw [TenantLimits.checkAggregateQuota, TenantLimits.checkAggregateQuota, hindex]
  change (tenants[index]?.elim _ _ >>= fun _ ↦ pure ()) =
    (tenants[index]?.elim _ _ >>= fun _ ↦ pure ())
  rw [htenant, Option.elim_some, Option.elim_some, hcheck]

/-- A tenant with one account, which is empty, and a blob of another tenant. -/
theorem usageBytes_foreign :
    let tenant : Tenant := ⟨none, ["a.org".toList], some 5, none⟩
    let other : Tenant := ⟨none, ["b.org".toList], none, none⟩
    let stored : Stored :=
      ⟨[("u".toList, ["u@a.org".toList]), ("v".toList, ["v@b.org".toList])], fun _ ↦ 0, []⟩
    let blob : Blob := ⟨7, 1, 1, "v".toList⟩
    tenant.trueUsage { stored with blobs := [blob] } = 0 ∧
      tenant.usageBytes { stored with blobs := [blob] } = 9 ∧
      TenantLimits.checkAggregateQuota [tenant, other] stored ["u@a.org".toList] 1 = .ok () ∧
      (TenantLimits.checkAggregateQuota [tenant, other] { stored with blobs := [blob] }
        ["u@a.org".toList] 1).toOption = none := by
  decide

end

end Epistle.Api
