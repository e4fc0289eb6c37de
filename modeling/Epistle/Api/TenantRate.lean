import Epistle.Api.TenantUsage
import Epistle.Smtp.RateLimit

/-!
# Submissions of tenants

A submission counts for every tenant that owns an address of the account. The tenants are asked one
after the other, and each counts before the next one is asked. So when one of them refuses, those
before it have counted the submission all the same. A refusal costs nothing only if none of these
has a limit (`rate_iff`).
-/

namespace Epistle.Api

open TextFormat Smtp

/-- The states of the tenants' limiters, by the places of the tenants. -/
abbrev Limiters : Type := ℕ → Text → Option (ℕ × ℕ)

def Limiters.at (limiters : Limiters) (index : ℕ) : SendLimiter :=
  { SendLimiter.new 60 with state := limiters index }

namespace TenantLimits

variable (tenants : TenantLimits)

/-- The tenant that an address belongs to. -/
def owner (raw : Text) : Option ℕ := (rsplitOnce '@' raw).bind fun parts ↦ tenants.byDomain parts.2

/-- What the limiter of a tenant is asked with, if it has one. -/
def rate (index : ℕ) : Option (Text × ℕ) :=
  tenants[index]?.bind fun tenant ↦
    tenant.submissionRateLimitPerMin.map fun perMin ↦ (tenant.label, perMin)

def checkRates (now : ℕ) : List ℕ → Limiters → Except Text Unit × Limiters
  | [], limiters => (.ok (), limiters)
  | index :: rest, limiters =>
    match tenants.rate index with
    | none => checkRates now rest limiters
    | some (label, perMin) =>
      let r := (limiters.at index).check label perMin now
      let limiters := Function.update limiters index r.2.state
      if r.1 then checkRates now rest limiters
      else (.error ("tenant \"".toList ++ label ++ "\" submission rate limit exceeded".toList),
        limiters)

def checkAggregateRate (accountAddresses : List Text) (now : ℕ) (limiters : Limiters) :
    Except Text Unit × Limiters :=
  tenants.checkRates now (tenants.tenantsForAddresses accountAddresses) limiters

/-- The results of calls, each for the addresses of an account at some time. -/
def results : List (List Text × ℕ) → Limiters → List (Except Text Unit)
  | [], _ => []
  | call :: calls, limiters =>
    (tenants.checkAggregateRate call.1 call.2 limiters).1 ::
      results calls (tenants.checkAggregateRate call.1 call.2 limiters).2

/-- The limit of a tenant. Zero is none. -/
def limit (index : ℕ) : Option (Text × ℕ) := (tenants.rate index).filter (0 < ·.2)

variable (now : ℕ) (limiters : Limiters)

def full (index : ℕ) : Bool :=
  (tenants.limit index).any fun r ↦ r.2 ≤ ((limiters.at index).window r.1 now).2

/-- The limiter of a tenant that has counted a submission. -/
def counted (index : ℕ) : Text → Option (ℕ × ℕ) :=
  (tenants.limit index).elim (limiters index) fun r ↦
    ((limiters.at index).put r.1 (((limiters.at index).window r.1 now).map id (· + 1))).state

/-- The tenants of the addresses that come before the first full one. -/
def ahead (addresses : List Text) : List ℕ :=
  (tenants.tenantsForAddresses addresses).takeWhile fun index ↦ !tenants.full now limiters index

variable {tenants now limiters}

variable (tenants) in
theorem tenantsForAddresses_spec (addresses : List Text) :
    (tenants.tenantsForAddresses addresses).Nodup ∧ ∀ index,
      index ∈ tenants.tenantsForAddresses addresses ↔
        ∃ raw ∈ addresses, tenants.owner raw = some index := by
  induction addresses using List.reverseRecOn with
  | nil => simp [tenantsForAddresses]
  | append_singleton addresses raw ih =>
    have hpush : tenants.tenantsForAddresses (addresses ++ [raw]) = (tenants.owner raw).elim
        (tenants.tenantsForAddresses addresses) fun index ↦
          if index ∈ tenants.tenantsForAddresses addresses then
            tenants.tenantsForAddresses addresses
          else tenants.tenantsForAddresses addresses ++ [index] := by
      rw [tenantsForAddresses, List.foldl_append, List.foldl_cons, List.foldl_nil, owner]
      cases (rsplitOnce '@' raw).bind _ <;> rfl
    rw [hpush]
    cases howner : tenants.owner raw with
    | none => simpa [or_and_right, exists_or, howner] using ih
    | some owner =>
      rw [Option.elim_some]
      split <;> grind

/-! ## What a call counts -/

theorem put_window {limiter : SendLimiter} {key : Text} (h : 0 < (limiter.window key now).2) :
    limiter.put key (limiter.window key now) = limiter := by
  rw [SendLimiter.window] at h ⊢
  split at h
  · cases h
  next start count hstate =>
    split at h
    · cases h
    next hnow => rw [SendLimiter.put, if_neg hnow, ← hstate, Function.update_eq_self]

variable (tenants now) in
theorem checkRates_cons {current : Limiters} {first : ℕ} (h : current first = limiters first)
    (rest : List ℕ) :
    (tenants.full now limiters first = true →
      ∃ error, tenants.checkRates now (first :: rest) current = (.error error, current)) ∧
    (tenants.full now limiters first = false → tenants.checkRates now (first :: rest) current =
      tenants.checkRates now rest
        (Function.update current first (tenants.counted now limiters first))) := by
  have hat : current.at first = limiters.at first := by rw [Limiters.at, h, Limiters.at]
  rw [checkRates, full, counted, limit, hat]
  cases tenants.rate first with
  | none => simp [← h]
  | some r =>
    rcases Nat.eq_zero_or_pos r.2 with hzero | hpos
    · simp [Option.filter_some, hzero, SendLimiter.check, Limiters.at, ← h]
    · simp only [Option.filter_some, hpos, decide_true, if_true, Option.any_some, decide_eq_true_eq,
        decide_eq_false_iff_not, Option.elim_some]
      refine ⟨fun hfull ↦ ?_, fun hroom ↦ ?_⟩
      · rw [SendLimiter.check_of_full hpos (by omega), put_window (by omega), Limiters.at, ← h,
          Function.update_eq_self]
        exact ⟨_, rfl⟩
      · rw [SendLimiter.check_of_room (by omega)]
        rfl

/-- The tenants are asked up to the first full one. -/
theorem checkRates_spec {indices : List ℕ} (hnodup : indices.Nodup) {current : Limiters}
    (hcurrent : ∀ index ∈ indices, current index = limiters index) :
    ((tenants.checkRates now indices current).1 = .ok () ↔
      ∀ index ∈ indices, tenants.full now limiters index = false) ∧
    ∀ index, (tenants.checkRates now indices current).2 index =
      if index ∈ indices.takeWhile fun index ↦ !tenants.full now limiters index then
        tenants.counted now limiters index else current index := by
  induction indices generalizing current with
  | nil => simp [checkRates]
  | cons first rest ih =>
    obtain ⟨hfirst, hrest⟩ := List.nodup_cons.1 hnodup
    obtain ⟨hrefused, hnext⟩ :=
      checkRates_cons tenants now (hcurrent first List.mem_cons_self) rest
    cases hfull : tenants.full now limiters first with
    | true =>
      obtain ⟨error, heq⟩ := hrefused hfull
      simp [heq, hfull]
    | false =>
      have hothers : ∀ index ∈ rest, Function.update current first
          (tenants.counted now limiters first) index = limiters index := by grind
      obtain ⟨hok, hafter⟩ := ih hrest hothers
      rw [hnext hfull]
      refine ⟨by simpa [hfull] using hok, fun index ↦ ?_⟩
      rw [hafter, List.takeWhile_cons_of_pos (by simp [hfull])]
      by_cases heq : index = first <;> simp [heq]

variable (tenants now limiters) in
theorem checkAggregateRate_spec (addresses : List Text) :
    ((tenants.checkAggregateRate addresses now limiters).1 = .ok () ↔
      ∀ index ∈ tenants.tenantsForAddresses addresses, tenants.full now limiters index = false) ∧
    ∀ index, (tenants.checkAggregateRate addresses now limiters).2 index =
      if index ∈ tenants.ahead now limiters addresses then tenants.counted now limiters index
      else limiters index :=
  checkRates_spec (tenants.tenantsForAddresses_spec addresses).1 fun _ _ ↦ rfl

/-! ## What later calls show -/

section

variable {index : ℕ} {r : Text × ℕ} (hlimit : tenants.limit index = some r)
include hlimit

theorem full_iff : tenants.full now limiters index = true ↔
    r.2 ≤ ((limiters.at index).window r.1 now).2 := by
  simp [full, hlimit]

theorem window_of_counted {limiters' : Limiters}
    (h : limiters' index = tenants.counted now limiters index) :
    ((limiters'.at index).window r.1 now).2 = ((limiters.at index).window r.1 now).2 + 1 := by
  have hstart : ¬ now - ((limiters.at index).window r.1 now).1 ≥ 60 := by
    rw [SendLimiter.window]
    split
    · simp
    · split
      · simp
      · assumption
  have hstate : (limiters'.at index).state (toAsciiLowercase r.1) =
      some (((limiters.at index).window r.1 now).map id (· + 1)) := by
    rw [Limiters.at, h, counted, hlimit]
    exact Function.update_self _ _ _
  rw [SendLimiter.window, hstate]
  exact congrArg Prod.snd (if_neg hstart)

variable (now) in
/-- One more submission counted is one less that is accepted. -/
theorem exists_results_ne {raw : Text} (howner : tenants.owner raw = some index) (left : ℕ) :
    ∀ {l l' : Limiters}, ((l.at index).window r.1 now).2 + left + 1 = r.2 →
      ((l'.at index).window r.1 now).2 + left = r.2 →
      ∃ calls, tenants.results calls l ≠ tenants.results calls l' := by
  have hindices : tenants.tenantsForAddresses [raw] = [index] := by
    rw [owner] at howner
    simp [tenantsForAddresses, howner]
  have hresult : ∀ l, (tenants.checkAggregateRate [raw] now l).1 = .ok () ↔
      ((l.at index).window r.1 now).2 < r.2 := by
    intro l
    rw [(tenants.checkAggregateRate_spec now l [raw]).1, hindices, List.forall_mem_singleton,
      ← Bool.not_eq_true, full_iff hlimit, not_le]
  have hcount : ∀ l : Limiters, ((l.at index).window r.1 now).2 < r.2 →
      (((tenants.checkAggregateRate [raw] now l).2.at index).window r.1 now).2 =
        ((l.at index).window r.1 now).2 + 1 := by
    intro l hless
    refine window_of_counted hlimit ?_
    have hfull : tenants.full now l index = false := by
      rwa [← Bool.not_eq_true, full_iff hlimit, not_le]
    rw [(tenants.checkAggregateRate_spec now l [raw]).2, ahead, hindices]
    simp [hfull]
  induction left with
  | zero =>
    intro l l' hl hl'
    refine ⟨[([raw], now)], fun h ↦ ?_⟩
    have hok := (hresult l).2 (by omega)
    rw [(List.cons.inj h).1, hresult l'] at hok
    omega
  | succ left ih =>
    intro l l' hl hl'
    have hafter := hcount l (by omega)
    have hafter' := hcount l' (by omega)
    obtain ⟨calls, hne⟩ := @ih (tenants.checkAggregateRate [raw] now l).2
      (tenants.checkAggregateRate [raw] now l').2 (by omega) (by omega)
    exact ⟨([raw], now) :: calls, fun h ↦ hne (List.cons.inj h).2⟩

end

/-- **What a refused submission costs.** Whatever the limiters have counted, later calls have the
results that they would have without the refused one if and only if no tenant with a limit comes
before the one that refuses. A submission that is accepted is counted once by each tenant of the
addresses. -/
theorem rate_iff (tenants : TenantLimits) (limiters : Limiters) (addresses : List Text) (now : ℕ) :
    let r := tenants.checkAggregateRate addresses now limiters
    ((r.1 ≠ .ok () → ∀ later, tenants.results later r.2 = tenants.results later limiters) ↔
      ((∃ index ∈ tenants.tenantsForAddresses addresses, tenants.full now limiters index = true) →
        ∀ index ∈ tenants.ahead now limiters addresses, tenants.limit index = none)) ∧
    (r.1 = .ok () → ∀ index, r.2 index =
      if ∃ raw ∈ addresses, tenants.owner raw = some index then tenants.counted now limiters index
      else limiters index) := by
  intro r
  obtain ⟨hok, hafter⟩ := tenants.checkAggregateRate_spec now limiters addresses
  have hmem := (tenants.tenantsForAddresses_spec addresses).2
  have hrefused : r.1 ≠ .ok () ↔
      ∃ index ∈ tenants.tenantsForAddresses addresses, tenants.full now limiters index = true := by
    rw [ne_eq, hok]
    simp
  rw [← hrefused]
  refine ⟨forall_congr' fun _ ↦ ⟨fun h index hindex ↦ ?_, fun h later ↦ ?_⟩,
    fun haccepted index ↦ ?_⟩
  · -- a tenant that has counted the refused submission accepts one less
    rw [Option.eq_none_iff_forall_not_mem]
    intro x hx
    have hroom := List.mem_takeWhile_imp hindex
    rw [Bool.not_eq_true', ← Bool.not_eq_true, full_iff hx] at hroom
    obtain ⟨raw, -, howner⟩ := (hmem index).1 ((List.takeWhile_sublist _).subset hindex)
    have hcount : ((r.2.at index).window x.1 now).2 = ((limiters.at index).window x.1 now).2 + 1 :=
      window_of_counted hx ((hafter index).trans (if_pos hindex))
    obtain ⟨later, hne⟩ : ∃ later, tenants.results later limiters ≠ tenants.results later r.2 :=
      exists_results_ne now hx howner (x.2 - ((limiters.at index).window x.1 now).2 - 1) (by omega)
        (by omega)
    exact hne (h later).symm
  · have hsame : r.2 = limiters := by
      funext index
      rw [hafter]
      split
      next hindex => rw [counted, h index hindex, Option.elim_none]
      next => rfl
    rw [hsame]
  · rw [hafter, ahead, List.takeWhile_eq_self_iff.2 fun i hi ↦ by simp [hok.1 haccepted i hi]]
    simp only [hmem]

/-- The second tenant refuses the submission, and the first has counted it. -/
theorem refused_counted :
    let tenants : TenantLimits :=
      [⟨none, ["a".toList], none, some 1⟩, ⟨none, ["b".toList], none, some 1⟩]
    let limiters := (tenants.checkAggregateRate ["v@b".toList] 0 fun _ _ ↦ none).2
    let r := tenants.checkAggregateRate ["u@a".toList, "u@b".toList] 0 limiters
    r.1 ≠ .ok () ∧ tenants.results [(["w@a".toList], 0)] limiters = [.ok ()] ∧
      tenants.results [(["w@a".toList], 0)] r.2 ≠ [.ok ()] := by
  decide

end TenantLimits

end Epistle.Api
