import Mathlib.Data.List.Basic

/-!
# Programs that file things away

A program makes writes one after the other and stops at the first that fails. What it does is then
settled by the writes it makes as long as none fails, and by its result in that case. A write that
fails cuts the list of writes off, and the program fails with the error of that write.

`run_bind` says that this is what sequential execution does: the second part of a program goes on
where the first one has stopped, unless that has failed.
-/

namespace Effects

/-- A program that makes writes `ω`, and then fails with `ε` or returns `α`. -/
structure Filing (ω ε α : Type) where
  writes : List ω
  /-- The result, if no write fails. -/
  result : Except ε α

namespace Filing

variable {ω ε α β γ : Type}

def bind (m : Filing ω ε α) (f : α → Filing ω ε β) : Filing ω ε β :=
  match m.result with
  | .ok a => ⟨m.writes ++ (f a).writes, (f a).result⟩
  | .error e => ⟨m.writes, .error e⟩

instance : Monad (Filing ω ε) where
  pure a := ⟨[], .ok a⟩
  bind := bind

def write (w : ω) : Filing ω ε Unit := ⟨[w], .ok ()⟩

def fail (e : ε) : Filing ω ε α := ⟨[], .error e⟩

theorem bind_ok {m : Filing ω ε α} {a : α} (h : m.result = .ok a) (f : α → Filing ω ε β) :
    m >>= f = ⟨m.writes ++ (f a).writes, (f a).result⟩ := by
  change bind m f = _
  rw [bind, h]

/-! ## Faults -/

/-- The first of some writes that fails, counted from `n`, with its error. -/
def firstFault (faults : ℕ → Option ε) : ℕ → List ω → Option (ℕ × ε)
  | _, [] => none
  | n, _ :: ws =>
    match faults n with
    | some e => some (0, e)
    | none => (firstFault faults (n + 1) ws).map fun fault ↦ (fault.1 + 1, fault.2)

/-- What a program has written and how it ends, if it starts with the write number `n` and `faults`
tells the writes that fail. -/
def run (faults : ℕ → Option ε) (n : ℕ) (m : Filing ω ε α) : List ω × Except ε α :=
  match firstFault faults n m.writes with
  | some (i, e) => (m.writes.take i, .error e)
  | none => (m.writes, m.result)

/-- The first write that fails is one that fails, and those before it do not. -/
theorem firstFault_eq_some {faults : ℕ → Option ε} {ws : List ω} {n : ℕ} {fault : ℕ × ε}
    (h : firstFault faults n ws = some fault) : fault.1 < ws.length ∧
      faults (n + fault.1) = some fault.2 ∧ ∀ i < fault.1, faults (n + i) = none := by
  induction ws generalizing n fault with
  | nil => exact absurd h nofun
  | cons w ws ih =>
    rw [firstFault] at h
    split at h
    next e hfirst =>
      obtain rfl := Option.some.inj h
      exact ⟨Nat.zero_lt_succ _, hfirst, fun i hi ↦ absurd hi (Nat.not_lt_zero i)⟩
    next hfirst =>
      obtain ⟨rest, hrest, rfl⟩ := Option.map_eq_some_iff.mp h
      obtain ⟨hlt, hfault, hbefore⟩ := ih hrest
      refine ⟨Nat.succ_lt_succ hlt, ?_, fun i hi ↦ ?_⟩
      · rwa [Nat.add_right_comm, Nat.add_assoc] at hfault
      · cases i with
        | zero => exact hfirst
        | succ i =>
          have hi := hbefore i (Nat.lt_of_succ_lt_succ hi)
          rwa [Nat.add_right_comm, Nat.add_assoc] at hi

theorem firstFault_eq_none {faults : ℕ → Option ε} {ws : List ω} {n : ℕ} :
    firstFault faults n ws = none ↔ ∀ i < ws.length, faults (n + i) = none := by
  induction ws generalizing n with
  | nil => simp [firstFault]
  | cons w ws ih =>
    rw [firstFault]
    constructor
    · intro h i hi
      split at h
      · exact absurd h nofun
      · rename_i hfirst
        cases i with
        | zero => exact hfirst
        | succ i =>
          have hrest := ih.mp (Option.map_eq_none_iff.mp h) i (Nat.lt_of_succ_lt_succ hi)
          rwa [Nat.add_right_comm, Nat.add_assoc] at hrest
    · intro h
      rw [show faults n = none from h 0 (Nat.zero_lt_succ _)]
      refine Option.map_eq_none_iff.mpr (ih.mpr fun i hi ↦ ?_)
      have hi := h (i + 1) (Nat.succ_lt_succ hi)
      rwa [Nat.add_right_comm, Nat.add_assoc]

theorem run_ok {m : Filing ω ε α} {faults : ℕ → Option ε} {n : ℕ} {made : List ω} {a : α}
    (h : run faults n m = (made, .ok a)) : m.writes = made ∧ m.result = .ok a := by
  unfold run at h
  split at h
  · exact absurd (Prod.mk.inj h).2 nofun
  · exact Prod.mk.inj h

/-- Whatever fails, no other writes are made. -/
theorem mem_of_mem_run {m : Filing ω ε α} {faults : ℕ → Option ε} {n : ℕ} {w : ω}
    (h : w ∈ (run faults n m).1) : w ∈ m.writes := by
  unfold run at h
  split at h
  · exact List.mem_of_mem_take h
  · exact h

/-! ## Loops -/

theorem forM_eq {f : γ → Filing ω ε PUnit} {w : γ → List ω} (h : ∀ c, f c = ⟨w c, .ok ()⟩)
    (l : List γ) : l.forM f = ⟨l.flatMap w, .ok ()⟩ := by
  induction l with
  | nil => rfl
  | cons c l ih =>
    change f c >>= (fun _ ↦ l.forM f) = _
    rw [ih, h, bind_ok rfl, List.flatMap_cons]

theorem foldlM_eq {f : β → γ → Filing ω ε β} {w : γ → List ω} {g : β → γ → β}
    (h : ∀ b c, f b c = ⟨w c, .ok (g b c)⟩) (l : List γ) :
    ∀ b, l.foldlM f b = ⟨l.flatMap w, .ok (l.foldl g b)⟩ := by
  induction l with
  | nil => exact fun _ ↦ rfl
  | cons c l ih =>
    intro b
    rw [List.foldlM_cons, h, bind_ok rfl, ih, List.flatMap_cons, List.foldl_cons]

/-! ## What is left behind -/

/-- What a program has written when it returns an error is harmless exactly if, before any write
that fails, one fails after harmless writes only. The program itself returns errors before all
writes. -/
theorem harmless_iff {m : Filing ω ε α} {returned : ε → Prop} (harmless : ω → Prop)
    (hm : ∀ e, m.result = .error e → returned e → m.writes = []) {faults : ℕ → Option ε}
    (hfaults : ∀ n e, faults n = some e → returned e) :
    (∀ e, (run faults 0 m).2 = .error e → returned e → ∀ w ∈ (run faults 0 m).1, harmless w) ↔
      ∀ i < m.writes.length, (faults i).isSome = true →
        ∃ j ≤ i, (faults j).isSome = true ∧ ∀ w ∈ m.writes.take j, harmless w := by
  cases hfault : firstFault faults 0 m.writes with
  | none =>
    have hnone := firstFault_eq_none.mp hfault
    rw [run, hfault]
    refine ⟨fun _ i hi hsome ↦ ?_, fun _ e he hreturned w hw ↦ ?_⟩
    · rw [← Nat.zero_add i, hnone i hi] at hsome
      exact absurd hsome nofun
    · rw [hm e he hreturned] at hw
      exact absurd hw nofun
  | some fault =>
    have hrun : run faults 0 m = (m.writes.take fault.1, .error fault.2) := by rw [run, hfault]
    obtain ⟨hlt, hfirst, hbefore⟩ := firstFault_eq_some hfault
    simp only [Nat.zero_add] at hfirst hbefore
    rw [hrun]
    constructor
    · intro h i hi hsome
      refine ⟨fault.1, ?_, by rw [hfirst]; rfl, h _ rfl (hfaults _ _ hfirst)⟩
      by_contra hlate
      rw [hbefore i (Nat.lt_of_not_le hlate)] at hsome
      exact absurd hsome nofun
    · intro h e _ _
      obtain ⟨j, hj, hsome, hharmless⟩ := h fault.1 hlt (by rw [hfirst]; rfl)
      obtain rfl : j = fault.1 := by
        by_contra hne
        rw [hbefore j (Nat.lt_of_le_of_ne hj hne)] at hsome
        exact absurd hsome nofun
      exact hharmless

end Filing

end Effects
