import Epistle.Interleaving.Program

/-!
# Programs on a store whose calls may fail

A call that fails changes nothing and answers with a failure. Which calls fail is given in advance,
by their position in the run: the state that a program runs on is the store together with the number
of calls made so far. A statement about all patterns of failures quantifies over `fails : ℕ → Bool`.

`Prog.Throughout` says that something holds at every point of a run: at first, and after every call.
-/

namespace Interleaving

universe u

variable {Op : Type u} {Ans : Op → Type} {σ : Type} {α β : Type}

/-- Execute a call, or have it fail. -/
def faulty (exec : (o : Op) → σ → Ans o × σ) (failed : (o : Op) → Ans o) (fails : ℕ → Bool) (o : Op)
    (s : σ × ℕ) : Ans o × (σ × ℕ) :=
  if fails s.2 then (failed o, s.1, s.2 + 1) else ((exec o s.1).1, (exec o s.1).2, s.2 + 1)

namespace Prog

section Faulty

variable {exec : (o : Op) → σ → Ans o × σ} {failed : (o : Op) → Ans o} {fails : ℕ → Bool} {n : ℕ}

theorem run_call_of_fails (h : fails n = true) (o : Op) (k : Ans o → Prog Ans α) (s : σ) :
    (call o k).run (faulty exec failed fails) (s, n) =
      (k (failed o)).run (faulty exec failed fails) (s, n + 1) := by
  rw [run_call, faulty, if_pos h]

theorem run_call_of_works (h : fails n = false) (o : Op) (k : Ans o → Prog Ans α) (s : σ) :
    (call o k).run (faulty exec failed fails) (s, n) =
      (k (exec o s).1).run (faulty exec failed fails) ((exec o s).2, n + 1) := by
  have hnot : ¬ fails n = true := by simp [h]
  rw [run_call, faulty, if_neg hnot]

theorem preserves_faulty {I : σ → Prop} {o : Op} (h : ∀ s, I s → I (exec o s).2) {s : σ × ℕ}
    (hs : I s.1) : I (faulty exec failed fails o s).2.1 := by
  rw [faulty]
  split
  · exact hs
  · exact h s.1 hs

end Faulty

/-! ## Every point of a run -/

section Throughout

variable (exec : (o : Op) → σ → Ans o × σ)

/-- `I` holds at first and after every call of the run. -/
def Throughout (I : σ → Prop) : Prog Ans α → σ → Prop
  | ret _, s => I s
  | call o k, s => I s ∧ (k (exec o s).1).Throughout I (exec o s).2

variable {exec} {I J : σ → Prop}

theorem Throughout.mono (h : ∀ s, I s → J s) {p : Prog Ans α} {s : σ}
    (hp : p.Throughout exec I s) : p.Throughout exec J s := by
  induction p generalizing s with
  | ret a => exact h s hp
  | call o k ih => exact ⟨h s hp.1, ih _ hp.2⟩

theorem Throughout.bind {p : Prog Ans α} {f : α → Prog Ans β} {s : σ} (hp : p.Throughout exec I s)
    (hf : (f (p.run exec s).1).Throughout exec I (p.run exec s).2) :
    (p >>= f).Throughout exec I s := by
  induction p generalizing s with
  | ret a => exact hf
  | call o k ih => exact ⟨hp.1, ih _ hp.2 hf⟩

/-- What the program's calls preserve holds throughout. -/
theorem Only.throughout {c : Op → Prop} {p : Prog Ans α} (hp : p.Only c)
    (h : ∀ o s, c o → I s → I (exec o s).2) {s : σ} (hs : I s) : p.Throughout exec I s := by
  induction p generalizing s with
  | ret a => exact hs
  | call o k ih => exact ⟨hs, ih _ (hp.2 _) (h o s hp.1 hs)⟩

end Throughout

end Prog

end Interleaving
