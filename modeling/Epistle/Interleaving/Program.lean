import Mathlib.Control.Lawful
import Mathlib.Data.Nat.Basic
import Mathlib.Logic.Function.Basic

/-!
# Programs over a shared store

A program is a tree of calls: it names an operation, receives the operation's answer and goes on
from there, until it returns a value. The store is not part of a program. What an operation does
to a store is given separately, by an *executor*, so that one program text serves both readings
used in this development: run to its end on a store nobody else touches, and run one call at a
time between the calls of other programs.

## Two properties of a program text

`Prog.Only p` says that every call the program can make, whatever answers it gets, satisfies `p`.
It is a property of the text alone, and it is how a program is shown to be irrelevant to an
invariant that only certain calls can break. `Prog.Returns R` says that every value the program can
return, again whatever answers it gets, satisfies `R`.
-/

namespace Interleaving

universe u v

variable {Op : Type u} {Ans : Op → Type} {σ : Type} {α β γ : Type}

/-- A program that calls operations `o : Op`, each answered by an `Ans o`, and returns an `α`. -/
inductive Prog {Op : Type u} (Ans : Op → Type) (α : Type) : Type u
  /-- The program is over. -/
  | ret (a : α)
  /-- Call `o` and continue with its answer. -/
  | call (o : Op) (k : Ans o → Prog Ans α)

namespace Prog

/-- Run `p`, then the program its value selects. -/
protected def bind : Prog Ans α → (α → Prog Ans β) → Prog Ans β
  | ret a, f => f a
  | call o k, f => call o fun r ↦ (k r).bind f

instance : Monad (Prog Ans) where
  pure := ret
  bind := Prog.bind

/-- The program that makes one call and returns its answer. -/
def op (o : Op) : Prog Ans (Ans o) := call o ret

@[simp] theorem pure_eq_ret (a : α) : (pure a : Prog Ans α) = ret a := rfl

@[simp] theorem ret_bind (a : α) (f : α → Prog Ans β) : (ret a : Prog Ans α) >>= f = f a := rfl

@[simp] theorem call_bind (o : Op) (k : Ans o → Prog Ans α) (f : α → Prog Ans β) :
    call o k >>= f = call o fun r ↦ k r >>= f := rfl

@[simp] theorem op_bind (o : Op) (f : Ans o → Prog Ans β) : (op o : Prog Ans _) >>= f = call o f :=
  rfl

private theorem bind_ret (p : Prog Ans α) : p >>= (fun a ↦ ret a) = p := by
  induction p with
  | ret a => rfl
  | call o k ih =>
    exact congrArg (call o) (funext ih)

private theorem bind_bind (p : Prog Ans α) (f : α → Prog Ans β) (g : β → Prog Ans γ) :
    p >>= f >>= g = p >>= fun a ↦ f a >>= g := by
  induction p with
  | ret a => rfl
  | call o k ih =>
    exact congrArg (call o) (funext ih)

instance : LawfulMonad (Prog Ans) :=
  LawfulMonad.mk' _ bind_ret (fun _ _ ↦ rfl) bind_bind

/-! ## Running a program alone -/

/-- Run `p` to its end on a store that nobody else touches. -/
def run (exec : (o : Op) → σ → Ans o × σ) : Prog Ans α → σ → α × σ
  | ret a, s => (a, s)
  | call o k, s => (k (exec o s).1).run exec (exec o s).2

variable (exec : (o : Op) → σ → Ans o × σ)

@[simp] theorem run_ret (a : α) (s : σ) : (ret a : Prog Ans α).run exec s = (a, s) := rfl

@[simp] theorem run_call (o : Op) (k : Ans o → Prog Ans α) (s : σ) :
    (call o k).run exec s = (k (exec o s).1).run exec (exec o s).2 := rfl

@[simp] theorem run_op (o : Op) (s : σ) : (op o : Prog Ans _).run exec s = exec o s := rfl

@[simp] theorem run_bind (p : Prog Ans α) (f : α → Prog Ans β) (s : σ) :
    (p >>= f).run exec s = (f (p.run exec s).1).run exec (p.run exec s).2 := by
  induction p generalizing s with
  | ret a => rfl
  | call o k ih => rw [call_bind, run_call, run_call, ih]

/-! ## The calls a program can make -/

/-- Every call that `p` can make, whatever it is answered, satisfies `c`. -/
def Only (c : Op → Prop) : Prog Ans α → Prop
  | ret _ => True
  | call o k => c o ∧ ∀ r, (k r).Only c

variable {c : Op → Prop}

@[simp] theorem only_ret (a : α) : (ret a : Prog Ans α).Only c := trivial

@[simp] theorem only_call (o : Op) (k : Ans o → Prog Ans α) :
    (call o k).Only c ↔ c o ∧ ∀ r, (k r).Only c := .rfl

@[simp] theorem only_op (o : Op) : (op o : Prog Ans _).Only c ↔ c o := by
  exact and_iff_left fun _ ↦ trivial

theorem Only.bind {p : Prog Ans α} (hp : p.Only c) {f : α → Prog Ans β} (hf : ∀ a, (f a).Only c) :
    (p >>= f).Only c := by
  induction p with
  | ret a => exact hf a
  | call o k ih => exact ⟨hp.1, fun r ↦ ih r (hp.2 r)⟩

theorem Only.mono {c' : Op → Prop} {p : Prog Ans α} (hp : p.Only c) (h : ∀ o, c o → c' o) :
    p.Only c' := by
  induction p with
  | ret a => trivial
  | call o k ih => exact ⟨h o hp.1, fun r ↦ ih r (hp.2 r)⟩

/-- What every allowed call preserves, the whole run preserves. -/
theorem run_preserves {I : σ → Prop} (hI : ∀ o s, c o → I s → I (exec o s).2) {p : Prog Ans α}
    (hp : p.Only c) {s : σ} (hs : I s) : I (p.run exec s).2 := by
  induction p generalizing s with
  | ret a => exact hs
  | call o k ih => exact ih _ (hp.2 _) (hI o s hp.1 hs)

/-- From a state with `I` the program gets to one with `J`. -/
def Takes (I J : σ → Prop) (p : Prog Ans α) : Prop := ∀ s, I s → J (p.run exec s).2

variable {exec} {I J K : σ → Prop}

theorem Takes.ret {a : α} : (ret a : Prog Ans α).Takes exec I I := fun _ hs ↦ hs

theorem Takes.bind {p : Prog Ans α} (hp : p.Takes exec I J) {f : α → Prog Ans β}
    (hf : ∀ a, (f a).Takes exec J K) : (p >>= f).Takes exec I K := by
  intro s hs
  rw [run_bind]
  exact hf _ _ (hp s hs)

/-- A program that makes only calls that change nothing. -/
theorem Only.takes {p : Prog Ans α} (hp : p.Only c) (h : ∀ o s, c o → I s → I (exec o s).2) :
    p.Takes exec I I :=
  fun _ hs ↦ run_preserves exec h hp hs

variable (exec)

/-! ## The values a program can return -/

/-- Every value that `p` can return, whatever its calls are answered, satisfies `R`. -/
def Returns (R : α → Prop) : Prog Ans α → Prop
  | ret a => R a
  | call _ k => ∀ r, (k r).Returns R

variable {R : α → Prop}

@[simp] theorem returns_ret (a : α) : (ret a : Prog Ans α).Returns R ↔ R a := Iff.rfl

theorem Returns.bind {p : Prog Ans α} (hp : p.Returns R) {R' : β → Prop} {f : α → Prog Ans β}
    (hf : ∀ a, R a → (f a).Returns R') : (p >>= f).Returns R' := by
  induction p with
  | ret a => exact hf a hp
  | call o k ih => exact fun r ↦ ih r (hp r)

theorem Returns.mono {R' : α → Prop} {p : Prog Ans α} (hp : p.Returns R) (h : ∀ a, R a → R' a) :
    p.Returns R' := by
  induction p with
  | ret a => exact h a hp
  | call o k ih => exact fun r ↦ ih r (hp r)

/-- The calls of a program that goes on with a value of which something is known. -/
theorem Only.bind_of_returns {p : Prog Ans α} (hp : p.Only c) (hr : p.Returns R)
    {f : α → Prog Ans β} (hf : ∀ a, R a → (f a).Only c) : (p >>= f).Only c := by
  induction p with
  | ret a => exact hf a hr
  | call o k ih => exact ⟨hp.1, fun r ↦ ih r (hp.2 r) (hr r)⟩

/-- What holds of every value a program can return holds of the one it does return. -/
theorem Returns.run {p : Prog Ans α} (hp : p.Returns R) (s : σ) : R (p.run exec s).1 := by
  induction p generalizing s with
  | ret a => exact hp
  | call o k ih => exact ih _ (hp _) _

/-- Nothing is known of a value unless something is said. -/
theorem Returns.trivial (p : Prog Ans α) : p.Returns fun _ ↦ True := by
  induction p with
  | ret a => exact True.intro
  | call o k ih => exact ih

/-! ## Programs over another store -/

variable {Op' : Type v} {Ans' : Op' → Type}

/-- Replace every call by a program. -/
def lift (f : (o : Op) → Prog Ans' (Ans o)) : Prog Ans α → Prog Ans' α
  | ret a => ret a
  | call o k => f o >>= fun r ↦ (k r).lift f

variable (f : (o : Op) → Prog Ans' (Ans o))

@[simp] theorem lift_call (o : Op) (k : Ans o → Prog Ans α) :
    (call o k).lift f = f o >>= fun r ↦ (k r).lift f := rfl

/-- Running the translated program is running the program with each call executed by its
translation. -/
theorem run_lift (exec : (o : Op') → σ → Ans' o × σ) (p : Prog Ans α) (s : σ) :
    (p.lift f).run exec s = p.run (fun o ↦ (f o).run exec) s := by
  induction p generalizing s with
  | ret a => rfl
  | call o k ih => rw [lift_call, run_bind, run_call, ih]

theorem Returns.lift {p : Prog Ans α} (hp : p.Returns R) : (p.lift f).Returns R := by
  induction p with
  | ret a => exact hp
  | call o k ih => exact Returns.bind (.trivial _) fun r _ ↦ ih r (hp r)

end Prog

end Interleaving
