import Epistle.Interleaving.Program

/-!
# Sessions sharing one store

Any number of sessions run programs against one store. Each session is either idle, holding the
value its last program returned, or in the middle of a program. The scheduler is free: at every
point it may start a command in an idle session, let one session make its next call, or crash the
process. A crash forgets every session and keeps the store.

A step is a partial function of the configuration and the event, so that a schedule can be
executed; `Schedule.Reach` is the set of configurations that schedules reach.

## Monitors

A *monitor* watches a schedule. It keeps a history variable that the program cannot see, updates it
at every step, and says which steps it lets pass. Runs that a monitor lets pass are how a property
that only holds of some schedules is stated: the condition is on the state and the history before
each step.
-/

namespace Interleaving

variable {Op : Type} {Ans : Op → Type} {σ α Cmd γ : Type}

/-- Sessions of commands `Cmd` over a store `σ`. Session values are of type `α`. -/
structure System {Op : Type} (Ans : Op → Type) (σ α Cmd : Type) where
  /-- The effect and the answer of an operation. -/
  exec : (o : Op) → σ → Ans o × σ
  /-- The program a command runs, from the value its session holds. -/
  body : Cmd → α → Prog Ans α
  /-- The value a fresh session holds. -/
  idle : α

/-- A scheduler's choice. -/
inductive Event (Cmd : Type)
  | start (s : ℕ) (c : Cmd)
  /-- Let a session make its next call. -/
  | run (s : ℕ)
  /-- Stop the process: all sessions are lost, the store is not. -/
  | crash

/-- What a step did, as a monitor sees it. -/
inductive Label (Op Cmd : Type)
  | start (s : ℕ) (c : Cmd)
  | act (s : ℕ) (o : Op)
  | crash

/-- The store, what each session is doing and everything sessions have returned so far. -/
structure Config {Op : Type} (Ans : Op → Type) (σ α : Type) where
  store : σ
  sess : ℕ → Prog Ans α
  returned : List α

namespace Prog

def value? : Prog Ans α → List α
  | ret a => [a]
  | call _ _ => []

@[simp] theorem mem_value? {p : Prog Ans α} {a : α} : a ∈ p.value? ↔ p = ret a := by
  cases p with
  | ret b => simp [value?, eq_comm]
  | call o k => simp [value?]

end Prog

namespace Config

/-- Session `s` goes on with `p`, on the store `d`. A program that is over returns its value. -/
def advance (c : Config Ans σ α) (d : σ) (s : ℕ) (p : Prog Ans α) : Config Ans σ α where
  store := d
  sess := Function.update c.sess s p
  returned := c.returned ++ p.value?

section

variable (c : Config Ans σ α) (d : σ)

@[simp] theorem advance_store (s : ℕ) (p : Prog Ans α) :
    (c.advance d s p).store = d := rfl

@[simp] theorem advance_sess_self (s : ℕ) (p : Prog Ans α) :
    (c.advance d s p).sess s = p := Function.update_self ..

theorem advance_sess_of_ne {s t : ℕ} (p : Prog Ans α) (h : t ≠ s) :
    (c.advance d s p).sess t = c.sess t := Function.update_of_ne h ..

end

theorem mem_advance_returned {c : Config Ans σ α} {d : σ} {s : ℕ} {p : Prog Ans α} {a : α} :
    a ∈ (c.advance d s p).returned ↔ a ∈ c.returned ∨ p = .ret a := by
  rw [advance, List.mem_append, Prog.mem_value?]

end Config

namespace System

variable (S : System Ans σ α Cmd)

/-- The configuration with nothing started on `d`. -/
def init (d : σ) : Config Ans σ α where
  store := d
  sess := fun _ ↦ .ret S.idle
  returned := []

/-- One step of a schedule, with its label; `none` when the event is not possible. -/
def step (c : Config Ans σ α) : Event Cmd → Option (Label Op Cmd × Config Ans σ α)
  | .start s cmd =>
    match c.sess s with
    | .ret a => some (.start s cmd, c.advance c.store s (S.body cmd a))
    | .call _ _ => none
  | .run s =>
    match c.sess s with
    | .ret _ => none
    | .call o k =>
      some (.act s o, c.advance (S.exec o c.store).2 s (k (S.exec o c.store).1))
  | .crash => some (.crash, { c with sess := fun _ ↦ .ret S.idle })

/-- The configuration a schedule leads to. -/
def runs (c : Config Ans σ α) : List (Event Cmd) → Option (Config Ans σ α)
  | [] => some c
  | e :: es =>
    match S.step c e with
    | some (_, c') => runs c' es
    | none => none

theorem step_cases {c c' : Config Ans σ α} {e : Event Cmd} {l : Label Op Cmd}
    (h : S.step c e = some (l, c')) :
    (∃ s cmd a, c.sess s = .ret a ∧ l = .start s cmd ∧
      c' = c.advance c.store s (S.body cmd a)) ∨
    (∃ s o k, c.sess s = .call o k ∧ l = .act s o ∧
      c' = c.advance (S.exec o c.store).2 s (k (S.exec o c.store).1)) ∨
    (l = .crash ∧ c' = { c with sess := fun _ ↦ .ret S.idle }) := by
  cases e with
  | start s cmd =>
    left
    rw [step] at h
    split at h
    next a ha =>
      cases h
      exact ⟨s, cmd, a, ha, rfl, rfl⟩
    next => cases h
  | run s =>
    right; left
    rw [step] at h
    split at h
    next => cases h
    next o k hs =>
      cases h
      exact ⟨s, o, k, hs, rfl, rfl⟩
  | crash =>
    right; right
    cases h
    exact ⟨rfl, rfl⟩

end System

/-- A history variable `γ` kept along a schedule, and the steps that are let pass. -/
structure Monitor (Op Cmd σ γ : Type) where
  first : γ
  next : γ → σ → Label Op Cmd → γ
  /-- Whether a step may be made on a store with this history. -/
  guard : γ → σ → Label Op Cmd → Prop

/-- The configurations, with their histories, that a schedule reaches from `d` by steps that the
monitor lets pass. -/
inductive Reach (S : System Ans σ α Cmd) (M : Monitor Op Cmd σ γ) (d : σ) :
    Config Ans σ α → γ → Prop
  | init : Reach S M d (S.init d) M.first
  | step {c c' : Config Ans σ α} {g : γ} {e : Event Cmd} {l : Label Op Cmd} :
      Reach S M d c g → S.step c e = some (l, c') → M.guard g c.store l →
      Reach S M d c' (M.next g c.store l)

/-- The configuration and the history a schedule leads to, if the monitor lets all of it pass. -/
def System.runsUnder (S : System Ans σ α Cmd) (M : Monitor Op Cmd σ γ)
    [∀ g d l, Decidable (M.guard g d l)] (c : Config Ans σ α) (g : γ) :
    List (Event Cmd) → Option (Config Ans σ α × γ)
  | [] => some (c, g)
  | e :: es =>
    match S.step c e with
    | some (l, c') =>
      if M.guard g c.store l then S.runsUnder M c' (M.next g c.store l) es else none
    | none => none

/-- Executing a schedule that the monitor lets pass reaches what it leads to. -/
theorem Reach.of_runsUnder {S : System Ans σ α Cmd} {M : Monitor Op Cmd σ γ}
    [∀ g d l, Decidable (M.guard g d l)] {d : σ} {es : List (Event Cmd)}
    {c c' : Config Ans σ α} {g g' : γ} (hc : Reach S M d c g)
    (h : S.runsUnder M c g es = some (c', g')) : Reach S M d c' g' := by
  induction es generalizing c g with
  | nil =>
    cases h
    exact hc
  | cons e es ih =>
    rw [System.runsUnder] at h
    split at h
    next l c₁ hstep =>
      split at h
      next hguard => exact ih (hc.step hstep hguard) h
      next => cases h
    next => cases h

end Interleaving
