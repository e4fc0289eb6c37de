/-!
# Values with a copy in a file

A value is kept in memory, and a file is written whenever it changes. A call first decides what to
do. If it changes the value, it does so in memory and then writes the file; the write can fail, and
a write that fails leaves the file as it was.

So a call that fails has left everything as it was, unless it failed because of the file and the
value had been changed (`Mirrored.mutate_eq_self_iff`).
-/

namespace Effects

/-- What a call decides to do with a value `α`: to fail with `ε`, or to return `β`. -/
inductive Decision (α ε β : Type)
  | refuse (error : ε)
  | keep (result : β)
  | change (value : α) (result : β)

namespace Decision

variable {α ε β : Type} {value value' : α} {error : ε} {result : β}

def changed? : Decision α ε β → Option α
  | .change value _ => some value
  | _ => none

/-- The call does not change the value to another one. -/
def Leaves (decision : Decision α ε β) (value : α) : Prop :=
  ∀ value' ∈ decision.changed?, value' = value

theorem leaves_refuse_iff {P : Prop} (h : P) :
    (refuse error : Decision α ε β).Leaves value ↔ P := iff_of_true nofun h

theorem leaves_keep_iff {P : Prop} (h : P) :
    (keep result : Decision α ε β).Leaves value ↔ P := iff_of_true nofun h

theorem leaves_change_iff :
    (change value' result : Decision α ε β).Leaves value ↔ value' = value :=
  ⟨fun h ↦ h value' rfl, fun h _ hmem ↦ (Option.some.inj hmem).symm.trans h⟩

end Decision

/-- A value in memory and in a file. -/
structure Mirrored (α : Type) where
  memory : α
  file : α

namespace Mirrored

variable {α ε β : Type}

/-- Carry out a decision. The write fails if there is a fault. -/
def mutate (fault : Option ε) (decision : Decision α ε β) (m : Mirrored α) :
    Except ε β × Mirrored α :=
  match decision with
  | .refuse error => (.error error, m)
  | .keep result => (.ok result, m)
  | .change value result =>
    match fault with
    | none => (.ok result, ⟨value, value⟩)
    | some error => (.error error, { m with memory := value })

theorem memory_mutate (fault : Option ε) (decision : Decision α ε β) (m : Mirrored α) :
    (m.mutate fault decision).2.memory = decision.changed?.getD m.memory := by
  cases decision with
  | refuse error | keep result => rfl
  | change value result =>
    cases fault with
    | none | some error => rfl

/-- A call that fails has changed nothing, if and only if it had nothing to change. -/
theorem mutate_eq_self_iff {fault : Option ε} {decision : Decision α ε β} {m : Mirrored α}
    {error : ε} (h : (m.mutate fault decision).1 = .error error) :
    (m.mutate fault decision).2 = m ↔ decision.Leaves m.memory := by
  cases decision with
  | refuse error => exact iff_of_true rfl nofun
  | keep result => exact absurd h nofun
  | change value result =>
    cases fault with
    | none => exact absurd h nofun
    | some error =>
      constructor
      · rintro heq value' ⟨rfl⟩
        exact congrArg Mirrored.memory heq
      · intro hvalue
        obtain rfl := hvalue value rfl
        rfl

end Mirrored

end Effects
