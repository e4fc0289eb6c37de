import Epistle.Arc.Sealing

/-!
# Validation

A chain is good if each seal says what it should of the chain before it, if the newest message
signature is good, and if all seals are. The message signatures before the newest one are not looked
at, as later hosts may have changed the message.
-/

namespace Epistle.Arc

open TextFormat
open Smtp (Primitives)

/-- Each seal says what is right for its place: the first one that there was no chain, the others
that the chain was good. -/
def cvValuesConsistent (p : Primitives) (instances : List Instance) : Bool :=
  instances.all fun x ↦ (parseSeal p x.arcSeal).any fun parsed ↦
    parsed.chainValidation = if x.number = 1 then .none else .pass

def amsPasses (p : Primitives) (keys : Keys) (x : Instance) (raw : Bytes) : Bool :=
  (parseMessageSignature p x.messageSignature).any fun ams ↦
    Ams.verify p keys ams x.messageSignature raw = .pass

def sealPasses (p : Primitives) (keys : Keys) (x : Instance) (instances : List Instance) : Bool :=
  (parseSeal p x.arcSeal).any fun parsed ↦ AsSeal.verify p keys parsed x.arcSeal instances = .pass

/-- Validate the chain of a message. The program may panic. -/
def validate (p : Primitives) (keys : Keys) (raw : Bytes) : Option ChainValidation :=
  match extract raw with
  | none => none
  | some (.error _) => some .fail
  | some (.ok none) => some .none
  | some (.ok (some instances)) =>
    if !cvValuesConsistent p instances then some .fail
    else match instances.getLast? with
      | none => none
      | some newest =>
        if !amsPasses p keys newest raw then some .fail
        else if !instances.all (sealPasses p keys · instances) then some .fail
        else some .pass

section

variable {p : Primitives} {keys : Keys} {raw : Bytes}

theorem validate_eq_pass_iff :
    validate p keys raw = some .pass ↔ ∃ chain newest, extract raw = some (.ok (some chain)) ∧
      chain.getLast? = some newest ∧ cvValuesConsistent p chain = true ∧
      amsPasses p keys newest raw = true ∧ ∀ x ∈ chain, sealPasses p keys x chain = true := by
  rw [validate]
  rcases extract raw with _ | error | _ | chain
  · simp
  · simp
  · simp
  dsimp only
  cases hlast : chain.getLast? with
  | none => simp [hlast]
  | some newest =>
    have hall := List.all_eq_true (p := (sealPasses p keys · chain)) (l := chain)
    cases hcv : cvValuesConsistent p chain with
    | false => simp [hcv]
    | true =>
      cases hams : amsPasses p keys newest raw with
      | false => simp [hlast, hams]
      | true =>
        cases hseals : chain.all (sealPasses p keys · chain) with
        | false | true => simp [hlast, hcv, hams, ← hall, hseals]

theorem of_validate_eq_fail (h : validate p keys raw = some .fail) :
    (∃ error, extract raw = some (.error error)) ∨
      ∃ chain, extract raw = some (.ok (some chain)) := by
  rw [validate] at h
  rcases hresult : extract raw with _ | error | _ | chain
  · rw [hresult] at h
    cases h
  · exact .inl ⟨error, rfl⟩
  · rw [hresult] at h
    cases h
  · exact .inr ⟨chain, rfl⟩

end

end Epistle.Arc
