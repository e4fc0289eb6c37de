import Mathlib.Data.List.Basic

/-!
# Programs that leave a record

A program does one thing after the other until it returns or gives up, and what it does is recorded.
The rules here are about when something may be done: a *gate* says for each event what has to stand
in the record before it, and a record is guarded if every event in it came after what its gate asks
for. To show this of the record of a program it is enough to look at the places where the program
does something (`Keeps.note`); everything else follows its shape (`Keeps.bind`).
-/

namespace Effects

variable {ω ε ε' α β : Type}

/-- A program that records events and that may give up. -/
def Recorded (ω ε α : Type) : Type := List ω → List ω × Except ε α

namespace Recorded

instance : Monad (Recorded ω ε) where
  pure a := fun record ↦ (record, .ok a)
  bind program next := fun record ↦
    match program record with
    | (record, .ok a) => next a record
    | (record, .error e) => (record, .error e)

def fail (e : ε) : Recorded ω ε α := fun record ↦ (record, .error e)

def note (event : ω) : Recorded ω ε Unit := fun record ↦ (record ++ [event], .ok ())

/-- Give another account of a failure. -/
def mapError (f : ε → ε') (program : Recorded ω ε α) : Recorded ω ε' α := fun record ↦
  ((program record).1, (program record).2.mapError f)

theorem bind_of_ok {program : Recorded ω ε α} {next : α → Recorded ω ε β} {record record' : List ω}
    {a : α} (h : program record = (record', .ok a)) :
      (program >>= next) record = next a record' := by
  simp only [Bind.bind, h]

theorem bind_of_error {program : Recorded ω ε α} {next : α → Recorded ω ε β}
    {record record' : List ω} {e : ε} (h : program record = (record', .error e)) :
    (program >>= next) record = (record', .error e) := by
  simp only [Bind.bind, h]

end Recorded

/-! ## Gates -/

/-- Every event came after what its gate asks for. -/
def Guarded (gate : List ω → ω → Prop) (record : List ω) : Prop :=
  ∀ before event after, record = before ++ event :: after → gate before event

variable {gate : List ω → ω → Prop}

theorem guarded_nil : Guarded gate ([] : List ω) := by
  intro before event after h
  simp at h

theorem guarded_concat {record : List ω} {event : ω} (hrecord : Guarded gate record)
    (hevent : gate record event) : Guarded gate (record ++ [event]) := by
  intro before event' after h
  rcases List.eq_nil_or_concat after with rfl | ⟨after', last, rfl⟩
  · obtain ⟨rfl, hlast⟩ := List.append_inj' h rfl
    obtain rfl := List.head_eq_of_cons_eq hlast
    exact hevent
  · -- the event stands in the earlier record
    have h' : record ++ [event] = (before ++ event' :: after') ++ [last] := by
      rw [h, List.concat_eq_append, List.append_assoc, List.cons_append]
    exact hrecord before event' after' (List.append_inj' h' rfl).1

/-- From a guarded record with `pre` a program leaves a guarded record, with `post` if it
returns. -/
def Keeps (gate : List ω → ω → Prop) (pre : List ω → Prop) (program : Recorded ω ε α)
    (post : α → List ω → Prop) : Prop :=
  ∀ record, Guarded gate record → pre record → Guarded gate (program record).1 ∧
    ∀ a, (program record).2 = .ok a → post a (program record).1

namespace Keeps

variable {pre : List ω → Prop}

theorem pure {a : α} {post : α → List ω → Prop} (h : ∀ record, pre record → post a record) :
    Keeps gate pre (Pure.pure a : Recorded ω ε α) post := by
  intro record hguarded hpre
  refine ⟨hguarded, fun a' ha' ↦ ?_⟩
  obtain rfl := Except.ok.inj ha'
  exact h record hpre

theorem fail {e : ε} {post : α → List ω → Prop} :
    Keeps gate pre (Recorded.fail e : Recorded ω ε α) post :=
  fun _ hguarded _ ↦ ⟨hguarded, fun _ h ↦ by cases h⟩

theorem note {event : ω} {post : Unit → List ω → Prop} (hgate : ∀ record, pre record →
    gate record event)
    (hpost : ∀ record, pre record → post () (record ++ [event])) :
    Keeps gate pre (Recorded.note event : Recorded ω ε Unit) post := by
  intro record hguarded hpre
  exact ⟨guarded_concat hguarded (hgate record hpre), fun _ _ ↦ hpost record hpre⟩

theorem bind {mid : α → List ω → Prop} {post : β → List ω → Prop} {program : Recorded ω ε α}
    {next : α → Recorded ω ε β} (hprogram : Keeps gate pre program mid)
    (hnext : ∀ a, Keeps gate (mid a) (next a) post) : Keeps gate pre (program >>= next) post := by
  intro record hguarded hpre
  have hfirst := hprogram record hguarded hpre
  rcases hrun : program record with ⟨record', e | a⟩
  · rw [hrun] at hfirst
    rw [Recorded.bind_of_error hrun]
    exact ⟨hfirst.1, fun _ h ↦ by cases h⟩
  · rw [hrun] at hfirst
    rw [Recorded.bind_of_ok hrun]
    exact hnext a record' hfirst.1 (hfirst.2 a rfl)

theorem mapError {f : ε → ε'} {post : α → List ω → Prop} {program : Recorded ω ε α}
    (h : Keeps gate pre program post) : Keeps gate pre (program.mapError f) post := by
  intro record hguarded hpre
  obtain ⟨hkept, hpost⟩ := h record hguarded hpre
  refine ⟨hkept, fun a ha ↦ hpost a ?_⟩
  rw [Recorded.mapError] at ha
  cases hrun : (program record).2 with
  | error e =>
    rw [hrun] at ha
    cases ha
  | ok a' =>
    rw [hrun] at ha
    have heq : a' = a := Except.ok.inj ha
    rw [heq]

end Keeps

end Effects
