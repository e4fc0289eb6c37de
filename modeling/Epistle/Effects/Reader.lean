import Mathlib.Data.List.Basic

/-!
# Readers of streams

A reader gets a stream in pieces. It keeps what it has got, and takes steps while it can; when it
cannot, it waits for the next piece. Whether the pieces matter is settled by two laws: two pieces
one after the other are like both at once, and a step that is possible does not depend on what comes
later. States count as the same by a relation, since a reader that has stopped may be left with
anything.
-/

namespace Effects

/-- A reader with states `σ` of a stream of `ι`. -/
structure Reader (σ ι : Type) where
  /-- A piece of the stream arrives. -/
  feed : List ι → σ → σ
  turn : σ → Option σ
  /-- A bound on the number of steps. -/
  size : σ → ℕ
  size_turn : ∀ {s s' : σ}, turn s = some s' → size s' < size s

namespace Reader

variable {σ ι : Type} (r : Reader σ ι)

/-- Take all the steps there are. -/
def drain (s : σ) : σ :=
  match _h : r.turn s with
  | none => s
  | some s' => drain s'
termination_by r.size s
decreasing_by exact r.size_turn _h

def run (s : σ) : List (List ι) → σ
  | [] => r.drain s
  | piece :: pieces => run (r.feed piece (r.drain s)) pieces

variable {r}

theorem drain_of_none {s : σ} (h : r.turn s = none) : r.drain s = s := by
  rw [drain]
  split
  · rfl
  · rename_i heq
    rw [h] at heq
    cases heq

theorem drain_of_some {s s' : σ} (h : r.turn s = some s') : r.drain s = r.drain s' := by
  rw [drain]
  split
  · rename_i heq
    rw [h] at heq
    cases heq
  · rename_i heq
    rw [Option.some.inj (h.symm.trans heq)]

section

variable {P : σ → Prop} {s : σ} (hturn : ∀ {s s'}, P s → r.turn s = some s' → P s')
include hturn

theorem drain_induction (hs : P s) : P (r.drain s) := by
  induction s using drain.induct r with
  | case1 s h =>
    rw [drain_of_none h]
    exact hs
  | case2 s s' h ih =>
    rw [drain_of_some h]
    exact ih (hturn hs h)

theorem run_induction (hfeed : ∀ {s} piece, P s → P (r.feed piece s)) {pieces : List (List ι)} :
    ∀ {s : σ}, P s → P (r.run s pieces) := by
  induction pieces with
  | nil => exact fun hs ↦ drain_induction hturn hs
  | cons piece pieces ih => exact fun hs ↦ ih (hfeed piece (drain_induction hturn hs))

end

/-- The pieces of a stream do not matter, up to `Same`, if what is yet to come is `Fine`. -/
structure Steady (r : Reader σ ι) (Same : σ → σ → Prop) (Fine : List ι → Prop) : Prop where
  equivalence : Equivalence Same
  feed_congr : ∀ {s t : σ} (rest : List ι), Same s t → Same (r.feed rest s) (r.feed rest t)
  drain_congr : ∀ {s t : σ}, Same s t → Same (r.drain s) (r.drain t)
  fine_append : ∀ {piece rest : List ι}, Fine (piece ++ rest) → Fine rest
  feed_append : ∀ (piece rest : List ι) (s : σ),
    Same (r.feed rest (r.feed piece s)) (r.feed (piece ++ rest) s)
  turn_feed : ∀ {s s' : σ} {rest : List ι}, Fine rest → r.turn s = some s' →
    Same (r.drain (r.feed rest s')) (r.drain (r.feed rest s))

namespace Steady

variable {Same : σ → σ → Prop} {Fine : List ι → Prop} (h : r.Steady Same Fine)
include h

theorem drain_feed_drain {rest : List ι} (hfine : Fine rest) (s : σ) :
    Same (r.drain (r.feed rest (r.drain s))) (r.drain (r.feed rest s)) :=
  drain_induction (P := fun t ↦ Same (r.drain (r.feed rest t)) (r.drain (r.feed rest s)))
    (fun ht hturn ↦ h.equivalence.trans (h.turn_feed hfine hturn) ht) (h.equivalence.refl _)

/-- **Reading a stream in pieces is reading it at once.** -/
theorem run_same {pieces : List (List ι)} : ∀ {piece : List ι}, Fine (piece ++ pieces.flatten) →
    ∀ s : σ, Same (r.run s (piece :: pieces)) (r.drain (r.feed (piece ++ pieces.flatten) s)) := by
  induction pieces with
  | nil =>
    intro piece hfine s
    rw [List.flatten_nil, List.append_nil] at hfine ⊢
    exact h.drain_feed_drain hfine s
  | cons next pieces ih =>
    intro piece hfine s
    have hrest := ih (h.fine_append hfine) (r.feed piece (r.drain s))
    have happend := h.drain_congr (h.feed_append piece (next ++ pieces.flatten) (r.drain s))
    exact h.equivalence.trans hrest
      (h.equivalence.trans happend (h.drain_feed_drain hfine s))

end Steady

end Reader

end Effects
