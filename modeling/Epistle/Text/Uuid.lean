import Epistle.Text.Format

/-!
# UUIDs and their text form

A UUID is thirty-two hexadecimal digits. Order is the order of the digits, which is the order of
the sixteen bytes they stand for. The text form has lower-case digits in five groups joined by
hyphens; reading also takes the undivided form, a form in braces and a form with a `urn:uuid:`
scheme, and digits of either case.
-/

namespace TextFormat

structure Uuid where
  /-- The digits, most significant first. -/
  nibbles : List (Fin 16)
  length_nibbles : nibbles.length = 32
  deriving DecidableEq

namespace Uuid

theorem nibbles_injective : Function.Injective nibbles := by
  rintro ⟨l, hl⟩ ⟨m, hm⟩ h
  cases h
  rfl

instance : LinearOrder Uuid := LinearOrder.lift' nibbles nibbles_injective

/-- The UUID with the given number as its value. -/
def ofNat (n : ℕ) : Uuid where
  nibbles := (List.range 32).map fun i ↦ ⟨n / 16 ^ (31 - i) % 16, Nat.mod_lt _ (by decide)⟩
  length_nibbles := by simp

/-! ## Hexadecimal digits -/

def hexDigit (d : Fin 16) : Char := Nat.digitChar d

def parseHexDigit (c : Char) : Option (Fin 16) :=
  (List.finRange 16).find? fun d ↦ hexDigit d == c.toLower

theorem parseHexDigit_hexDigit (d : Fin 16) : parseHexDigit (hexDigit d) = some d := by
  revert d
  decide

theorem hexDigit_isAlphanum (d : Fin 16) : (hexDigit d).isAlphanum = true := by
  revert d
  decide

/-- Read a run of hexadecimal digits. -/
def parseHex (t : Text) : Option (List (Fin 16)) := t.mapM parseHexDigit

theorem parseHex_map_hexDigit (l : List (Fin 16)) : parseHex (l.map hexDigit) = some l := by
  rw [parseHex, List.mapM_map]
  induction l with
  | nil => rfl
  | cons d l ih => simp [List.mapM_cons, Function.comp_apply, parseHexDigit_hexDigit, ih]

/-- The UUID with the given digits, if there are as many as there should be. -/
def ofNibbles (l : List (Fin 16)) : Option Uuid :=
  if h : l.length = 32 then some ⟨l, h⟩ else none

@[simp] theorem ofNibbles_nibbles (u : Uuid) : ofNibbles u.nibbles = some u :=
  dif_pos u.length_nibbles

/-! ## The text form -/

/-- The five groups of the text form. -/
def groups {α : Type*} (l : List α) : List (List α) :=
  [l.take 8, (l.drop 8).take 4, (l.drop 12).take 4, (l.drop 16).take 4, l.drop 20]

theorem flatten_groups {α : Type*} (l : List α) : (groups l).flatten = l := by
  have h (m n : ℕ) : (l.drop m).take n ++ l.drop (m + n) = l.drop m := by
    rw [← List.drop_drop, List.take_append_drop]
  simp only [groups, List.flatten_cons, List.flatten_nil, List.append_nil]
  rw [h 16 4, h 12 4, h 8 4, List.take_append_drop]

theorem mem_of_mem_groups {α : Type*} {l g : List α} {a : α} (hg : g ∈ groups l) (ha : a ∈ g) :
    a ∈ l := by
  rw [← flatten_groups l]
  exact List.mem_flatten.2 ⟨g, hg, ha⟩

def toText (u : Uuid) : Text := ['-'].intercalate (groups (u.nibbles.map hexDigit))

def parseSimple (t : Text) : Option Uuid := (parseHex t).bind ofNibbles

def parseHyphenated (t : Text) : Option Uuid :=
  if (t.splitOn '-').map List.length = [8, 4, 4, 4, 12] then parseSimple (t.splitOn '-').flatten
  else none

/-- Read a UUID in any of its forms. -/
def parseStr (t : Text) : Option Uuid :=
  if t.length = 32 then parseSimple t
  else if t.length = 36 then parseHyphenated t
  else if t.length = 38 ∧ t.head? = some '{' ∧ t.getLast? = some '}' then
    parseHyphenated (t.drop 1).dropLast
  else if t.length = 45 ∧ t.take 9 = "urn:uuid:".toList then parseHyphenated (t.drop 9)
  else none

theorem mem_toText {u : Uuid} {c : Char} (hc : c ∈ u.toText) : c.isAlphanum = true ∨ c = '-' := by
  have hgroup : ∀ g ∈ groups (u.nibbles.map hexDigit), ∀ c ∈ g, c.isAlphanum = true := by
    intro g hg c hcg
    obtain ⟨d, -, rfl⟩ := List.mem_map.1 (mem_of_mem_groups hg hcg)
    exact hexDigit_isAlphanum d
  simp only [toText, groups, List.intercalate_cons_cons, List.intercalate_singleton,
    List.mem_append, List.mem_singleton] at hc
  simp only [groups, List.mem_cons, List.not_mem_nil, or_false, forall_eq_or_imp, forall_eq]
    at hgroup
  obtain ⟨h1, h2, h3, h4, h5⟩ := hgroup
  rcases hc with ((hc | hc) | ((hc | hc) | ((hc | hc) | ((hc | hc) | hc))))
  exacts [.inl (h1 c hc), .inr hc, .inl (h2 c hc), .inr hc, .inl (h3 c hc), .inr hc,
    .inl (h4 c hc), .inr hc, .inl (h5 c hc)]

private theorem splitOn_toText (u : Uuid) :
    u.toText.splitOn '-' = groups (u.nibbles.map hexDigit) := by
  refine List.splitOn_intercalate '-' (fun g hg hmem ↦ ?_) (by simp [groups])
  obtain ⟨d, -, hd⟩ := List.mem_map.1 (mem_of_mem_groups hg hmem)
  have halpha := hexDigit_isAlphanum d
  rw [hd] at halpha
  exact absurd halpha (by decide)

private theorem length_groups (u : Uuid) :
    (groups (u.nibbles.map hexDigit)).map List.length = [8, 4, 4, 4, 12] := by
  simp [groups, u.length_nibbles]

private theorem length_toText (u : Uuid) : u.toText.length = 36 := by
  have h := length_groups u
  simp only [groups, List.map_cons, List.map_nil, List.cons.injEq, and_true] at h
  obtain ⟨h1, h2, h3, h4, h5⟩ := h
  simp only [toText, groups, List.intercalate_cons_cons, List.intercalate_singleton,
    List.length_append, List.length_singleton, h1, h2, h3, h4, h5]

theorem parseStr_toText (u : Uuid) : parseStr u.toText = some u := by
  rw [parseStr, length_toText, if_neg (by decide), if_pos rfl, parseHyphenated, splitOn_toText,
    if_pos (length_groups u), flatten_groups, parseSimple, parseHex_map_hexDigit, Option.bind_some,
    ofNibbles_nibbles]

end Uuid

end TextFormat
