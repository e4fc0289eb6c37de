import Mathlib

/-!
# Reading and writing plain text

Text is a list of characters. This file has the readers and writers that line-oriented text formats
are made of, each with the lemma that reading undoes writing: unsigned decimal numbers, fields
separated by one character, and lines.

## Conventions

The readers are the ones of Rust's standard library. A number may carry a leading `+`. A line ends
at `\n` or `\r\n`; text after the last line end is a line of its own, unless it is empty. Splitting
never drops a field: text without a separator is one field, and so is the empty text.
-/

namespace TextFormat

open List (append_assoc cons_append forall_mem_cons mem_cons mem_cons_self mem_reverse
  reverse_cons reverse_reverse)

abbrev Text : Type := List Char

instance : LawfulBEq Text := inferInstanceAs (LawfulBEq (List Char))

/-! ## ASCII case -/

/-- Replace each ASCII upper-case letter by its lower-case form. -/
def toAsciiLowercase (t : Text) : Text := t.map Char.toLower

/-- Replace each ASCII lower-case letter by its upper-case form. -/
def toAsciiUppercase (t : Text) : Text := t.map Char.toUpper

def eqIgnoreAsciiCase (t u : Text) : Bool := toAsciiLowercase t == toAsciiLowercase u

/-! ## Kinds of characters -/

def utf8Len (t : Text) : ℕ := (t.map Char.utf8Size).sum

theorem utf8Len_append (t u : Text) : utf8Len (t ++ u) = utf8Len t + utf8Len u := by
  rw [utf8Len, List.map_append, List.sum_append, utf8Len, utf8Len]

theorem utf8Len_cons (c : Char) (t : Text) : utf8Len (c :: t) = c.utf8Size + utf8Len t := by
  rw [utf8Len, List.map_cons, List.sum_cons, utf8Len]

def isControl (c : Char) : Bool := c.toNat < 0x20 || 0x7f ≤ c.toNat && c.toNat ≤ 0x9f

def isAscii (c : Char) : Bool := c.toNat < 0x80

def isAsciiWhitespace (c : Char) : Bool := [' ', '\t', '\n', '\r', '\x0c'].contains c

def isWhitespace (c : Char) : Bool :=
  0x09 ≤ c.toNat && c.toNat ≤ 0x0d || 0x2000 ≤ c.toNat && c.toNat ≤ 0x200a ||
    [0x20, 0x85, 0xa0, 0x1680, 0x2028, 0x2029, 0x202f, 0x205f, 0x3000].contains c.toNat

def trimStart (t : Text) : Text := t.dropWhile isWhitespace

def trimEnd (t : Text) : Text := (trimStart t.reverse).reverse

def trim (t : Text) : Text := (trimStart (trimStart t).reverse).reverse

/-! ## Decimal numbers -/

def decimal (n : ℕ) : Text := Nat.toDigits 10 n

def stripPlus : Text → Text
  | '+' :: rest => rest
  | t => t

/-- Read an unsigned decimal number, with an optional `+`. -/
def parseDecimal (t : Text) : Option ℕ :=
  let digits := stripPlus t
  if digits ≠ [] ∧ digits.all Char.isDigit then some (Nat.ofDigitChars 10 digits 0) else none

def parseU32 (t : Text) : Option ℕ := (parseDecimal t).filter (· < 2 ^ 32)

theorem decimal_ne_nil (n : ℕ) : decimal n ≠ [] := Nat.toDigits_ne_nil

variable {c sep : Char} {n : ℕ} {t : Text}

theorem isDigit_of_mem_decimal (hc : c ∈ decimal n) : c.isDigit = true :=
  Nat.isDigit_of_mem_toDigits (by decide) (by decide) hc

theorem not_mem_decimal (hc : c.isDigit = false) : c ∉ decimal n := by
  intro h
  rw [isDigit_of_mem_decimal h] at hc
  cases hc

private theorem stripPlus_decimal (n : ℕ) : stripPlus (decimal n) = decimal n := by
  unfold stripPlus
  split
  next rest h =>
    have hplus : '+' ∈ decimal n := by
      rw [h]
      exact mem_cons_self
    exact absurd hplus (not_mem_decimal (by decide))
  next => rfl

@[simp] theorem parseDecimal_decimal (n : ℕ) : parseDecimal (decimal n) = some n := by
  have hall : (decimal n).all Char.isDigit = true :=
    List.all_eq_true.2 fun c hc ↦ isDigit_of_mem_decimal hc
  rw [parseDecimal, stripPlus_decimal, if_pos ⟨decimal_ne_nil n, hall⟩, decimal,
    Nat.ofDigitChars_ten_toDigits]

/-! ## Fields -/

/-- The text before and after the first `sep`. -/
def splitOnce (sep : Char) : Text → Option (Text × Text)
  | [] => none
  | c :: t => if c = sep then some ([], t) else (splitOnce sep t).map fun p ↦ (c :: p.1, p.2)

theorem splitOnce_append (ht : sep ∉ t) (u : Text) :
    splitOnce sep (t ++ sep :: u) = some (t, u) := by
  induction t with
  | nil => simp [splitOnce]
  | cons c t ih =>
    rw [mem_cons, not_or] at ht
    rw [cons_append, splitOnce, if_neg (Ne.symm ht.1), ih ht.2]
    rfl

variable {name value u : Text} {l : List Text}

theorem splitOnce_eq_some :
    splitOnce sep t = some (name, value) ↔ t = name ++ sep :: value ∧ sep ∉ name := by
  constructor
  · intro h
    induction t generalizing name with
    | nil => cases h
    | cons c t ih =>
      rw [splitOnce] at h
      split at h
      next hc =>
        obtain ⟨rfl, rfl⟩ := Prod.mk.inj (Option.some.inj h)
        exact ⟨by rw [hc]; rfl, List.not_mem_nil⟩
      next hc =>
        obtain ⟨⟨rest, found⟩, hrest, heq⟩ := Option.map_eq_some_iff.1 h
        obtain ⟨rfl, rfl⟩ := Prod.mk.inj heq
        obtain ⟨rfl, hnot⟩ := ih hrest
        exact ⟨rfl, by simp [Ne.symm hc, hnot]⟩
  · rintro ⟨rfl, h⟩
    exact splitOnce_append h value

theorem splitOnce_eq_none : splitOnce sep t = none ↔ sep ∉ t := by
  induction t with
  | nil => simp [splitOnce]
  | cons c t ih =>
    rw [splitOnce, mem_cons, not_or]
    split
    next hc => simp [hc]
    next hc =>
      rw [Option.map_eq_none_iff, ih]
      exact ⟨fun h ↦ ⟨Ne.symm hc, h⟩, fun h ↦ h.2⟩

/-- The text before and after the last `sep`. -/
def rsplitOnce (sep : Char) (t : Text) : Option (Text × Text) :=
  (splitOnce sep t.reverse).map fun p ↦ (p.2.reverse, p.1.reverse)

theorem rsplitOnce_eq_some :
    rsplitOnce sep t = some (name, value) ↔ t = name ++ sep :: value ∧ sep ∉ value := by
  have hsplit : rsplitOnce sep t = some (name, value) ↔
      splitOnce sep t.reverse = some (value.reverse, name.reverse) := by
    rw [rsplitOnce, Option.map_eq_some_iff]
    constructor
    · rintro ⟨parts, hparts, heq⟩
      obtain ⟨rfl, rfl⟩ := Prod.mk.inj heq
      rw [hparts, reverse_reverse, reverse_reverse]
    · exact fun h ↦ ⟨_, h, by rw [reverse_reverse, reverse_reverse]⟩
  rw [hsplit, splitOnce_eq_some, mem_reverse, ← List.reverse_inj, reverse_reverse,
    List.reverse_append, reverse_cons, reverse_reverse, reverse_reverse,
    append_assoc, List.singleton_append]

theorem rsplitOnce_append (hu : sep ∉ u) (t : Text) :
    rsplitOnce sep (t ++ sep :: u) = some (t, u) := rsplitOnce_eq_some.2 ⟨rfl, hu⟩

/-- The text before and after the first occurrence of `pattern`. -/
def splitOnceText (pattern : Text) : Text → Option (Text × Text)
  | [] => if pattern = [] then some ([], []) else none
  | c :: t =>
    if pattern.isPrefixOf (c :: t) then some ([], (c :: t).drop pattern.length)
    else (splitOnceText pattern t).map fun p ↦ (c :: p.1, p.2)

/-- The words between ASCII white space. -/
def splitAsciiWhitespace (t : Text) : List Text :=
  (t.splitOnP isAsciiWhitespace).filter (· ≠ [])

/-- Reading a list of fields undoes writing it, field by field. -/
theorem mapM_map_eq_some {α β γ : Type} {f : β → Option γ} {g : α → β} {h : α → γ}
    (hfg : ∀ a, f (g a) = some (h a)) (l : List α) : (l.map g).mapM f = some (l.map h) := by
  induction l with
  | nil => rfl
  | cons a l ih => simp [List.mapM_cons, hfg, ih]

/-! ## Pieces between separators -/

/-- A text has no separator in it, or a piece without one stands before the first. -/
@[elab_as_elim]
theorem splitOn_induction (sep : Char) {motive : Text → Prop}
    (single : ∀ t, sep ∉ t → motive t)
    (more : ∀ t u, sep ∉ t → motive u → motive (t ++ sep :: u)) (t : Text) : motive t := by
  induction hn : t.length using Nat.strong_induction_on generalizing t with
  | _ n ih =>
    subst hn
    cases h : splitOnce sep t with
    | none => exact single t (splitOnce_eq_none.1 h)
    | some parts =>
      obtain ⟨first, rest⟩ := parts
      obtain ⟨rfl, hfirst⟩ := splitOnce_eq_some.1 h
      refine more first rest hfirst (ih rest.length ?_ rest rfl)
      rw [List.length_append, List.length_cons]
      omega

/-- The characters of a text are the separators and those of the pieces. -/
theorem mem_splitOn_iff :
    (∃ piece ∈ t.splitOn sep, c ∈ piece) ↔ c ∈ t ∧ c ≠ sep := by
  induction t using splitOn_induction sep with
  | single t ht =>
    rw [List.splitOn_eq_singleton ht]
    simp only [List.mem_singleton, exists_eq_left]
    exact ⟨fun h ↦ ⟨h, fun heq ↦ ht (heq ▸ h)⟩, fun h ↦ h.1⟩
  | more t u ht ih =>
    rw [List.splitOn_append_cons_self_of_not_mem ht]
    simp only [mem_cons, exists_eq_or_imp, ih, List.mem_append]
    constructor
    · rintro (h | ⟨h, hne⟩)
      · exact ⟨.inl h, fun heq ↦ ht (heq ▸ h)⟩
      · exact ⟨.inr (.inr h), hne⟩
    · rintro ⟨h | h | h, hne⟩
      · exact .inl h
      · exact absurd h hne
      · exact .inr ⟨h, hne⟩

/-- What is true of the pieces of two texts, and stays so when two pieces are put together, is true
of the pieces of both together. -/
theorem forall_mem_splitOn_append {P : Text → Prop}
    (happend : ∀ t u, P t → P u → P (t ++ u)) (ht : ∀ piece ∈ t.splitOn sep, P piece)
    (hu : ∀ piece ∈ u.splitOn sep, P piece) : ∀ piece ∈ (t ++ u).splitOn sep, P piece := by
  induction t using splitOn_induction sep with
  | single t hsep =>
    rw [List.splitOn_eq_singleton hsep, List.forall_mem_singleton] at ht
    -- the piece `t` is put before the first piece of `u`
    induction u using splitOn_induction sep with
    | single u hsep' =>
      rw [List.splitOn_eq_singleton hsep', List.forall_mem_singleton] at hu
      rw [List.splitOn_eq_singleton (by simp [hsep, hsep']), List.forall_mem_singleton]
      exact happend t u ht hu
    | more u v hsep' _ =>
      rw [List.splitOn_append_cons_self_of_not_mem hsep', forall_mem_cons] at hu
      rw [← append_assoc, List.splitOn_append_cons_self_of_not_mem (by simp [hsep, hsep']),
        forall_mem_cons]
      exact ⟨happend t u ht hu.1, hu.2⟩
  | more t v hsep ih =>
    rw [List.splitOn_append_cons_self_of_not_mem hsep, forall_mem_cons] at ht
    rw [append_assoc, cons_append, List.splitOn_append_cons_self_of_not_mem hsep,
      forall_mem_cons]
    exact ⟨ht.1, ih ht.2⟩

/-! ## White space around texts -/

theorem trimStart_append (h : isWhitespace sep = false) (t u : Text) :
    trimStart (t ++ sep :: u) = trimStart t ++ sep :: u := by
  induction t with
  | nil => simp [trimStart, h]
  | cons c t ih =>
    rw [trimStart, trimStart, cons_append, List.dropWhile_cons, List.dropWhile_cons]
    split
    · exact ih
    · rfl

theorem trimEnd_append (h : isWhitespace sep = false) (t u : Text) :
    trimEnd (t ++ sep :: u) = t ++ sep :: trimEnd u := by
  rw [trimEnd, List.reverse_append, reverse_cons, append_assoc, List.singleton_append,
    trimStart_append h, List.reverse_append, reverse_cons, reverse_reverse, trimEnd]
  simp

theorem trim_eq (t : Text) : trim t = trimEnd (trimStart t) := rfl

theorem trimStart_trimStart (t : Text) : trimStart (trimStart t) = trimStart t :=
  List.dropWhile_idempotent _ t

theorem filter_trimStart (t : Text) :
    (trimStart t).filter (!isWhitespace ·) = t.filter (!isWhitespace ·) := by
  induction t with
  | nil => rfl
  | cons c t ih =>
    rw [trimStart, List.dropWhile_cons]
    split
    next hc =>
      rw [List.filter_cons_of_neg (by simp [hc])]
      exact ih
    next => rfl

theorem filter_trimEnd (t : Text) :
    (trimEnd t).filter (!isWhitespace ·) = t.filter (!isWhitespace ·) := by
  rw [trimEnd, List.filter_reverse, filter_trimStart, List.filter_reverse, reverse_reverse]

theorem trim_isInfix (t : Text) : trim t <:+: t := by
  have hend : trimEnd (trimStart t) <+: trimStart t := by
    rw [← List.reverse_suffix, trimEnd, reverse_reverse]
    exact List.dropWhile_suffix _
  exact hend.isInfix.trans (List.dropWhile_suffix _).isInfix

theorem isWhitespace_of_isDigit (h : c.isDigit = true) : isWhitespace c = false := by
  rw [Char.isDigit, Bool.and_eq_true, decide_eq_true_eq, decide_eq_true_eq] at h
  have hlow : 48 ≤ c.toNat := UInt32.le_iff_toNat_le.1 h.1
  have hhigh : c.toNat ≤ 57 := UInt32.le_iff_toNat_le.1 h.2
  generalize hn : c.toNat = n at *
  simp only [isWhitespace, hn]
  interval_cases n <;> decide

theorem trimStart_of_forall (h : ∀ c ∈ t, isWhitespace c = false) : trimStart t = t := by
  cases t with
  | nil => rfl
  | cons c t => rw [trimStart, List.dropWhile_cons_of_neg (by simp [h c mem_cons_self])]

theorem trim_of_forall (h : ∀ c ∈ t, isWhitespace c = false) : trim t = t := by
  rw [trim, trimStart_of_forall h, trimStart_of_forall fun c hc ↦ h c (mem_reverse.1 hc),
    reverse_reverse]

@[simp] theorem trim_decimal (n : ℕ) : trim (decimal n) = decimal n :=
  trim_of_forall fun _ hc ↦ isWhitespace_of_isDigit (isDigit_of_mem_decimal hc)

/-- A number that can be read has no white space in it. -/
theorem filter_of_parseDecimal (h : parseDecimal t = some n) :
    t.filter (!isWhitespace ·) = t := by
  have hdigits : (stripPlus t).all Char.isDigit = true := by
    rw [parseDecimal] at h
    split at h
    next hboth => exact hboth.2
    next => cases h
  refine List.filter_eq_self.2 fun c hc ↦ ?_
  have hwhite : isWhitespace c = false := by
    have hplus : c = '+' ∨ c ∈ stripPlus t := by
      unfold stripPlus
      split
      · exact mem_cons.1 hc
      · exact .inr hc
    rcases hplus with rfl | hmem
    · decide
    · exact isWhitespace_of_isDigit (List.all_eq_true.1 hdigits c hmem)
  simp [hwhite]

/-- Where a separator stands does not depend on white space around the text. -/
theorem splitOnce_trim (hsep : isWhitespace sep = false) (t : Text) :
    splitOnce sep (trim t) = (splitOnce sep t).map fun p ↦ (trimStart p.1, trimEnd p.2) := by
  cases h : splitOnce sep t with
  | none =>
    rw [splitOnce_eq_none] at h
    rw [Option.map_none, splitOnce_eq_none]
    intro hmem
    refine h ?_
    have hstart : sep ∈ trimStart t := by
      rw [trim, mem_reverse] at hmem
      exact mem_reverse.1 ((List.dropWhile_sublist _).subset hmem)
    exact (List.dropWhile_sublist _).subset hstart
  | some parts =>
    obtain ⟨rfl, hname⟩ := splitOnce_eq_some.1 h
    rw [trim_eq, trimStart_append hsep, trimEnd_append hsep, Option.map_some]
    refine splitOnce_append (fun hmem ↦ hname ?_) _
    exact (List.dropWhile_sublist _).subset hmem

/-! ## Lines -/

def stripCr (t : Text) : Text := if t.getLast? = some '\r' then t.dropLast else t

def lines (t : Text) : List Text :=
  let pieces := t.splitOn '\n'
  pieces.dropLast.map stripCr ++ if pieces.getLastD [] = [] then [] else [pieces.getLastD []]

theorem stripCr_of_not_mem (ht : '\r' ∉ t) : stripCr t = t := by
  rw [stripCr, if_neg]
  intro h
  exact ht (List.mem_of_getLast? h)

/-- Texts without line ends, each terminated by `\n`, are split into what they were. -/
private theorem splitOn_flatMap_line (h : ∀ t ∈ l, '\n' ∉ t) :
    (l.flatMap fun t ↦ t ++ ['\n']).splitOn '\n' = l ++ [[]] := by
  induction l with
  | nil => rfl
  | cons t l ih =>
    rw [List.flatMap_cons, append_assoc, List.singleton_append,
      List.splitOn_append_cons_self_of_not_mem (h t mem_cons_self),
      ih fun u hu ↦ h u (List.mem_cons_of_mem t hu), cons_append]

theorem lines_flatMap (hn : ∀ t ∈ l, '\n' ∉ t) (hr : ∀ t ∈ l, '\r' ∉ t) :
    lines (l.flatMap fun t ↦ t ++ ['\n']) = l := by
  have hstrip : l.map stripCr = l :=
    (List.map_congr_left fun t ht ↦ stripCr_of_not_mem (hr t ht)).trans (List.map_id' l)
  simp [lines, splitOn_flatMap_line hn, hstrip]

theorem toAsciiLowercase_toAsciiLowercase (t : Text) :
    toAsciiLowercase (toAsciiLowercase t) = toAsciiLowercase t := by
  rw [toAsciiLowercase, toAsciiLowercase, List.map_map]
  exact List.map_congr_left fun c _ ↦ Char.toLower_toLower_eq_toLower c

end TextFormat
