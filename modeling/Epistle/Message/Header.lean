import Epistle.Text.Utf8

/-!
# Header blocks

The header block of a message ends at the first empty line. Its lines end at CRLF, and a line that
begins with a space or a tab goes on with the field of the line before it.

`unfold` puts the lines of a field together. What is read of a message that gets lines put before it
are these lines and what was read of it before (`messageLines_append`, `unfold_append`), with two
exceptions. A message that begins with an empty line has a body that begins right there, once there
is a line before it. And lines which go on with a field need a field to go on with.
-/

namespace TextFormat

open List (append_assoc cons_append cons_prefix_cons flatMap_cons flatten_cons mem_cons
  mem_cons_of_mem mem_cons_self prefix_append)

/-- The header block: the data up to the first empty line. -/
def headerBlock : Bytes → Bytes
  | [] => []
  | b :: rest =>
    if [0x0d, 0x0a, 0x0d, 0x0a].isPrefixOf (b :: rest) then [0x0d, 0x0a] else b :: headerBlock rest

/-- The body: the data after the first empty line. -/
def messageBody : Bytes → Bytes
  | [] => []
  | b :: rest =>
    if [0x0d, 0x0a, 0x0d, 0x0a].isPrefixOf (b :: rest) then rest.drop 3 else messageBody rest

def splitCrlf : Text → List Text
  | [] => []
  | '\r' :: '\n' :: t => ['\r', '\n'] :: splitCrlf t
  | c :: t =>
    match splitCrlf t with
    | [] => [[c]]
    | piece :: pieces => (c :: piece) :: pieces

def stripCrlf (line : Text) : Text :=
  if ['\r', '\n'].isSuffixOf line then line.take (line.length - 2) else line

/-- A line goes on with the header of the line before. -/
def isFolded (line : Text) : Bool := line.head? == some ' ' || line.head? == some '\t'

/-- The fields that lines make up, after the lines of the field that is being put together. -/
def unfold : Option Text → List Text → List Text
  | current, [] => current.toList
  | current, content :: rest =>
    if isFolded content then unfold (current.map (· ++ content)) rest
    else current.toList ++ unfold (if content = [] then none else some content) rest

def messageLines (raw : Bytes) : Option (List Text) :=
  (decodeUtf8 (headerBlock raw)).map fun block ↦ (splitCrlf block).map stripCrlf

/-- The fields of the header block of a message, each on one line. -/
def messageFields (raw : Bytes) : Option (List Text) := (messageLines raw).map (unfold none)

/-! ## Texts without line ends -/

/-- No line ends inside a text. -/
def NoCrlf (t : Text) : Prop := ¬['\r', '\n'] <:+: t

variable {t u line : Text} {c : Char} {rest : Bytes} {lines : List Text}

theorem NoCrlf.of_not_mem (h : '\r' ∉ t) : NoCrlf t := fun hcrlf ↦
  h (hcrlf.subset mem_cons_self)

theorem NoCrlf.of_isInfix (h : NoCrlf t) (hu : u <:+: t) : NoCrlf u := fun hcrlf ↦
  h (hcrlf.trans hu)

theorem NoCrlf.tail (h : NoCrlf (c :: t)) : NoCrlf t :=
  h.of_isInfix (List.suffix_cons c t).isInfix

theorem NoCrlf.append (ht : '\r' ∉ t) (hu : NoCrlf u) : NoCrlf (t ++ u) := by
  induction t with
  | nil => exact hu
  | cons c t ih =>
    rw [mem_cons, not_or] at ht
    intro hcrlf
    rcases List.infix_cons_iff.1 hcrlf with hstart | hrest
    · exact ht.1 (cons_prefix_cons.1 hstart).1
    · exact ih ht.2 hrest

theorem NoCrlf.head_ne (h : NoCrlf ('\r' :: t)) : (t ++ '\r' :: u).head? ≠ some '\n' := by
  cases t with
  | nil => simp
  | cons c t =>
    intro hc
    obtain rfl : c = '\n' := Option.some.inj hc
    exact h (prefix_append ['\r', '\n'] t).isInfix

/-! ## Lines -/

theorem splitCrlf_line (h : NoCrlf line) (t : Text) :
    splitCrlf (line ++ '\r' :: '\n' :: t) = (line ++ ['\r', '\n']) :: splitCrlf t := by
  induction line with
  | nil => rfl
  | cons c line ih =>
    rw [cons_append, splitCrlf.eq_3, ih h.tail]
    · rfl
    · rintro rest rfl hrest
      exact h.head_ne (congrArg List.head? hrest)

theorem stripCrlf_append (line : Text) : stripCrlf (line ++ ['\r', '\n']) = line := by
  simp [stripCrlf]

theorem stripCrlf_isPrefix (line : Text) : stripCrlf line <+: line := by
  rw [stripCrlf]
  split
  · exact List.take_prefix _ _
  · exact List.prefix_refl _

theorem flatten_splitCrlf (t : Text) : (splitCrlf t).flatten = t := by
  induction t using splitCrlf.induct with
  | case1 => rfl
  | case2 t ih =>
    rw [splitCrlf, flatten_cons, ih]
    rfl
  | case3 c t hcrlf hnil ih =>
    rw [splitCrlf.eq_3 c t hcrlf, hnil]
    rw [hnil] at ih
    rw [← ih]
    rfl
  | case4 c t hcrlf piece pieces hcons ih =>
    rw [splitCrlf.eq_3 c t hcrlf, hcons, flatten_cons, cons_append]
    rw [hcons, flatten_cons] at ih
    rw [ih]

theorem stripCrlf_cons (h : c :: line ≠ ['\r', '\n']) :
    stripCrlf (c :: line) = c :: stripCrlf line := by
  rw [stripCrlf, stripCrlf]
  by_cases hsuffix : ['\r', '\n'].isSuffixOf line = true
  · have hcons : ['\r', '\n'].isSuffixOf (c :: line) = true := by
      rw [List.isSuffixOf_iff_suffix] at hsuffix ⊢
      exact hsuffix.trans (List.suffix_cons c line)
    have hlength : 2 ≤ line.length := (List.isSuffixOf_iff_suffix.1 hsuffix).length_le
    rw [if_pos hsuffix, if_pos hcons, List.length_cons, Nat.succ_sub hlength, List.take_succ_cons]
  · rw [if_neg hsuffix, if_neg]
    rw [List.isSuffixOf_iff_suffix] at hsuffix ⊢
    intro hcons
    rcases List.suffix_cons_iff.1 hcons with heq | htail
    · exact h heq.symm
    · exact hsuffix htail

theorem noCrlf_of_mem_splitCrlf {piece : Text} (h : piece ∈ splitCrlf t) :
    NoCrlf (stripCrlf piece) := by
  induction t using splitCrlf.induct generalizing piece with
  | case1 => cases h
  | case2 t ih =>
    rcases mem_cons.1 h with rfl | h
    · exact .of_not_mem List.not_mem_nil
    · exact ih h
  | case3 c t hcrlf hnil ih =>
    rw [splitCrlf.eq_3 c t hcrlf, hnil, List.mem_singleton] at h
    subst h
    rw [stripCrlf_cons (by simp)]
    exact fun hcrlf ↦ absurd hcrlf.length_le (by simp [stripCrlf])
  | case4 c t hcrlf first pieces hcons ih =>
    rw [splitCrlf.eq_3 c t hcrlf, hcons, mem_cons] at h
    rw [hcons] at ih
    rcases h with rfl | h
    · -- the line end does not begin with this character, as the text does not go on with `\n`
      have hhead : c = '\r' → first.head? ≠ some '\n' := by
        rintro rfl hfirst
        obtain ⟨rest, rfl⟩ : ∃ rest, first = '\n' :: rest := by
          cases first with
          | nil => cases hfirst
          | cons d rest => exact ⟨rest, by rw [Option.some.inj hfirst]⟩
        have ht := flatten_splitCrlf t
        rw [hcons] at ht
        exact hcrlf _ rfl ht.symm
      have hne : c :: first ≠ ['\r', '\n'] := by
        intro heq
        obtain ⟨rfl, rfl⟩ := List.cons.inj heq
        exact hhead rfl rfl
      rw [stripCrlf_cons hne]
      intro hinfix
      rcases List.infix_cons_iff.1 hinfix with hstart | hrest
      · obtain ⟨rfl, hprefix⟩ := cons_prefix_cons.1 hstart
        obtain ⟨rest, rfl⟩ := hprefix.trans (stripCrlf_isPrefix first)
        exact hhead rfl rfl
      · exact ih mem_cons_self hrest
    · exact ih (mem_cons_of_mem _ h)

/-! ## Fields -/

/-- Lines at the start that go on with a field. -/
def leading (lines : List Text) : Text := (lines.takeWhile isFolded).flatten

/-- Without a field to go on with they are dropped, with one they are added to it. -/
theorem unfold_some (current : Text) (lines : List Text) :
    unfold (some current) lines = (current ++ leading lines) :: unfold none lines := by
  induction lines generalizing current with
  | nil => simp [unfold, leading]
  | cons line lines ih =>
    rw [unfold, unfold]
    by_cases hfolded : isFolded line = true
    · rw [if_pos hfolded, if_pos hfolded, Option.map_some, ih, leading, leading,
        List.takeWhile_cons_of_pos hfolded, flatten_cons, append_assoc]
      rfl
    · rw [if_neg hfolded, if_neg hfolded, leading, List.takeWhile_cons_of_neg hfolded]
      simp

theorem unfold_cons (hfolded : isFolded line = false) (hne : line ≠ [])
    (current : Option Text) (lines : List Text) :
    unfold current (line :: lines) = current.toList ++ unfold (some line) lines := by
  rw [unfold, if_neg (by simp [hfolded]), if_neg hne]

/-! ## Header blocks with lines put before them -/

theorem headerBlock_cons {b : UInt8} (h : ¬[0x0d, 0x0a, 0x0d, 0x0a] <+: b :: rest) :
    headerBlock (b :: rest) = b :: headerBlock rest := by
  rw [headerBlock, if_neg]
  rwa [List.isPrefixOf_iff_prefix]

theorem headerBlock_append_of_ne {bytes : Bytes} (h : (0x0d : UInt8) ∉ bytes) (rest : Bytes) :
    headerBlock (bytes ++ rest) = bytes ++ headerBlock rest := by
  induction bytes with
  | nil => rfl
  | cons b bytes ih =>
    rw [mem_cons, not_or] at h
    rw [cons_append, headerBlock_cons, ih h.2, cons_append]
    intro hprefix
    exact h.1 (cons_prefix_cons.1 hprefix).1

theorem not_crlf_prefix_encodeUtf8 (h : NoCrlf line) (hne : line ≠ []) (rest : Bytes) :
    ¬[0x0d, 0x0a] <+: encodeUtf8 line ++ 0x0d :: rest := by
  obtain ⟨c, line, rfl⟩ := List.exists_cons_of_ne_nil hne
  have hfirst : ∀ {b : UInt8} {d : Char} {bytes : Bytes}, b.toNat < 0x80 →
      [b] <+: String.utf8EncodeChar d ++ bytes → d = Char.ofNat b.toNat := by
    intro b d bytes hb hprefix
    obtain ⟨first, more, hbytes⟩ := List.exists_cons_of_ne_nil
      (String.utf8EncodeChar_ne_nil : String.utf8EncodeChar d ≠ [])
    rw [hbytes, cons_append] at hprefix
    refine eq_of_mem_encodeChar hb ?_
    rw [hbytes, (cons_prefix_cons.1 hprefix).1]
    exact mem_cons_self
  intro hprefix
  rw [encodeUtf8_cons, append_assoc] at hprefix
  obtain rfl : c = '\r' := hfirst (by decide) ((prefix_append [0x0d] [0x0a]).trans hprefix)
  have hnext : [0x0a] <+: encodeUtf8 line ++ 0x0d :: rest := (cons_prefix_cons.1 hprefix).2
  cases line with
  | nil => exact absurd (cons_prefix_cons.1 hnext).1 (by decide)
  | cons d line =>
    rw [encodeUtf8_cons, append_assoc] at hnext
    obtain rfl : d = '\n' := hfirst (by decide) hnext
    exact h (prefix_append ['\r', '\n'] line).isInfix

theorem headerBlock_encodeChar (h : NoCrlf (c :: line)) :
    headerBlock (encodeUtf8 (c :: line) ++ 0x0d :: rest) =
      String.utf8EncodeChar c ++ headerBlock (encodeUtf8 line ++ 0x0d :: rest) := by
  have hstart := not_crlf_prefix_encodeUtf8 h (List.cons_ne_nil c line) rest
  rw [encodeUtf8_cons, append_assoc] at hstart ⊢
  by_cases hc : c = '\r'
  · subst hc
    exact headerBlock_cons fun hprefix ↦
      hstart ((prefix_append [0x0d, 0x0a] [0x0d, 0x0a]).trans hprefix)
  · refine headerBlock_append_of_ne (fun hmem ↦ hc ?_) _
    exact eq_of_mem_encodeChar (by decide) hmem

theorem headerBlock_line (h : NoCrlf line) (hrest : ¬[0x0d, 0x0a] <+: rest) :
    headerBlock (encodeUtf8 line ++ 0x0d :: 0x0a :: rest) =
      encodeUtf8 line ++ 0x0d :: 0x0a :: headerBlock rest := by
  induction line with
  | nil =>
    change headerBlock (0x0d :: 0x0a :: rest) = 0x0d :: 0x0a :: headerBlock rest
    rw [headerBlock_cons, headerBlock_cons]
    · intro hprefix
      exact absurd (cons_prefix_cons.1 hprefix).1 (by decide)
    · intro hprefix
      exact hrest (cons_prefix_cons.1 (cons_prefix_cons.1 hprefix).2).2
  | cons c line ih => rw [headerBlock_encodeChar h, ih h.tail, encodeUtf8_cons, append_assoc]

theorem headerBlock_line_blank (h : NoCrlf line) (rest : Bytes) :
    headerBlock (encodeUtf8 line ++ 0x0d :: 0x0a :: 0x0d :: 0x0a :: rest) =
      encodeUtf8 line ++ [0x0d, 0x0a] := by
  induction line with
  | nil => rfl
  | cons c line ih => rw [headerBlock_encodeChar h, ih h.tail, encodeUtf8_cons, append_assoc]

/-- Lines that begin fields. -/
structure FieldLine (line : Text) : Prop where
  noCrlf : NoCrlf line
  ne_nil : line ≠ []
  not_folded : isFolded line = false

/-- What follows lines that are put before a message. If it goes on with an empty line, then nothing
of it is left in the header block. -/
theorem headerBlock_lines (h : ∀ line ∈ lines, FieldLine line) (hne : lines ≠ []) (raw : Bytes) :
    headerBlock (encodeUtf8 (lines.flatMap (· ++ ['\r', '\n'])) ++ raw) =
      encodeUtf8 (lines.flatMap (· ++ ['\r', '\n'])) ++
        if [0x0d, 0x0a] <+: raw then [] else headerBlock raw := by
  induction lines with
  | nil => exact absurd rfl hne
  | cons line lines ih =>
    have hline := h line mem_cons_self
    have hcrlf : encodeUtf8 ['\r', '\n'] = [0x0d, 0x0a] := by decide
    rw [flatMap_cons, encodeUtf8_append, encodeUtf8_append, hcrlf, append_assoc,
      append_assoc]
    cases lines with
    | nil =>
      by_cases hraw : [0x0d, 0x0a] <+: raw
      · obtain ⟨rest, rfl⟩ := hraw
        exact (headerBlock_line_blank hline.noCrlf rest).trans (by simp [encodeUtf8])
      · rw [if_neg hraw]
        exact (headerBlock_line hline.noCrlf hraw).trans (by simp [encodeUtf8])
    | cons next lines =>
      have hnext := h next (mem_cons_of_mem _ mem_cons_self)
      have hrest := ih (fun x hx ↦ h x (mem_cons_of_mem _ hx)) (List.cons_ne_nil _ _)
      have hstart : ¬[0x0d, 0x0a] <+:
          encodeUtf8 ((next :: lines).flatMap (· ++ ['\r', '\n'])) ++ raw := by
        rw [flatMap_cons, encodeUtf8_append, encodeUtf8_append, hcrlf, append_assoc,
          append_assoc]
        exact not_crlf_prefix_encodeUtf8 hnext.noCrlf hnext.ne_nil _
      refine (headerBlock_line hline.noCrlf hstart).trans ?_
      rw [hrest]
      simp [append_assoc]

theorem messageBody_eq_drop (raw : Bytes) :
    messageBody raw = raw.drop ((headerBlock raw).length + 2) := by
  induction raw with
  | nil => rfl
  | cons b rest ih =>
    rw [messageBody, headerBlock]
    by_cases hempty : [0x0d, 0x0a, 0x0d, 0x0a].isPrefixOf (b :: rest) = true
    · rw [if_pos hempty, if_pos hempty]
      rfl
    · rw [if_neg hempty, if_neg hempty, ih, List.length_cons, Nat.add_right_comm,
        List.drop_succ_cons]

theorem messageBody_lines (h : ∀ line ∈ lines, FieldLine line) (hne : lines ≠ [])
    {raw : Bytes} (hraw : ¬[0x0d, 0x0a] <+: raw) :
    messageBody (encodeUtf8 (lines.flatMap (· ++ ['\r', '\n'])) ++ raw) = messageBody raw := by
  rw [messageBody_eq_drop, headerBlock_lines h hne, if_neg hraw, List.length_append, Nat.add_assoc,
    List.drop_length_add_append, messageBody_eq_drop]

theorem splitCrlf_lines (h : ∀ line ∈ lines, FieldLine line) (t : Text) :
    (splitCrlf (lines.flatMap (· ++ ['\r', '\n']) ++ t)).map stripCrlf =
      lines ++ (splitCrlf t).map stripCrlf := by
  induction lines with
  | nil => rfl
  | cons line lines ih =>
    have hline := splitCrlf_line (h line mem_cons_self).noCrlf
      (lines.flatMap (· ++ ['\r', '\n']) ++ t)
    rw [flatMap_cons, append_assoc, append_assoc]
    refine (congrArg (List.map stripCrlf) hline).trans ?_
    rw [List.map_cons, stripCrlf_append, ih fun x hx ↦ h x (mem_cons_of_mem _ hx),
      cons_append]

/-- The lines that are left of a message under others. -/
def linesBelow (raw : Bytes) : Option (List Text) :=
  if [0x0d, 0x0a] <+: raw then some [] else messageLines raw

theorem messageLines_append (h : ∀ line ∈ lines, FieldLine line) (hne : lines ≠ []) (raw : Bytes) :
    messageLines (encodeUtf8 (lines.flatMap (· ++ ['\r', '\n'])) ++ raw) =
      (linesBelow raw).map (lines ++ ·) := by
  rw [messageLines, headerBlock_lines h hne, decodeUtf8_encodeUtf8_append, Option.map_map,
    linesBelow]
  by_cases hraw : [0x0d, 0x0a] <+: raw
  · rw [if_pos hraw, if_pos hraw]
    change some ((splitCrlf (lines.flatMap (· ++ ['\r', '\n']) ++ [])).map stripCrlf) =
      some (lines ++ [])
    rw [splitCrlf_lines h]
    rfl
  · rw [if_neg hraw, if_neg hraw, messageLines, Option.map_map]
    congr 1
    funext t
    exact splitCrlf_lines h t

/-- Fields that are put before lines. Lines that go on with a field go on with the last one of
them. -/
theorem unfold_append (h : ∀ line ∈ lines, FieldLine line) {last : Text}
    (hlast : FieldLine last) (below : List Text) (current : Option Text) :
    unfold current (lines ++ last :: below) =
      current.toList ++ lines ++ (last ++ leading below) :: unfold none below := by
  induction lines generalizing current with
  | nil =>
    rw [List.nil_append, unfold_cons hlast.not_folded hlast.ne_nil, unfold_some, List.append_nil]
  | cons line lines ih =>
    have hline := h line mem_cons_self
    rw [cons_append, unfold_cons hline.not_folded hline.ne_nil,
      ih fun x hx ↦ h x (mem_cons_of_mem _ hx)]
    simp

end TextFormat
