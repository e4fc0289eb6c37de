import Epistle.Pop3.Session

/-!
# Multi-line replies

The body of a multi-line reply goes on up to a line that is a dot. The server doubles the dot at the
beginning of a line, turns a bare LF into CRLF and appends `.` CRLF. A client reads lines until it
finds the dot, and takes one dot off each line that begins with one.

The dot is a line only if a line begins where it is appended. The server does not see to that: after
a body that does not end with a line end it stands at the end of the last line, and the client waits
for more, or takes the next reply for mail. Everything else comes out right, so a reply is framed if
and only if what it carries is empty or ends with LF (`framed_iff`). Listings always do. A message
as it is stored need not.
-/

namespace Epistle.Pop3

open TextFormat
open List (append_assoc append_nil cons_append length_cons length_nil length_take mem_append
  mem_cons)

/-! ## The server's side -/

/-- Double the dots at the beginning of lines, and put a CR before each LF that has none. -/
def dotStuff (atLineStart : Bool) (prev : UInt8) : Bytes → Bytes
  | [] => []
  | b :: rest =>
    (if atLineStart && b == 0x2e then [0x2e] else []) ++
      (if b == 0x0a && prev != 0x0d then [0x0d] else []) ++ b :: dotStuff (b == 0x0a) b rest

def Response.encode : Response → Bytes
  | .ok text => encodeUtf8 ("+OK ".toList ++ text ++ "\r\n".toList)
  | .bye text => encodeUtf8 ("+OK ".toList ++ text ++ "\r\n".toList)
  | .err text => encodeUtf8 ("-ERR ".toList ++ text ++ "\r\n".toList)
  | .multiline status body =>
    encodeUtf8 ("+OK ".toList ++ status ++ "\r\n".toList) ++ dotStuff true 0 body ++
      [0x2e, 0x0d, 0x0a]

/-! ## The client's side -/

/-- Take one dot off a line. -/
def unstuff : Bytes → Bytes
  | 0x2e :: line => line
  | line => line

/-- The rest of a line that has begun with `line`, up to CRLF, and what comes after it. -/
def readLine (line : Bytes) : Bytes → Option (Bytes × Bytes)
  | [] => none
  | b :: rest =>
    if b = 0x0a ∧ line.getLast? = some 0x0d then some (line.dropLast, rest)
    else readLine (line ++ [b]) rest

/-- Lines up to the one that is a dot, with their line ends, and what comes after it. -/
def readBody (line : Bytes) : Bytes → Option (Bytes × Bytes)
  | [] => none
  | b :: rest =>
    if b = 0x0a ∧ line.getLast? = some 0x0d then
      if line.dropLast = [0x2e] then some ([], rest)
      else (readBody [] rest).map fun r ↦ (unstuff line.dropLast ++ [0x0d, 0x0a] ++ r.1, r.2)
    else readBody (line ++ [b]) rest

/-- What a client makes of a multi-line reply, and what it leaves for the next one. -/
def readReply (bytes : Bytes) : Option (Bytes × Bytes) :=
  (readLine [] bytes).bind fun r ↦ readBody [] r.2

/-- Put a CR before each LF that has none. -/
def toCrlf (prev : UInt8) : Bytes → Bytes
  | [] => []
  | b :: rest => (if b == 0x0a && prev != 0x0d then [0x0d] else []) ++ b :: toCrlf b rest

/-- The client gets the content, with at most one line end added to it, and nothing of what
follows. -/
def Framed (response : Response) (content : Bytes) : Prop :=
  ∀ rest, ∃ added, (added = [] ∨ added = [0x0d, 0x0a]) ∧
    readReply (response.encode ++ rest) = some (toCrlf 0 content ++ added, rest)

/-- There is nothing after the last line end. -/
def Ends (data : Bytes) : Prop := data = [] ∨ data.getLast? = some 0x0a

instance (data : Bytes) : Decidable (Ends data) := inferInstanceAs (Decidable (_ ∨ _))

/-! ## Lines -/

/-- A line without its CR. -/
def chomp (line : Bytes) : Bytes := if line.getLast? = some 0x0d then line.dropLast else line

def stuffLine (line : Bytes) : Bytes := if line.head? = some 0x2e then 0x2e :: line else line

section

variable (line : Bytes)

theorem unstuff_stuffLine : unstuff (stuffLine line) = line := by
  cases line with
  | nil => rfl
  | cons b rest =>
    by_cases hb : b = 0x2e
    · subst hb
      rfl
    · rw [stuffLine, if_neg (by simpa using hb), unstuff]
      simpa using hb

theorem stuffLine_ne_dot : stuffLine line ≠ [0x2e] := by
  cases line with
  | nil => simp [stuffLine]
  | cons b rest =>
    by_cases hb : b = 0x2e <;> simp [stuffLine, hb]

theorem chomp_concat_cr : chomp (line ++ [0x0d]) = line := by
  simp [chomp]

theorem chomp_append :
    chomp line ++ [0x0d, 0x0a] = line ++ if line.getLast? = some 0x0d then [0x0a]
      else [0x0d, 0x0a] := by
  by_cases h : line.getLast? = some 0x0d
  · obtain ⟨rest, rfl⟩ := List.getLast?_eq_some_iff.1 h
    simp [chomp_concat_cr]
  · rw [chomp, if_neg h, if_neg h]

theorem stuffLine_chomp :
    stuffLine (chomp line) = (if line.head? = some 0x2e then [0x2e] else []) ++ chomp line := by
  have hhead : (chomp line).head? = some 0x2e ↔ line.head? = some 0x2e := by
    by_cases h : line.getLast? = some 0x0d
    · obtain ⟨rest, rfl⟩ := List.getLast?_eq_some_iff.1 h
      cases rest with
      | nil => simp [chomp]
      | cons b rest =>
        rw [chomp_concat_cr]
        rfl
    · rw [chomp, if_neg h]
  by_cases hdot : line.head? = some 0x2e
  · rw [stuffLine, if_pos (hhead.2 hdot), if_pos hdot]
    rfl
  · rw [stuffLine, if_neg (fun hc ↦ hdot (hhead.1 hc)), if_neg hdot]
    rfl

end

variable {line body data pattern : Bytes} {prev : UInt8} {n : ℕ}

section

variable (h : (0x0a : UInt8) ∉ line)
include h

private theorem dotStuff_inside (prev : UInt8) (more : Bytes) :
    dotStuff false prev (line ++ 0x0a :: more) =
      line ++ (if (prev :: line).getLast? = some 0x0d then [0x0a] else [0x0d, 0x0a]) ++
        dotStuff true 0x0a more := by
  induction line generalizing prev with
  | nil =>
    by_cases hprev : prev = 0x0d <;> simp [dotStuff, hprev]
  | cons b line ih =>
    rw [mem_cons, not_or] at h
    have hb : (b == 0x0a) = false := by simpa using Ne.symm h.1
    rw [cons_append, dotStuff, hb, ih h.2, List.getLast?_cons_cons]
    simp

theorem dotStuff_line (hprev : prev ≠ 0x0d) (more : Bytes) :
    dotStuff true prev (line ++ 0x0a :: more) =
      stuffLine (chomp line) ++ [0x0d, 0x0a] ++ dotStuff true 0x0a more := by
  rw [stuffLine_chomp, append_assoc _ (chomp line), chomp_append]
  cases line with
  | nil => simp [dotStuff, hprev]
  | cons b line =>
    rw [mem_cons, not_or] at h
    have hb : (b == 0x0a) = false := by simpa using Ne.symm h.1
    rw [cons_append, dotStuff, hb, dotStuff_inside h.2]
    simp

theorem dotStuff_rest (prev : UInt8) (start : Bool) :
    dotStuff start prev line = if start then stuffLine line else line := by
  induction line generalizing prev start with
  | nil => cases start <;> rfl
  | cons b line ih =>
    rw [mem_cons, not_or] at h
    have hb : (b == 0x0a) = false := by simpa using Ne.symm h.1
    rw [dotStuff, hb, ih h.2]
    cases start with
    | false => simp
    | true =>
      by_cases hdot : b = 0x2e <;> simp [stuffLine, hdot]

private theorem toCrlf_inside (prev : UInt8) (more : Bytes) :
    toCrlf prev (line ++ 0x0a :: more) =
      line ++ (if (prev :: line).getLast? = some 0x0d then [0x0a] else [0x0d, 0x0a]) ++
        toCrlf 0x0a more := by
  induction line generalizing prev with
  | nil =>
    by_cases hprev : prev = 0x0d <;> simp [toCrlf, hprev]
  | cons b line ih =>
    rw [mem_cons, not_or] at h
    have hb : (b == 0x0a) = false := by simpa using Ne.symm h.1
    rw [cons_append, toCrlf, hb, ih h.2, List.getLast?_cons_cons]
    simp

theorem toCrlf_line (hprev : prev ≠ 0x0d) (more : Bytes) :
    toCrlf prev (line ++ 0x0a :: more) = chomp line ++ [0x0d, 0x0a] ++ toCrlf 0x0a more := by
  rw [toCrlf_inside h, chomp_append]
  cases line with
  | nil => simp [hprev]
  | cons b line => rw [List.getLast?_cons_cons]

/-! ## Reading -/

theorem readLine_append (begun rest : Bytes) :
    readLine begun (line ++ 0x0d :: 0x0a :: rest) = some (begun ++ line, rest) := by
  induction line generalizing begun with
  | nil => simp [readLine]
  | cons b line ih =>
    rw [mem_cons, not_or] at h
    rw [cons_append, readLine, if_neg fun hc ↦ h.1 hc.1.symm, ih h.2]
    simp

theorem readBody_append (begun rest : Bytes) :
    readBody begun (line ++ 0x0d :: 0x0a :: rest) =
      if begun ++ line = [0x2e] then some ([], rest)
      else (readBody [] rest).map fun r ↦
        (unstuff (begun ++ line) ++ [0x0d, 0x0a] ++ r.1, r.2) := by
  induction line generalizing begun with
  | nil => simp [readBody]
  | cons b line ih =>
    rw [mem_cons, not_or] at h
    rw [cons_append, readBody, if_neg fun hc ↦ h.1 hc.1.symm, ih h.2]
    simp

end

/-- To show something of every body, go through its lines. -/
@[elab_as_elim]
theorem lines_induction {P : Bytes → Prop} (body : Bytes)
    (rest : ∀ body, (0x0a : UInt8) ∉ body → P body)
    (line : ∀ line more, (0x0a : UInt8) ∉ line → P more → P (line ++ 0x0a :: more)) : P body := by
  induction hlength : body.length using Nat.strong_induction_on generalizing body with
  | _ length ih =>
    by_cases h : (0x0a : UInt8) ∈ body
    · obtain ⟨first, more, rfl, hfirst⟩ := List.eq_append_cons_of_mem h
      refine line first more hfirst (ih more.length ?_ more rfl)
      rw [← hlength, List.length_append, length_cons]
      omega
    · exact rest body h

theorem ends_line (line more : Bytes) : Ends (line ++ 0x0a :: more) ↔ Ends more := by
  rcases List.eq_nil_or_concat more with rfl | ⟨init, last, rfl⟩
  · simp [Ends]
  · have hlast : (line ++ 0x0a :: init.concat last).getLast? = some last := by
      rw [List.concat_eq_append, ← cons_append, ← append_assoc, List.getLast?_concat]
    rw [Ends, Ends, hlast, List.concat_eq_append, List.getLast?_concat]
    simp

theorem ends_of_not_mem (h : (0x0a : UInt8) ∉ body) : Ends body ↔ body = [] :=
  or_iff_left fun hlast ↦ h (List.mem_of_getLast? hlast)

theorem readBody_line (h : (0x0a : UInt8) ∉ line) (hprev : prev ≠ 0x0d) (more tail : Bytes) :
    readBody [] (dotStuff true prev (line ++ 0x0a :: more) ++ tail) =
      (readBody [] (dotStuff true 0x0a more ++ tail)).map fun r ↦
        (chomp line ++ [0x0d, 0x0a] ++ r.1, r.2) := by
  have hsent : (0x0a : UInt8) ∉ stuffLine (chomp line) := by
    intro hmem
    rw [stuffLine_chomp, mem_append] at hmem
    rcases hmem with hdot | hmem
    · split at hdot
      · simp at hdot
      · cases hdot
    · rw [chomp] at hmem
      split at hmem
      · exact h (List.mem_of_mem_dropLast hmem)
      · exact h hmem
  have happend : stuffLine (chomp line) ++ [0x0d, 0x0a] ++ dotStuff true 0x0a more ++ tail =
      stuffLine (chomp line) ++ 0x0d :: 0x0a :: (dotStuff true 0x0a more ++ tail) := by simp
  rw [dotStuff_line h hprev, happend, readBody_append hsent, List.nil_append,
    if_neg (stuffLine_ne_dot _), unstuff_stuffLine]

/-- **The body that a client reads**, if nothing comes after its last line end. -/
theorem readBody_dotStuff (body : Bytes) (hprev : prev ≠ 0x0d) (h : Ends body) (rest : Bytes) :
    readBody [] (dotStuff true prev body ++ [0x2e, 0x0d, 0x0a] ++ rest) =
      some (toCrlf prev body, rest) := by
  induction body using lines_induction generalizing prev with
  | rest body hnone =>
    obtain rfl := (ends_of_not_mem hnone).1 h
    rfl
  | line line more hline ih =>
    rw [append_assoc, readBody_line hline hprev, ← append_assoc,
      ih (by decide) ((ends_line line more).1 h), toCrlf_line hline hprev, Option.map_some]

/-- After any other body the client reads past the end of the reply. -/
theorem readBody_eq_none (body : Bytes) (hprev : prev ≠ 0x0d) (h : ¬Ends body) :
    readBody [] (dotStuff true prev body ++ [0x2e, 0x0d, 0x0a]) = none := by
  induction body using lines_induction generalizing prev with
  | rest body hnone =>
    have hne : body ≠ [] := fun hnil ↦ h ((ends_of_not_mem hnone).2 hnil)
    have hsent : (0x0a : UInt8) ∉ stuffLine body ++ [0x2e] := by
      rw [stuffLine]
      split <;> simp [hnone]
    have hdot : stuffLine body ++ [0x2e] ≠ [0x2e] := by
      rw [stuffLine]
      split
      · simp
      · simp [hne]
    have happend : dotStuff true prev body ++ [0x2e, 0x0d, 0x0a] =
        (stuffLine body ++ [0x2e]) ++ 0x0d :: 0x0a :: [] := by
      rw [dotStuff_rest hnone]
      simp
    -- the dot is at the end of the last line
    rw [happend, readBody_append hsent, List.nil_append, if_neg hdot]
    rfl
  | line line more hline ih =>
    rw [readBody_line hline hprev, ih (by decide) fun hmore ↦ h ((ends_line line more).2 hmore)]
    rfl

/-! ## Replies -/

theorem readReply_multiline {status : Text} (h : '\n' ∉ status) (body rest : Bytes) :
    readReply ((Response.multiline status body).encode ++ rest) =
      readBody [] (dotStuff true 0 body ++ [0x2e, 0x0d, 0x0a] ++ rest) := by
  have hstatus : (0x0a : UInt8) ∉ encodeUtf8 ("+OK ".toList ++ status) := by
    intro hmem
    obtain ⟨c, hc, hbyte⟩ := List.mem_flatMap.1 hmem
    obtain rfl : c = '\n' := eq_of_mem_encodeChar (by decide) hbyte
    rcases mem_append.1 hc with hc | hc
    · exact absurd hc (by decide)
    · exact h hc
  have hline : encodeUtf8 "\r\n".toList = [0x0d, 0x0a] := by decide
  rw [readReply, Response.encode, encodeUtf8_append, hline]
  have happend : encodeUtf8 ("+OK ".toList ++ status) ++ [0x0d, 0x0a] ++ dotStuff true 0 body ++
      [0x2e, 0x0d, 0x0a] ++ rest = encodeUtf8 ("+OK ".toList ++ status) ++ 0x0d :: 0x0a ::
        (dotStuff true 0 body ++ [0x2e, 0x0d, 0x0a] ++ rest) := by simp
  rw [happend, readLine_append hstatus]
  rfl

/-- **A reply is framed if and only if nothing comes after the last line end of its content.** -/
theorem framed_multiline_iff {status : Text} (h : '\n' ∉ status) (content : Bytes) :
    Framed (.multiline status content) content ↔ Ends content := by
  constructor
  · intro hframed
    by_contra hends
    obtain ⟨added, -, hread⟩ := hframed []
    rw [readReply_multiline h, append_nil, readBody_eq_none content (by decide) hends] at hread
    cases hread
  · intro hends rest
    refine ⟨[], .inl rfl, ?_⟩
    rw [readReply_multiline h, readBody_dotStuff content (by decide) hends, append_nil]

/-! ## The top of a message -/

/-- The first place after an occurrence of a pattern. -/
structure FirstEnd (pattern data : Bytes) (n : ℕ) : Prop where
  le_length : n ≤ data.length
  suffix : pattern <:+ data.take n
  first : ∀ m < n, ¬pattern <:+ data.take m

/-- Where the headers of a message end: after its first empty line, or at its end if it has none.
Lines that end with CRLF are looked for first. -/
inductive HeaderEnd (data : Bytes) : ℕ → Prop
  | crlf {n : ℕ} (h : FirstEnd [0x0d, 0x0a, 0x0d, 0x0a] data n) : HeaderEnd data n
  | lf {n : ℕ} (hcrlf : ∀ m, ¬[0x0d, 0x0a, 0x0d, 0x0a] <:+ data.take m)
      (h : FirstEnd [0x0a, 0x0a] data n) : HeaderEnd data n
  | none (hcrlf : ∀ m, ¬[0x0d, 0x0a, 0x0d, 0x0a] <:+ data.take m)
      (hlf : ∀ m, ¬[0x0a, 0x0a] <:+ data.take m) : HeaderEnd data data.length

private theorem isPrefixOf_drop_iff {i : ℕ} (hi : i + pattern.length ≤ data.length) :
    pattern.isPrefixOf (data.drop i) = true ↔ pattern <:+ data.take (i + pattern.length) := by
  rw [List.isPrefixOf_iff_prefix, List.take_add, List.prefix_iff_eq_take]
  have hlength : (List.take pattern.length (List.drop i data)).length = pattern.length := by
    rw [length_take, List.length_drop]
    omega
  constructor
  · intro heq
    rw [← heq]
    exact List.suffix_append _ _
  · rintro ⟨init, hinit⟩
    exact (List.append_inj' hinit hlength.symm).2

private theorem find_eq_some (hne : pattern ≠ []) (h : FirstEnd pattern data n) :
    (List.range data.length).find? (fun i ↦ pattern.isPrefixOf (data.drop i)) =
      some (n - pattern.length) := by
  have hpos : 0 < pattern.length := List.length_pos_of_ne_nil hne
  have hle : pattern.length ≤ n := by
    have hlength := h.suffix.length_le
    rw [length_take] at hlength
    omega
  have hn := h.le_length
  rw [List.find?_range_eq_some]
  refine ⟨?_, List.mem_range.2 (by omega), fun j hj ↦ ?_⟩
  · rw [isPrefixOf_drop_iff (by omega), Nat.sub_add_cancel hle]
    exact h.suffix
  · rw [Bool.not_eq_true']
    by_contra hfound
    rw [Bool.not_eq_false, isPrefixOf_drop_iff (by omega)] at hfound
    exact h.first (j + pattern.length) (by omega) hfound

private theorem find_eq_none (h : ∀ m, ¬pattern <:+ data.take m) :
    (List.range data.length).find? (fun i ↦ pattern.isPrefixOf (data.drop i)) = none := by
  rw [List.find?_range_eq_none]
  intro i hi
  rw [Bool.not_eq_true']
  by_contra hfound
  rw [Bool.not_eq_false] at hfound
  have hlength := (List.isPrefixOf_iff_prefix.1 hfound).length_le
  rw [List.length_drop] at hlength
  exact h _ ((isPrefixOf_drop_iff (by omega)).1 hfound)

theorem HeaderEnd.eq (h : HeaderEnd data n) : findHeaderEnd data = n := by
  cases h with
  | crlf h =>
    have hle := h.suffix.length_le
    rw [length_take] at hle
    simp only [length_cons, length_nil] at hle
    simp only [findHeaderEnd, find_eq_some (List.cons_ne_nil _ _) h, length_cons, length_nil]
    omega
  | lf hcrlf h =>
    have hle := h.suffix.length_le
    rw [length_take] at hle
    simp only [length_cons, length_nil] at hle
    simp only [findHeaderEnd, find_eq_none hcrlf, find_eq_some (List.cons_ne_nil _ _) h,
      length_cons, length_nil]
    omega
  | none hcrlf hlf => simp only [findHeaderEnd, find_eq_none hcrlf, find_eq_none hlf]

/-- Lines that are taken are whole lines, as long as there are any. -/
theorem getLast?_takeLines {k : ℕ} (h : k + 1 ≤ body.count 0x0a) :
    (takeLines (k + 1) body).getLast? = some 0x0a := by
  induction body generalizing k with
  | nil => simp at h
  | cons b body ih =>
    rw [takeLines, List.getLast?_cons]
    by_cases hb : b = 0x0a
    · subst hb
      rw [if_pos rfl]
      cases k with
      | zero => simp [takeLines]
      | succ k =>
        rw [ih (by simpa using h)]
        rfl
    · rw [List.count_cons_of_ne hb] at h
      rw [if_neg hb, ih h]
      rfl

theorem takeLines_of_lt {k : ℕ} (h : body.count 0x0a < k) : takeLines k body = body := by
  induction body generalizing k with
  | nil => cases k <;> rfl
  | cons b body ih =>
    obtain ⟨k, rfl⟩ : ∃ k', k = k' + 1 := ⟨k - 1, by omega⟩
    rw [takeLines, ih]
    by_cases hb : b = 0x0a
    · subst hb
      rw [List.count_cons_self] at h
      rw [if_pos rfl]
      omega
    · rw [List.count_cons_of_ne hb] at h
      rwa [if_neg hb]

/-- The headers end with an empty line, or they are the whole message. -/
theorem HeaderEnd.ends_or (h : HeaderEnd data n) :
    (data.take n).getLast? = some 0x0a ∨ n = data.length := by
  cases h with
  | crlf h | lf _ h =>
    obtain ⟨init, hinit⟩ := h.suffix
    exact .inl (by rw [← hinit, List.getLast?_append]; rfl)
  | none => exact .inr rfl

/-- What `TOP` gives ends with a line end if the message does, or if there are lines enough. -/
theorem ends_topOf_iff (h : HeaderEnd data n) (k : ℕ) :
    Ends (topOf data k) ↔
      Ends data ∨ Ends (data.take n) ∧ k ≤ (data.drop n).count 0x0a := by
  have htop : topOf data k = data.take n ++ takeLines k (data.drop n) := by rw [topOf, h.eq]
  by_cases hk : k ≤ (data.drop n).count 0x0a
  · cases k with
    | zero =>
      have hhead : Ends data → Ends (data.take n) := by
        intro hdata
        rcases h.ends_or with hlast | rfl
        · exact .inr hlast
        · rwa [List.take_length]
      have hnone : takeLines 0 (data.drop n) = [] := by simp [takeLines]
      rw [htop, hnone, append_nil]
      exact ⟨fun hends ↦ .inr ⟨hends, hk⟩, fun hor ↦ hor.elim hhead And.left⟩
    | succ k =>
      have hlines := getLast?_takeLines hk
      have htopEnds : Ends (topOf data (k + 1)) := by
        right
        rw [htop, List.getLast?_append, hlines]
        rfl
      have hhead : Ends (data.take n) := by
        rcases h.ends_or with hlast | rfl
        · exact .inr hlast
        · simp at hk
      exact iff_of_true htopEnds (.inr ⟨hhead, hk⟩)
  · rw [htop, takeLines_of_lt (by omega), List.take_append_drop]
    exact ⟨.inl, fun hor ↦ hor.elim id fun hand ↦ absurd hand.2 hk⟩

/-! ## Sessions -/

/-- A listing: one line for each message that is not deleted. -/
def listing (entry : Message → Text) (s : Session) : Bytes :=
  encodeUtf8 (s.live.flatMap fun numbered ↦
    decimal numbered.1 ++ ' ' :: entry numbered.2 ++ "\r\n".toList)

/-- What the reply to a command is to carry: a message, the headers and first lines of a message, or
a listing. -/
inductive Carries (s : Session) : Command → Bytes → Prop
  | retr {n : ℕ} {message : Message} (h : s.liveMessage n = some message) :
      Carries s (.retr n) message.data
  | top {n k e : ℕ} {message : Message} (h : s.liveMessage n = some message)
      (hend : HeaderEnd message.data e) :
      Carries s (.top n k) (message.data.take e ++ takeLines k (message.data.drop e))
  | list : Carries s (.list none) (listing (fun message ↦ decimal message.data.length) s)
  | uidl : Carries s (.uidl none) (listing Message.uid s)

/-- The message ends with a line end, or is not sent up to its end: `TOP` finds an empty line and
after it as many line ends as it is asked for. -/
def Terminated (s : Session) : Command → Prop
  | .retr n => ∀ message, s.liveMessage n = some message → Ends message.data
  | .top n k => ∀ message, s.liveMessage n = some message → ∀ e, HeaderEnd message.data e →
      Ends message.data ∨ Ends (message.data.take e) ∧ k ≤ (message.data.drop e).count 0x0a
  | _ => True

theorem not_mem_octets (n : ℕ) (text : Text) (h : '\n' ∉ text) : '\n' ∉ decimal n ++ text := by
  rw [mem_append, not_or]
  exact ⟨not_mem_decimal (by decide), h⟩

theorem ends_listing (entry : Message → Text) (s : Session) : Ends (listing entry s) := by
  rw [listing]
  rcases List.eq_nil_or_concat s.live with hnil | ⟨init, last, hlast⟩
  · rw [hnil]
    exact .inl rfl
  · right
    have hcrlf : encodeUtf8 "\r\n".toList = [0x0d, 0x0a] := by decide
    rw [hlast, List.concat_eq_append, List.flatMap_append, List.flatMap_singleton,
      encodeUtf8_append, encodeUtf8_append, hcrlf, ← append_assoc]
    simp

/-- **Which replies are framed.** A client that reads the reply to `RETR`, `TOP`, `LIST` or `UIDL`
gets what the reply is to carry, and nothing of what follows, if and only if the message ends with a
line end or is not sent up to its end. -/
theorem framed_iff {s : Session} {command : Command} {content : Bytes}
    (h : Carries s command content) :
    Framed (s.transaction command).1 content ↔ Terminated s command := by
  cases h with
  | @retr n message h =>
    have hreply : (s.transaction (.retr n)).1 =
        .multiline (decimal message.data.length ++ " octets".toList) message.data := by
      simp only [Session.transaction, Session.withMessage, h, Session.respond]
    rw [hreply, framed_multiline_iff (not_mem_octets _ _ (by decide))]
    refine ⟨fun hends other hother ↦ ?_, fun hends ↦ hends message h⟩
    obtain rfl := Option.some.inj (h.symm.trans hother)
    exact hends
  | @top n k e message h hend =>
    have hreply : (s.transaction (.top n k)).1 = .multiline "top".toList
      (topOf message.data k) := by
      simp only [Session.transaction, Session.withMessage, h, Session.respond]
    have htop : message.data.take e ++ takeLines k (message.data.drop e) =
      topOf message.data k := by
      rw [topOf, hend.eq]
    rw [hreply, htop, framed_multiline_iff (by decide), ends_topOf_iff hend]
    refine ⟨fun hends other hother e' he' ↦ ?_, fun hends ↦ hends message h e hend⟩
    obtain rfl := Option.some.inj (h.symm.trans hother)
    obtain rfl := hend.eq.symm.trans he'.eq
    exact hends
  | list =>
    have hreply : (s.transaction (.list none)).1 = .multiline (decimal s.live.length ++
        " messages".toList) (listing (fun message ↦ decimal message.data.length) s) := rfl
    rw [hreply, framed_multiline_iff (not_mem_octets _ _ (by decide))]
    exact iff_of_true (ends_listing _ s) trivial
  | uidl =>
    have hreply : (s.transaction (.uidl none)).1 = .multiline "unique-id listing".toList
        (listing Message.uid s) := rfl
    rw [hreply, framed_multiline_iff (by decide)]
    exact iff_of_true (ends_listing _ s) trivial

def holding (data : Bytes) : Session :=
  ⟨.transaction, none, some "u".toList, [⟨"m".toList, data, false⟩]⟩

/-- A message of two lines, and a dot at the beginning of the second. -/
theorem framed_dotted :
    Carries (holding [0x61, 0x0a, 0x2e, 0x0a]) (.retr 1) [0x61, 0x0a, 0x2e, 0x0a] ∧
      Framed ((holding [0x61, 0x0a, 0x2e, 0x0a]).transaction (.retr 1)).1
        [0x61, 0x0a, 0x2e, 0x0a] := by
  have hlive : (holding [0x61, 0x0a, 0x2e, 0x0a]).liveMessage 1 =
      some ⟨"m".toList, [0x61, 0x0a, 0x2e, 0x0a], false⟩ := rfl
  refine ⟨.retr hlive, (framed_iff (.retr hlive)).2 fun message hmessage ↦ ?_⟩
  obtain rfl := Option.some.inj (hlive.symm.trans hmessage)
  decide

/-- A message without a line end: the client takes the next reply for mail. -/
theorem unterminated_not_framed :
    Carries (holding [0x61]) (.retr 1) [0x61] ∧
      ¬Framed ((holding [0x61]).transaction (.retr 1)).1 [0x61] ∧
      readReply (((holding [0x61]).transaction (.retr 1)).1.encode) = none ∧
      (readReply (((holding [0x61]).transaction (.retr 1)).1.encode ++
        ((holding [0x61]).transaction (.list none)).1.encode)).isSome := by
  have hnone : readReply (((holding [0x61]).transaction (.retr 1)).1.encode) = none := by
    decide
  have hlive : (holding [0x61]).liveMessage 1 = some ⟨"m".toList, [0x61], false⟩ := rfl
  refine ⟨.retr hlive, fun hframed ↦ ?_, hnone, by decide⟩
  obtain ⟨added, -, hread⟩ := hframed []
  cases hread

end Epistle.Pop3
