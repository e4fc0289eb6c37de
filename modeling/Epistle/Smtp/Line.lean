import Epistle.Text.Utf8

/-!
# Strict line framing

A line ends with CR LF. A bare CR or LF and a NUL byte are errors, never repaired. The decoder keeps
the bytes that have been received and not yet taken; a line is taken when it is complete.

`CrlfLines` is what a message looks like that no reader can cut differently: lines without NUL, CR
and LF of their own, each followed by CR LF.
-/

namespace Epistle.Smtp

open TextFormat

/-- The longest line, without its CR LF. -/
def maxLineLength : ℕ := 998

inductive LineError
  | bareControlCharacter
  | tooLong
  | nulByte
  deriving DecidableEq, Repr

def crlf : Bytes := [0x0d, 0x0a]

/-- Look for the end of the line, after `taken` bytes of it. -/
def scanLine (taken : ℕ) : Bytes → Except LineError (Option (Bytes × Bytes))
  | [] => if taken > maxLineLength + 1 then .error .tooLong else .ok none
  | b :: rest =>
    if b = 0 then .error .nulByte
    else if b = 0x0a then .error .bareControlCharacter
    else if b = 0x0d then
      match rest with
      -- the CR is the last byte so far: wait for more
      | [] => .ok none
      | next :: rest =>
        if next = 0x0a then
          if taken > maxLineLength then .error .tooLong else .ok (some ([], rest))
        else .error .bareControlCharacter
    else (scanLine (taken + 1) rest).map fun found ↦
      found.map fun cut ↦ (b :: cut.1, cut.2)

def nextLine (buffer : Bytes) : Except LineError (Option (Bytes × Bytes)) := scanLine 0 buffer

/-- A byte that may stand in a line. -/
def Plain (b : UInt8) : Prop := b ≠ 0 ∧ b ≠ 0x0d ∧ b ≠ 0x0a

/-- The line has no NUL, and no CR or LF of its own. -/
def CleanLine (line : Bytes) : Prop := ∀ b ∈ line, Plain b

/-- A concatenation of clean lines, each with its CR LF. -/
def CrlfLines (data : Bytes) : Prop :=
  ∃ lines : List Bytes, (∀ line ∈ lines, CleanLine line) ∧ data = lines.flatMap (· ++ crlf)

theorem CleanLine.nil : CleanLine [] := nofun

variable {b : UInt8} {line data : Bytes}

theorem CleanLine.cons (hb : Plain b) (hline : CleanLine line) :
    CleanLine (b :: line) := by
  intro c hc
  rcases List.mem_cons.mp hc with rfl | hc
  · exact hb
  · exact hline c hc

/-- A line that is taken is clean and not too long, and the buffer is cut right after it. -/
theorem scanLine_spec {taken : ℕ} {buffer rest : Bytes}
    (h : scanLine taken buffer = .ok (some (line, rest))) :
    buffer = line ++ crlf ++ rest ∧ CleanLine line ∧ taken + line.length ≤ maxLineLength := by
  induction buffer generalizing taken line with
  | nil =>
    rw [scanLine] at h
    split at h <;> exact absurd h nofun
  | cons b tail ih =>
    unfold scanLine at h
    split at h
    · exact absurd h nofun
    · rename_i hnul
      split at h
      · exact absurd h nofun
      · rename_i hlf
        split at h
        · -- the line may end here
          rename_i hcr
          split at h
          · exact absurd h nofun
          · split at h
            · rename_i hnext
              split at h
              · exact absurd h nofun
              · rename_i hlength
                obtain ⟨rfl, rfl⟩ := Prod.mk.inj (Option.some.inj (Except.ok.inj h))
                rw [hcr, hnext]
                exact ⟨rfl, CleanLine.nil, Nat.le_of_not_lt hlength⟩
            · exact absurd h nofun
        · rename_i hcr
          cases hscan : scanLine (taken + 1) tail with
          | error error =>
            rw [hscan] at h
            exact absurd h nofun
          | ok found =>
            rw [hscan] at h
            cases found with
            | none => exact absurd h nofun
            | some cut =>
              obtain ⟨rfl, rfl⟩ := Prod.mk.inj (Option.some.inj (Except.ok.inj h))
              obtain ⟨htail, hclean, hlength⟩ := ih hscan
              refine ⟨?_, hclean.cons ⟨hnul, hcr, hlf⟩, ?_⟩
              · rw [htail]
                simp
              · rw [List.length_cons]
                omega

theorem nextLine_spec {buffer rest : Bytes} (h : nextLine buffer = .ok (some (line, rest))) :
    buffer = line ++ crlf ++ rest ∧ CleanLine line ∧ line.length ≤ maxLineLength := by
  have hspec := scanLine_spec h
  rwa [Nat.zero_add] at hspec

/-! ## Checking -/

/-- Whether the data are lines; `inside` says that a line has begun. -/
def isCrlfLines (inside : Bool) : Bytes → Bool
  | [] => !inside
  | b :: rest =>
    if b = 0 ∨ b = 0x0a then false
    else if b = 0x0d then
      match rest with
      | [] => false
      | next :: rest => next == 0x0a && isCrlfLines false rest
    else isCrlfLines true rest

theorem CrlfLines.nil : CrlfLines [] := ⟨[], nofun, rfl⟩

theorem CrlfLines.cons (hline : CleanLine line) (hdata : CrlfLines data) :
    CrlfLines (line ++ crlf ++ data) := by
  obtain ⟨lines, hclean, rfl⟩ := hdata
  refine ⟨line :: lines, ?_, by rw [List.flatMap_cons]⟩
  intro other hother
  rcases List.mem_cons.mp hother with rfl | hother
  · exact hline
  · exact hclean other hother

def Begun (data : Bytes) : Prop :=
  ∃ line rest, CleanLine line ∧ CrlfLines rest ∧ data = line ++ crlf ++ rest

theorem crlfLines_iff : CrlfLines data ↔ data = [] ∨ Begun data := by
  constructor
  · rintro ⟨lines, hclean, rfl⟩
    cases lines with
    | nil => exact .inl rfl
    | cons line lines =>
      exact .inr ⟨line, lines.flatMap (· ++ crlf), hclean line List.mem_cons_self,
        ⟨lines, fun other hother ↦ hclean other (List.mem_cons_of_mem _ hother), rfl⟩,
        List.flatMap_cons⟩
  · rintro (rfl | ⟨line, rest, hline, hrest, rfl⟩)
    · exact CrlfLines.nil
    · exact CrlfLines.cons hline hrest

theorem not_begun_nil : ¬Begun [] := by
  rintro ⟨line, rest, -, -, heq⟩
  simp [crlf] at heq

theorem begun_cons (hb : Plain b) : Begun (b :: data) ↔ Begun data := by
  constructor
  · rintro ⟨line, rest, hline, hrest, heq⟩
    cases line with
    | nil => exact absurd (List.cons.inj heq).1 hb.2.1
    | cons c line =>
      exact ⟨line, rest, fun d hd ↦ hline d (List.mem_cons_of_mem _ hd), hrest,
        (List.cons.inj heq).2⟩
  · rintro ⟨line, rest, hline, hrest, rfl⟩
    exact ⟨b :: line, rest, hline.cons hb, hrest, rfl⟩

theorem begun_cr : Begun (0x0d :: data) ↔ ∃ rest, data = 0x0a :: rest ∧ CrlfLines rest := by
  constructor
  · rintro ⟨line, rest, hline, hrest, heq⟩
    cases line with
    | nil => exact ⟨rest, (List.cons.inj heq).2, hrest⟩
    | cons c line =>
      have hc : Plain c := hline c List.mem_cons_self
      exact absurd (List.cons.inj heq).1.symm hc.2.1
  · rintro ⟨rest, rfl, hrest⟩
    exact ⟨[], rest, CleanLine.nil, hrest, rfl⟩

theorem not_begun_cons (hb : b = 0 ∨ b = 0x0a) : ¬Begun (b :: data) := by
  rintro ⟨line, rest, hline, hrest, heq⟩
  cases line with
  | nil =>
    have hcr : b = 0x0d := (List.cons.inj heq).1
    rcases hb with hb | hb <;> exact absurd (hcr.symm.trans hb) (by decide)
  | cons c line =>
    have hc : Plain c := hline c List.mem_cons_self
    rw [← (List.cons.inj heq).1] at hc
    rcases hb with hb | hb
    · exact hc.1 hb
    · exact hc.2.2 hb

theorem isCrlfLines_iff (inside : Bool) (data : Bytes) :
    isCrlfLines inside data = true ↔ (data = [] ∧ inside = false) ∨ Begun data := by
  fun_induction isCrlfLines inside data with
  | case1 inside => simp [not_begun_nil]
  | case2 inside b rest hb => simp [not_begun_cons hb]
  | case3 inside hb => simp [begun_cr]
  | case4 inside hb next rest ih =>
    rw [Bool.and_eq_true, beq_iff_eq, ih, begun_cr]
    simp [crlfLines_iff]
  | case5 inside b rest hb hcr ih =>
    have hplain : Plain b := ⟨fun h ↦ hb (.inl h), hcr, fun h ↦ hb (.inr h)⟩
    rw [ih, begun_cons hplain]
    simp

instance (data : Bytes) : Decidable (CrlfLines data) :=
  decidable_of_iff (isCrlfLines false data = true) <| by
    rw [isCrlfLines_iff, crlfLines_iff]
    simp

end Epistle.Smtp
