import Epistle.Text.Format

/-!
# UTF-8

`decodeUtf8` reads bytes as UTF-8 and rejects everything else: stray and missing continuation bytes,
overlong forms, surrogates, and code points above `U+10FFFF`. It is Rust's `String::from_utf8`. What
`encodeUtf8` writes it reads back (`decodeUtf8_encodeUtf8_append`).
-/

namespace TextFormat

abbrev Bytes : Type := List UInt8

namespace Utf8

def isContinuation (b : UInt8) : Bool := 0x80 ≤ b && b ≤ 0xbf

def decodeTwo (a b : UInt8) : Option Char :=
  if 0xc2 ≤ a ∧ a ≤ 0xdf ∧ isContinuation b = true then
    some (Char.ofNat ((a.toNat - 0xc0) * 64 + (b.toNat - 0x80)))
  else none

def decodeThree (a b c : UInt8) : Option Char :=
  -- the second byte excludes overlong forms and surrogates
  let low : UInt8 := if a = 0xe0 then 0xa0 else 0x80
  let high : UInt8 := if a = 0xed then 0x9f else 0xbf
  if 0xe0 ≤ a ∧ a ≤ 0xef ∧ low ≤ b ∧ b ≤ high ∧ isContinuation c = true then
    some (Char.ofNat ((a.toNat - 0xe0) * 4096 + (b.toNat - 0x80) * 64 + (c.toNat - 0x80)))
  else none

def decodeFour (a b c d : UInt8) : Option Char :=
  -- the second byte excludes overlong forms and code points that are too large
  let low : UInt8 := if a = 0xf0 then 0x90 else 0x80
  let high : UInt8 := if a = 0xf4 then 0x8f else 0xbf
  if 0xf0 ≤ a ∧ a ≤ 0xf4 ∧ low ≤ b ∧ b ≤ high ∧ isContinuation c = true ∧
    isContinuation d = true then
    some (Char.ofNat ((a.toNat - 0xf0) * 262144 + (b.toNat - 0x80) * 4096 + (c.toNat - 0x80) * 64 +
      (d.toNat - 0x80)))
  else none

end Utf8

open Utf8 in
def decodeUtf8 : Bytes → Option Text
  | [] => some []
  | a :: rest =>
    if a < 0x80 then (decodeUtf8 rest).map (Char.ofNat a.toNat :: ·)
    else match rest with
      | [] => none
      | b :: rest =>
        match decodeTwo a b with
        | some char => (decodeUtf8 rest).map (char :: ·)
        | none => match rest with
          | [] => none
          | c :: rest =>
            match decodeThree a b c with
            | some char => (decodeUtf8 rest).map (char :: ·)
            | none => match rest with
              | [] => none
              | d :: rest =>
                match decodeFour a b c d with
                | some char => (decodeUtf8 rest).map (char :: ·)
                | none => none

def encodeUtf8 (t : Text) : Bytes := t.flatMap String.utf8EncodeChar

/-! ## Reading undoes writing -/

namespace Utf8

theorem toNat_ofNat {n : ℕ} (h : n < 256) : (UInt8.ofNat n).toNat = n :=
  UInt8.toNat_ofNat_of_lt h

theorem isContinuation_ofNat (n : ℕ) : isContinuation (UInt8.ofNat (n % 64 + 128)) = true := by
  have hn := toNat_ofNat (n := n % 64 + 128) (by omega)
  simp only [isContinuation, Bool.and_eq_true, decide_eq_true_eq, UInt8.le_iff_toNat_le,
    UInt8.reduceToNat, hn]
  omega

variable {v : ℕ} {a b : UInt8}

theorem decodeTwo_ofNat (h : 0x7f < v) (h' : v ≤ 0x7ff) :
    decodeTwo (UInt8.ofNat (v / 64 % 32 + 192)) (UInt8.ofNat (v % 64 + 128)) =
      some (Char.ofNat v) := by
  have ha := toNat_ofNat (n := v / 64 % 32 + 192) (by omega)
  have hb := toNat_ofNat (n := v % 64 + 128) (by omega)
  have hv : (v / 64 % 32 + 192 - 0xc0) * 64 + (v % 64 + 128 - 0x80) = v := by omega
  rw [decodeTwo, if_pos, ha, hb, hv]
  · simp only [UInt8.le_iff_toNat_le, UInt8.reduceToNat, ha]
    exact ⟨by omega, by omega, isContinuation_ofNat v⟩

theorem decodeTwo_eq_none (h : 0xdf < a.toNat) : decodeTwo a b = none := by
  refine if_neg fun hpos ↦ ?_
  have := UInt8.le_iff_toNat_le.1 hpos.2.1
  change _ ≤ 223 at this
  omega

theorem decodeThree_ofNat (h : 0x7ff < v) (h' : v ≤ 0xffff) (hvalid : v < 0xd800 ∨ 0xdfff < v) :
    decodeThree (UInt8.ofNat (v / 4096 % 16 + 224)) (UInt8.ofNat (v / 64 % 64 + 128))
      (UInt8.ofNat (v % 64 + 128)) = some (Char.ofNat v) := by
  have ha := toNat_ofNat (n := v / 4096 % 16 + 224) (by omega)
  have hb := toNat_ofNat (n := v / 64 % 64 + 128) (by omega)
  have hc := toNat_ofNat (n := v % 64 + 128) (by omega)
  have hv : (v / 4096 % 16 + 224 - 0xe0) * 4096 + (v / 64 % 64 + 128 - 0x80) * 64 +
      (v % 64 + 128 - 0x80) = v := by omega
  rw [decodeThree, if_pos, ha, hb, hc, hv]
  · simp only [UInt8.le_iff_toNat_le, ← UInt8.toNat_inj, apply_ite UInt8.toNat, UInt8.reduceToNat,
      ha, hb]
    refine ⟨by omega, by omega, ?_, ?_, isContinuation_ofNat v⟩ <;> split <;> omega

theorem decodeThree_eq_none {c : UInt8} (h : 0xef < a.toNat) : decodeThree a b c = none := by
  refine if_neg fun hpos ↦ ?_
  have := UInt8.le_iff_toNat_le.1 hpos.2.1
  change _ ≤ 239 at this
  omega

theorem decodeFour_ofNat (h : 0xffff < v) (h' : v < 0x110000) :
    decodeFour (UInt8.ofNat (v / 262144 % 8 + 240)) (UInt8.ofNat (v / 4096 % 64 + 128))
      (UInt8.ofNat (v / 64 % 64 + 128)) (UInt8.ofNat (v % 64 + 128)) = some (Char.ofNat v) := by
  have ha := toNat_ofNat (n := v / 262144 % 8 + 240) (by omega)
  have hb := toNat_ofNat (n := v / 4096 % 64 + 128) (by omega)
  have hc := toNat_ofNat (n := v / 64 % 64 + 128) (by omega)
  have hd := toNat_ofNat (n := v % 64 + 128) (by omega)
  have hv : (v / 262144 % 8 + 240 - 0xf0) * 262144 + (v / 4096 % 64 + 128 - 0x80) * 4096 +
      (v / 64 % 64 + 128 - 0x80) * 64 + (v % 64 + 128 - 0x80) = v := by omega
  rw [decodeFour, if_pos, ha, hb, hc, hd, hv]
  · simp only [UInt8.le_iff_toNat_le, ← UInt8.toNat_inj, apply_ite UInt8.toNat, UInt8.reduceToNat,
      ha, hb]
    refine ⟨by omega, by omega, ?_, ?_, isContinuation_ofNat _, isContinuation_ofNat v⟩ <;>
      split <;> omega

end Utf8

open Utf8

variable {a b : UInt8} {c char : Char}

theorem decodeUtf8_one (h : a < 0x80) (rest : Bytes) :
    decodeUtf8 (a :: rest) = (decodeUtf8 rest).map (Char.ofNat a.toNat :: ·) := by
  rw [decodeUtf8.eq_def]
  exact if_pos h

theorem decodeUtf8_two (ha : ¬a < 0x80) (h : decodeTwo a b = some c)
    (rest : Bytes) : decodeUtf8 (a :: b :: rest) = (decodeUtf8 rest).map (c :: ·) := by
  rw [decodeUtf8.eq_def]
  dsimp only
  rw [if_neg ha, h]

theorem decodeUtf8_three {c : UInt8} (ha : ¬a < 0x80) (htwo : decodeTwo a b = none)
    (h : decodeThree a b c = some char) (rest : Bytes) :
    decodeUtf8 (a :: b :: c :: rest) = (decodeUtf8 rest).map (char :: ·) := by
  rw [decodeUtf8.eq_def]
  dsimp only
  rw [if_neg ha, htwo]
  rw [h]

theorem decodeUtf8_four {c d : UInt8} (ha : ¬a < 0x80)
    (htwo : decodeTwo a b = none) (hthree : decodeThree a b c = none)
    (h : decodeFour a b c d = some char) (rest : Bytes) :
    decodeUtf8 (a :: b :: c :: d :: rest) = (decodeUtf8 rest).map (char :: ·) := by
  rw [decodeUtf8.eq_def]
  dsimp only
  rw [if_neg ha, htwo]
  rw [hthree]
  rw [h]

theorem decodeUtf8_encodeChar_append (c : Char) (rest : Bytes) :
    decodeUtf8 (String.utf8EncodeChar c ++ rest) = (decodeUtf8 rest).map (c :: ·) := by
  have hvalid : c.val.toNat < 0xd800 ∨ 0xdfff < c.val.toNat ∧ c.val.toNat < 0x110000 := c.valid
  have hofNat : Char.ofNat c.val.toNat = c := Char.ofNat_toNat c
  have hlead : ∀ n : ℕ, 0x80 ≤ n → n < 256 → ¬UInt8.ofNat n < 0x80 := by
    intro n h h'
    rw [UInt8.lt_iff_toNat_lt, toNat_ofNat h']
    exact not_lt.2 h
  rw [String.utf8EncodeChar]
  generalize c.val.toNat = v at *
  split_ifs with h1 h2 h3
  · have hone : (UInt8.ofNat v).toNat = v := toNat_ofNat (h1.trans_lt (by decide))
    have hlt : UInt8.ofNat v < 0x80 := by
      rw [UInt8.lt_iff_toNat_lt, hone]
      exact Nat.lt_succ_of_le h1
    rw [List.singleton_append, decodeUtf8_one hlt, hone, hofNat]
  · refine (decodeUtf8_two (hlead _ (by omega) (by omega))
      (decodeTwo_ofNat (by omega) h2) rest).trans ?_
    rw [hofNat]
  · have hfirst := toNat_ofNat (n := v / 4096 % 16 + 224) (by omega)
    refine (decodeUtf8_three (hlead _ (by omega) (by omega)) (decodeTwo_eq_none (by omega))
      (decodeThree_ofNat (by omega) h3 (by omega)) rest).trans ?_
    rw [hofNat]
  · have hfirst := toNat_ofNat (n := v / 262144 % 8 + 240) (by omega)
    refine (decodeUtf8_four (hlead _ (by omega) (by omega)) (decodeTwo_eq_none (by omega))
      (decodeThree_eq_none (by omega)) (decodeFour_ofNat (by omega) (by omega)) rest).trans ?_
    rw [hofNat]

theorem encodeUtf8_cons (c : Char) (t : Text) :
    encodeUtf8 (c :: t) = String.utf8EncodeChar c ++ encodeUtf8 t := List.flatMap_cons

theorem encodeUtf8_append (t u : Text) : encodeUtf8 (t ++ u) = encodeUtf8 t ++ encodeUtf8 u :=
  List.flatMap_append

theorem eq_of_mem_encodeChar (hb : b.toNat < 0x80)
    (h : b ∈ String.utf8EncodeChar c) : c = Char.ofNat b.toNat := by
  have hother : ∀ n : ℕ, 0x80 ≤ n → n < 256 → b ≠ UInt8.ofNat n := by
    rintro n hn hn' rfl
    rw [toNat_ofNat hn'] at hb
    omega
  have hofNat : Char.ofNat c.val.toNat = c := Char.ofNat_toNat c
  rw [String.utf8EncodeChar] at h
  split_ifs at h with h1 h2 h3
  · obtain rfl := List.mem_singleton.1 h
    rw [toNat_ofNat (h1.trans_lt (by decide)), hofNat]
  · simp only [List.mem_cons, List.not_mem_nil, or_false] at h
    rcases h with h | h <;> exact absurd h (hother _ (by omega) (by omega))
  · simp only [List.mem_cons, List.not_mem_nil, or_false] at h
    rcases h with h | h | h <;> exact absurd h (hother _ (by omega) (by omega))
  · simp only [List.mem_cons, List.not_mem_nil, or_false] at h
    rcases h with h | h | h | h <;> exact absurd h (hother _ (by omega) (by omega))

/-- Reading undoes writing, whatever comes after. -/
theorem decodeUtf8_encodeUtf8_append (t : Text) (rest : Bytes) :
    decodeUtf8 (encodeUtf8 t ++ rest) = (decodeUtf8 rest).map (t ++ ·) := by
  induction t with
  | nil =>
    change decodeUtf8 rest = (decodeUtf8 rest).map id
    rw [Option.map_id, id]
  | cons c t ih =>
    rw [encodeUtf8_cons, List.append_assoc, decodeUtf8_encodeChar_append, ih, Option.map_map]
    rfl

example : decodeUtf8 [0x61, 0xc3, 0xbc, 0xe2, 0x82, 0xac, 0xf0, 0x9f, 0x98, 0x80] =
    some "aü€😀".toList := by decide

example : decodeUtf8 [0xc0, 0x80] = none ∧ decodeUtf8 [0xed, 0xa0, 0x80] = none ∧
    decodeUtf8 [0x80] = none ∧ decodeUtf8 [0xe2, 0x82] = none := by decide

theorem decodeUtf8_encodeUtf8 (t : Text) : decodeUtf8 (encodeUtf8 t) = some t := by
  have happend := decodeUtf8_encodeUtf8_append t []
  rwa [List.append_nil, decodeUtf8, Option.map_some, List.append_nil] at happend

theorem encodeUtf8_injective : Function.Injective encodeUtf8 := by
  intro t u h
  exact Option.some.inj (by rw [← decodeUtf8_encodeUtf8 t, h, decodeUtf8_encodeUtf8 u])

end TextFormat
