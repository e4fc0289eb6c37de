import Epistle.Text.Utf8

/-!
# Secrets in base32

The secret of a second factor is shown to its owner in base32, and read back from what they type.
Both directions keep an accumulator of 32 bits that is never cleared: only its low `nbits` bits are
pending, and what lies above them falls out in time.
-/

namespace Epistle.Auth

open TextFormat

def alphabet : Text := "ABCDEFGHIJKLMNOPQRSTUVWXYZ234567".toList

def letter (i : Fin 32) : Char := alphabet.getD i 'A'

/-- Shift a value into the accumulator. -/
def shiftIn (width bits value : ℕ) : ℕ := (bits <<< width) % 2 ^ 32 ||| value

/-- The low five bits. -/
def five (bits : ℕ) : Fin 32 := ⟨bits &&& 0x1f, Nat.lt_succ_of_le Nat.and_le_right⟩

/-- The groups of five bits that are whole, and the number of bits left. -/
def groups (bits : ℕ) : ℕ → List (Fin 32) × ℕ
  | nbits + 5 => (five (bits >>> nbits) :: (groups bits nbits).1, (groups bits nbits).2)
  | nbits => ([], nbits)

/-- The groups for the bytes to come. The last one is filled up with zeros. -/
def regroup (bits nbits : ℕ) : Bytes → List (Fin 32)
  | [] => if nbits > 0 then [five ((bits <<< (5 - nbits)) % 2 ^ 32)] else []
  | byte :: bytes =>
    let bits := shiftIn 8 bits byte.toNat
    (groups bits (nbits + 8)).1 ++ regroup bits (groups bits (nbits + 8)).2 bytes

def encodeBase32 (bytes : Bytes) : Text := (regroup 0 0 bytes).map letter

/-- The bytes for the groups to come. -/
def ungroup (bits nbits : ℕ) : List (Fin 32) → Bytes
  | [] => []
  | value :: values =>
    let bits := shiftIn 5 bits value
    if nbits + 5 ≥ 8 then
      UInt8.ofNat (bits >>> (nbits + 5 - 8)) :: ungroup bits (nbits + 5 - 8) values
    else ungroup bits (nbits + 5) values

/-- Spaces and padding are skipped, and case does not matter. A character that is no letter of the
alphabet ends the loop without a result. -/
def decodeBase32Secret (secret : Text) : Option Bytes :=
  ((toAsciiUppercase (secret.filter fun ch ↦ ch ≠ '=' ∧ ch ≠ ' ')).mapM fun ch ↦
    (List.finRange 32).find? fun i ↦ letter i = ch).map (ungroup 0 0)

theorem shiftIn_eq {width value : ℕ} (hwidth : width ≤ 32) (h : value < 2 ^ width) (bits : ℕ) :
    shiftIn width bits value = bits % 2 ^ (32 - width) * 2 ^ width + value := by
  have hsplit : (2 : ℕ) ^ 32 = 2 ^ (32 - width) * 2 ^ width := by
    rw [← pow_add, Nat.sub_add_cancel hwidth]
  rw [shiftIn, Nat.shiftLeft_eq, hsplit, Nat.mul_mod_mul_right, ← Nat.shiftLeft_eq,
    Nat.shiftLeft_add_eq_or_of_lt h]

/-- With no bits pending in the encoder the decoder has none either. With `n` bits pending it has
the `8 - n` bits before them, and together they are the byte that comes next. -/
theorem ungroup_regroup (bytes : Bytes) (e d : ℕ) :
    ungroup d 0 (regroup e 0 bytes) = bytes ∧
      ∀ n b, 0 < n → n < 5 → d % 2 ^ (8 - n) * 2 ^ n + e % 2 ^ n = b.toNat →
        ungroup d (8 - n) (regroup e n bytes) = b :: bytes := by
  have hdec (bits x : ℕ) : shiftIn 5 bits (five x) = bits % 2 ^ 27 * 2 ^ 5 + x % 2 ^ 5 := by
    rw [shiftIn_eq (by decide) (five x).isLt, ← Nat.and_two_pow_sub_one_eq_mod x 5, five]
  have hbyte (b : UInt8) (x : ℕ) (h : x % 256 = b.toNat) : UInt8.ofNat x = b :=
    UInt8.toNat_inj.1 (UInt8.toNat_ofNat'.trans h)
  induction bytes generalizing e d with
  | nil =>
    refine ⟨rfl, fun n b hpos hlt hb ↦ ?_⟩
    interval_cases n <;>
      simp only [regroup, ungroup, hdec, Nat.shiftLeft_eq, Nat.shiftRight_eq_div_pow, gt_iff_lt,
        Nat.reduceLT, Nat.reduceLeDiff, Nat.reduceSub, Nat.reduceAdd, ge_iff_le, if_true] <;>
      exact congrArg₂ _ (hbyte _ _ (by omega)) rfl
  | cons c bytes ih =>
    have hc := c.toNat_lt
    have henc : shiftIn 8 e c.toNat = e % 2 ^ 24 * 2 ^ 8 + c.toNat := shiftIn_eq (by decide) hc e
    refine ⟨?_, fun n b hpos hlt hb ↦ ?_⟩
    · simp only [regroup, groups, ungroup, hdec, henc, Nat.shiftRight_eq_div_pow,
        List.cons_append, List.nil_append, ge_iff_le, Nat.reduceLeDiff, if_false, zero_add]
      exact (ih _ _).2 3 c (by decide) (by decide) (by omega)
    · interval_cases n <;>
        simp only [regroup, groups, ungroup, hdec, henc, Nat.shiftRight_eq_div_pow, if_true,
          List.cons_append, List.nil_append, ge_iff_le, Nat.reduceLeDiff, if_false, Nat.reduceAdd,
          Nat.reduceSub]
      · exact congrArg₂ _ (hbyte _ _ (by omega)) ((ih _ _).2 4 c (by decide) (by decide) (by omega))
      · exact congrArg₂ _ (hbyte _ _ (by omega)) (congrArg₂ _ (hbyte _ _ (by omega)) (ih _ _).1)
      · exact congrArg₂ _ (hbyte _ _ (by omega)) ((ih _ _).2 1 c (by decide) (by decide) (by omega))
      · exact congrArg₂ _ (hbyte _ _ (by omega)) ((ih _ _).2 2 c (by decide) (by decide) (by omega))

/-- The text is `coded` up to the case of letters, with spaces and padding anywhere. -/
def Respelled (coded secret : Text) : Prop :=
  toAsciiUppercase (secret.filter fun ch ↦ ch ≠ '=' ∧ ch ≠ ' ') = coded

theorem decode_of_respelled {bytes : Bytes} {secret : Text}
    (h : Respelled (encodeBase32 bytes) secret) : decodeBase32Secret secret = some bytes := by
  rw [decodeBase32Secret, h, encodeBase32, mapM_map_eq_some (h := id) (by decide), List.map_id,
    Option.map_some, (ungroup_regroup bytes 0 0).1]

theorem decode_encodeBase32 (bytes : Bytes) :
    decodeBase32Secret (encodeBase32 bytes) = some bytes := by
  have hletter : ∀ i, (letter i ≠ '=' ∧ letter i ≠ ' ') ∧ (letter i).toUpper = letter i := by decide
  refine decode_of_respelled ?_
  rw [Respelled, encodeBase32, List.filter_eq_self.2, toAsciiUppercase, List.map_map]
  · exact List.map_congr_left fun i _ ↦ (hletter i).2
  · intro ch hch
    obtain ⟨i, -, rfl⟩ := List.mem_map.1 hch
    exact decide_eq_true (hletter i).1

/-- **Decoding gives back what was encoded**, in whatever spelling, and no two byte strings have the
same form. -/
theorem base32_round_trip (bytes : Bytes) :
    decodeBase32Secret (encodeBase32 bytes) = some bytes ∧
      (∀ secret, Respelled (encodeBase32 bytes) secret → decodeBase32Secret secret = some bytes) ∧
      ∀ other, encodeBase32 other = encodeBase32 bytes → other = bytes := by
  refine ⟨decode_encodeBase32 bytes, fun secret ↦ decode_of_respelled, fun other h ↦ ?_⟩
  have hother := decode_encodeBase32 other
  rw [h, decode_encodeBase32] at hother
  exact (Option.some.inj hother).symm

theorem base32_round_trip_foobar :
    decodeBase32Secret "mzxw 6ytb oi=====".toList = some [102, 111, 111, 98, 97, 114] :=
  (base32_round_trip [102, 111, 111, 98, 97, 114]).2.1 _ (by unfold Respelled; decide)

end Epistle.Auth
