import SolidScript.Proofs.Number.Order

namespace SolidScript

/-- Whether a double is finite with a magnitude below `2 ^ 1023`, half of the range of doubles. -/
def Number.inHalfRange (x : Float) : Bool :=
  match Number.exact x with
  | .finite _ m q => Number.numerator m q < 2 ^ 1023 * Number.denominator q
  | _ => false

namespace Proofs
open Float.Model UnpackedFloat Number

theorem mantissa_lt_of_small {m k : Nat} {q : Int} (up : k = 52 + q.toNat) (whole : 0 ≤ q)
    (small : numerator m q < 2 ^ k * denominator q) : m < 2 ^ 52 := by
  have down : (-q).toNat = 0 := by omega
  simp only [numerator, denominator, down, up, Nat.pow_eq, Nat.pow_zero, Nat.mul_one, Nat.pow_add]
    at small
  exact Nat.lt_of_mul_lt_mul_right small

inductive HalfParts : UnpackedFloat → Prop where
  | zero (s : Sign) : HalfParts (.zero s)
  | finite {s : Sign} {m : Nat} {e : Int} (pos : 0 < m) (digits : m < 2 ^ 53)
    (exponent : e ≤ 970) : HalfParts (.finite s m e pos)

theorem HalfParts.isFinite {f : UnpackedFloat} (half : HalfParts f) : f.isFinite = true := by
  cases half <;> rfl

theorem HalfParts.neg {f : UnpackedFloat} (half : HalfParts f) : HalfParts f.neg := by
  cases half with
  | zero s => exact .zero _
  | finite pos digits exponent => exact .finite pos digits exponent

theorem halfParts_of_half {x : Float} (half : inHalfRange x = true) :
    HalfParts x.toModel.unpack := by
  unfold inHalfRange Number.exact at half
  cases unpacked : x.toModel.unpack with
  | notANumber => rw [unpacked] at half; cases half
  | infinity s => rw [unpacked] at half; cases half
  | zero s => exact .zero s
  | finite s m e pos =>
    rw [unpacked] at half
    have small := of_decide_eq_true half
    obtain ⟨digits, -, exponent, normal⟩ := unpack_parts unpacked
    refine .finite pos digits ?_
    by_contra above
    -- With the last exponent a whole mantissa is half of the range already.
    have whole : 2 ^ 52 ≤ m := normal.resolve_right (by omega)
    have short := mantissa_lt_of_small (by omega) (by omega) small
    omega

theorem isFinite_of_half {x : Float} (half : inHalfRange x = true) : x.isFinite = true :=
  (halfParts_of_half half).isFinite

theorem natAbs_shifted_le (s : Sign) {m : Nat} {e t : Int} (digits : m < 2 ^ 53)
    (exponent : e ≤ 970) :
    (s.apply (m <<< (e - t).toNat : Nat)).natAbs ≤ (2 ^ 53 - 1) * 2 ^ (970 - t).toNat := by
  rw [natAbs_apply, Int.natAbs_natCast, Nat.shiftLeft_eq]
  exact Nat.mul_le_mul (by omega) (Nat.pow_le_pow_right (by decide) (by omega))

theorem below_add {a b t : Int} (low : t ≤ 970)
    (first : a.natAbs ≤ (2 ^ 53 - 1) * 2 ^ (970 - t).toNat)
    (second : b.natAbs ≤ (2 ^ 53 - 1) * 2 ^ (970 - t).toNat) : Below (a + b).natAbs t := by
  refine ⟨low, ?_⟩
  have triangle := Int.natAbs_add_le a b
  have unit : 0 < 2 ^ (970 - t).toNat := Nat.two_pow_pos _
  generalize 2 ^ (970 - t).toNat = u at *
  omega

theorem isFinite_pack_add {f g : UnpackedFloat} (first : HalfParts f) (second : HalfParts g) :
    (Float.Model.pack (UnpackedFloat.add .binary64 f g)).isFinite = true := by
  cases first with
  | zero s =>
    cases second with
    | zero s' => cases s <;> cases s' <;> rfl
    | finite pos _ exponent => exact isFinite_pack pos (by omega)
  | @finite s m e pos digits exponent =>
    cases second with
    | zero => exact isFinite_pack pos (by omega)
    | @finite s' m' e' pos' digits' exponent' =>
      have low : min e e' ≤ 970 := by omega
      exact isFinite_normalize (below_add low (natAbs_shifted_le s digits exponent)
        (natAbs_shifted_le s' digits' exponent'))

section
variable {x y : Float}

theorem isFinite_add_of_half (first : inHalfRange x = true)
    (second : inHalfRange y = true) :
    (x + y).isFinite = true :=
  isFinite_pack_add (halfParts_of_half first) (halfParts_of_half second)

theorem isFinite_sub_of_half (first : inHalfRange x = true)
    (second : inHalfRange y = true) :
    (x - y).isFinite = true := by
  change (Float.Model.pack (UnpackedFloat.sub .binary64 x.toModel.unpack
    y.toModel.unpack)).isFinite = true
  rw [unpacked_sub_eq]
  exact isFinite_pack_add (halfParts_of_half first) (halfParts_of_half second).neg

end

theorem ofMantissaAndAccuracy_mantissa (m : Nat) (a : Accuracy) :
    (ExtendedMantissa.ofMantissaAndAccuracy m a).mantissa = m := by
  cases a with
  | exact => rfl
  | inexact o => cases o <;> rfl

theorem isFinite_roundWithAccuracy_of_low (s : Sign) {m : Nat} {e : Int} (a : Accuracy)
    (low : e ≤ 970) (short : (m.log2 : Int) + e ≤ 1022) :
    (Float.Model.pack (roundWithAccuracy .binary64 s m e a)).isFinite = true := by
  apply isFinite_pack_or_zero
  simp only [targetExponent_eq, totalExponent]
  generalize shift : (max ((m.log2 : Int) + 1 + e - 53) (-1074) - e).toNat = k
  have rounded := rounded_le (ExtendedMantissa.ofMantissaAndAccuracy m a >>> k)
  rw [shift_mantissa, ofMantissaAndAccuracy_mantissa] at rounded
  have digits : m / 2 ^ k < 2 ^ 53 := by
    rw [Nat.div_lt_iff_lt_mul (Nat.two_pow_pos k), ← Nat.pow_add]
    refine Nat.lt_of_lt_of_le Nat.lt_log2_self (Nat.pow_le_pow_right (by decide) ?_)
    omega
  have length := @log2_lt_of_lt (ExtendedMantissa.ofMantissaAndAccuracy m a >>> k).roundedMantissa
    54 (by decide) (by split at rounded <;> omega)
  omega

theorem isFinite_div_two {x : Float} (finite : x.isFinite = true) : (x / 2).isFinite = true := by
  have two : (2 : Float).toModel.unpack = .finite .positive (2 ^ 52) (-51) (by decide) := rfl
  change (Float.Model.pack (UnpackedFloat.div .binary64 x.toModel.unpack
    (2 : Float).toModel.unpack)).isFinite = true
  change x.toModel.unpack.isFinite = true at finite
  rw [two]
  cases unpacked : x.toModel.unpack with
  | notANumber => rw [unpacked] at finite; cases finite
  | infinity s => rw [unpacked] at finite; cases finite
  | zero s => cases s <;> rfl
  | finite s m e pos =>
    obtain ⟨digits, exponent⟩ := unpack_bounds unpacked
    have length := log2_lt_of_lt (by decide) digits
    generalize target : min (e - -51) (max ((m.log2 : Int) + 1 + e - 2 - 53) (-1074)) = t
    have quotient : (m <<< (e - -51 - t).toNat / 2 ^ 52).log2 <
        max 1 (m.log2 + 1 + (e - -51 - t).toNat - 52) := by
      apply log2_lt_of_lt (by omega)
      rw [Nat.div_lt_iff_lt_mul (by decide), Nat.shiftLeft_eq, ← Nat.pow_add]
      calc m * 2 ^ (e - -51 - t).toNat < 2 ^ (m.log2 + 1) * 2 ^ (e - -51 - t).toNat :=
            Nat.mul_lt_mul_of_pos_right Nat.lt_log2_self (Nat.two_pow_pos _)
        _ = 2 ^ (m.log2 + 1 + (e - -51 - t).toNat) := (Nat.pow_add ..).symm
        _ ≤ _ := Nat.pow_le_pow_right (by decide) (by omega)
    have halved := @isFinite_roundWithAccuracy_of_low (s / .positive)
      (m <<< (e - -51 - t).toNat / 2 ^ 52) t
      (accuracyOfFraction (m <<< (e - -51 - t).toNat % 2 ^ 52) (2 ^ 52)) (by omega) (by omega)
    rw [← target] at halved
    exact halved

end Proofs

end SolidScript
