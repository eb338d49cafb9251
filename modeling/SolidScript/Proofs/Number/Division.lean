import SolidScript.Proofs.Number.Whole

namespace SolidScript.Proofs
open Float.Model UnpackedFloat Number

theorem quotient_digits {m₁ m₂ : Nat} {e t : Int} (pos₁ : 0 < m₁) (pos₂ : 0 < m₂)
    (least : -1074 ≤ e)
    (target : t = min e (max ((m₁.log2 : Int) - m₂.log2 + e - 53) (-1074))) :
    -1074 ≤ t ∧ t ≤ e ∧ (2 ^ 52 ≤ m₁ <<< (e - t).toNat / m₂ ∨ t = -1074) := by
  -- The dividend is shifted so far that the quotient has all the digits of a double.
  refine ⟨by omega, by omega, ?_⟩
  by_cases last : t = -1074
  · exact .inr last
  · left
    rw [Nat.le_div_iff_mul_le pos₂, Nat.shiftLeft_eq]
    calc 2 ^ 52 * m₂ ≤ 2 ^ 52 * 2 ^ (m₂.log2 + 1) :=
          Nat.mul_le_mul_left _ Nat.lt_log2_self.le
      _ = 2 ^ (52 + (m₂.log2 + 1)) := (Nat.pow_add ..).symm
      _ ≤ 2 ^ (m₁.log2 + (e - t).toNat) := Nat.pow_le_pow_right (by decide) (by omega)
      _ = 2 ^ m₁.log2 * 2 ^ (e - t).toNat := Nat.pow_add ..
      _ ≤ m₁ * 2 ^ (e - t).toNat := Nat.mul_le_mul_right _ (Nat.log2_self_le pos₁.ne')

theorem nearest_div (s₁ s₂ : Sign) {m₁ m₂ : Nat} {e₁ e₂ : Int} (pos₁ : 0 < m₁) (pos₂ : 0 < m₂)
    (least : -1074 ≤ e₁ - e₂) :
    NearestQuotient ((s₁ / s₂).apply (m₁ * 2 ^ (e₁ - e₂ + 1074).toNat : Nat)) m₂
      (Float.Model.pack (UnpackedFloat.div .binary64 (.finite s₁ m₁ e₁ pos₁)
        (.finite s₂ m₂ e₂ pos₂))).unpack := by
  generalize target : min (e₁ - e₂)
    (Format.binary64.targetExponent (totalExponent m₁ e₁ - totalExponent m₂ e₂)) = t
  have place : t = min (e₁ - e₂) (max ((m₁.log2 : Int) - m₂.log2 + (e₁ - e₂) - 53) (-1074)) := by
    rw [← target, targetExponent_eq, totalExponent, totalExponent]
    omega
  obtain ⟨least', low, normal⟩ := quotient_digits pos₁ pos₂ least place
  have nearest := nearest_quotient (s₁ / s₂) pos₂ least' normal
  have size : m₁ <<< (e₁ - e₂ - t).toNat * 2 ^ (t + 1074).toNat =
      m₁ * 2 ^ (e₁ - e₂ + 1074).toNat := by
    rw [Nat.shiftLeft_eq, Nat.mul_assoc, ← Nat.pow_add]
    congr 2
    omega
  rw [size, ← target] at nearest
  exact nearest

theorem NearestQuotient.of_scaled {num : Int} {den scale : Nat} {f : UnpackedFloat}
    (pos : 0 < scale) (nearest : NearestQuotient (num * scale) (den * scale) f) :
    NearestQuotient num den f := by
  have scaled (a : Int) : a * (den * scale : Nat) = a * den * scale := by
    rw [Int.natCast_mul, Int.mul_assoc]
  cases nearest with
  | finite double nearest =>
    refine .finite double fun g other => ?_
    have closer := nearest g other
    simp only [scaled, ← Int.sub_mul, Int.natAbs_mul, Int.natAbs_natCast] at closer
    exact Nat.le_of_mul_le_mul_right closer pos
  | above beyond =>
    refine .above fun g double => ?_
    have less := beyond g double
    rw [scaled] at less
    exact Int.lt_of_mul_lt_mul_right less (Int.natCast_nonneg scale)
  | below beyond =>
    refine .below fun g double => ?_
    have less := beyond g double
    rw [scaled] at less
    exact Int.lt_of_mul_lt_mul_right less (Int.natCast_nonneg scale)

theorem two_pow_units {e : Int} (least : 0 ≤ e) :
    2 ^ (e + 1074).toNat = 2 ^ e.toNat * unitsInOne := by
  have place := leastPlace_eq
  rw [unitsInOne, ← Nat.pow_add]
  congr 1
  omega

theorem isDouble_toFloat {n : Nat} (digits : n < 2 ^ 53) :
    IsDouble n.toUInt64.toFloat.toModel.unpack ∧
      units n.toUInt64.toFloat.toModel.unpack = n * unitsInOne := by
  have word : n.toUInt64.toNat = n := UInt64.toNat_ofNat_of_lt (digits.trans (by decide))
  have nearest := normalize_of (fun s _ _ => nearest_round s) (nearest_self (.zero .positive))
    (n.toUInt64.toNat) (e := 0) (by decide)
  rw [two_pow_units le_rfl, Int.toNat_zero, Nat.pow_zero, Nat.one_mul] at nearest
  obtain ⟨f, double, exact⟩ := exists_whole (a := n.toUInt64.toNat) (by omega)
  obtain ⟨double', same⟩ := nearest.eq_of_double double exact
  exact ⟨double', same.trans (by rw [word])⟩

theorem million_parts :
    (1000000 : Float).toModel.unpack = .finite .positive (10 ^ 6 * 2 ^ 33) (-33) (by decide) := rfl

theorem nearestQuotient_zero (den : Nat) (s : Sign) : NearestQuotient 0 den (.zero s) :=
  .finite (.zero s) fun g _ => by simp [units]

theorem nearest_div_million {n : Nat} {f : UnpackedFloat} (double : IsDouble f)
    (natural : units f = n * unitsInOne) :
    NearestQuotient (n * unitsInOne) (10 ^ 6) (Float.Model.pack (UnpackedFloat.div .binary64 f
      (.finite .positive (10 ^ 6 * 2 ^ 33) (-33) (by decide)))).unpack := by
  cases double with
  | zero s =>
    rw [← natural]
    cases s <;> exact nearestQuotient_zero _ _
  | @finite s m e pos digits least most normal =>
    have million : 0 < 10 ^ 6 * 2 ^ 33 := by decide
    have nearest := @nearest_div s .positive m _ e (-33) pos million (by omega)
    have size : m * 2 ^ (e - -33 + 1074).toNat = m * 2 ^ (e + 1074).toNat * 2 ^ 33 := by
      rw [Nat.mul_assoc, ← Nat.pow_add]
      congr 2
      omega
    have sign : s / .positive = s := by cases s <;> rfl
    rw [sign, size, Int.natCast_mul, apply_mul] at nearest
    rw [units] at natural
    rw [natural] at nearest
    exact nearest.of_scaled (Nat.two_pow_pos 33)

theorem ofScientific_short {n : Nat} (digits : n < 2 ^ 53) :
    Float.ofScientific n true 6 = n.toUInt64.toFloat / 1000000 := by
  have fits : n < 2 ^ 53 ∧ 6 ≤ 22 := ⟨digits, by decide⟩
  rw [Float.ofScientific, dif_pos fits]
  rfl

theorem ofScientific_long {n : Nat} (long : ¬ n < 2 ^ 53) (pos : 0 < n) :
    (Float.ofScientific n true 6).toModel = Float.Model.pack (UnpackedFloat.div .binary64
      (.finite .positive n 0 pos) (.finite .positive (10 ^ 6) 0 (by decide))) := by
  have overflow : ¬ (n < 2 ^ 53 ∧ 6 ≤ 22) := fun fits => long fits.1
  have low : ¬ (-6 : Int) > 2 ^ Format.binary64.exponentBits := by decide
  have high : ¬ (-6 : Int) < -(2 ^ Format.binary64.exponentBits + n.log2) := by
    have exponents : (2 : Int) ^ Format.binary64.exponentBits = 2048 := rfl
    omega
  have fraction : ¬ (0 : Int) ≤ -6 := by decide
  rw [Float.ofScientific, dif_neg overflow]
  change Float.Model.pack (UnpackedFloat.ofScientific .binary64 n (-6)) = _
  rw [UnpackedFloat.ofScientific, dif_neg pos.ne', if_neg low, if_neg high, if_neg fraction]
  rfl

theorem nearest_millionths (n : Nat) :
    NearestQuotient (n * unitsInOne) (10 ^ 6) (Float.ofScientific n true 6).toModel.unpack := by
  by_cases digits : n < 2 ^ 53
  · -- Both the digits and the million are doubles, so their quotient is rounded only once.
    obtain ⟨double, natural⟩ := isDouble_toFloat digits
    have nearest := nearest_div_million double natural
    rw [← million_parts] at nearest
    rw [ofScientific_short digits]
    exact nearest
  · have pos : 0 < n := by omega
    have million : 0 < 10 ^ 6 := by decide
    have nearest := @nearest_div .positive .positive n _ 0 0 pos million (by decide)
    rw [ofScientific_long digits pos]
    rw [Int.sub_zero, two_pow_units le_rfl, Int.toNat_zero, Nat.pow_zero, Nat.one_mul] at nearest
    exact nearest

end SolidScript.Proofs
