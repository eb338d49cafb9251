import Mathlib.Tactic.Ring
import Mathlib.Tactic.GCongr
import SolidScript.Number.Exact

namespace SolidScript.Proofs
open Float.Model UnpackedFloat

/-! ## Packing -/

theorem isFinite_packComponents {s : Sign} {e : BitVec 11} {m : BitVec 52} (small : e ≠ -1#11) :
    (UnpackedFloat.unpack .binary64 (packComponents .binary64 s e m)).isFinite = true := by
  have exponent : unpackExponent (packComponents .binary64 s e m) ≠ -1#11 := by
    rw [unpackExponent_packComponents]
    exact small
  unfold UnpackedFloat.unpack
  rw [if_neg exponent]
  by_cases zero : unpackExponent (packComponents .binary64 s e m) = 0#11
  · rw [if_pos zero]
    by_cases none : unpackMantissa (packComponents .binary64 s e m) = 0#52
    · rw [dif_pos none]
      rfl
    · rw [dif_neg none]
      rfl
  · rw [if_neg zero]
    rfl

theorem pack_finite {s : Sign} {m : Nat} {e : Int} (pos : 0 < m) (small : e ≤ 971) :
    UnpackedFloat.pack .binary64 (.finite s m e pos) =
      if m.log2 + 1 = 53 then
        packComponents .binary64 s (BitVec.ofNat 11 (e + 1023 + 52).toNat) (BitVec.ofNat 52 m)
      else packComponents .binary64 s 0#11 (BitVec.ofNat 52 m) := by
  have fits : ¬ 2 ^ 11 ≤ (e + 1023 + 52).toNat + 1 := by omega
  exact if_neg fits

theorem isFinite_pack {s : Sign} {m : Nat} {e : Int} (pos : 0 < m) (small : e ≤ 971) :
    (Float.Model.pack (.finite s m e pos)).isFinite = true := by
  change (UnpackedFloat.unpack .binary64 (UnpackedFloat.pack .binary64 _)).isFinite = true
  rw [pack_finite pos small]
  split
  · apply isFinite_packComponents
    intro top
    have value := congrArg BitVec.toNat top
    rw [BitVec.toNat_ofNat, Nat.mod_eq_of_lt (by omega)] at value
    have last : (-1#11).toNat = 2047 := rfl
    omega
  · exact isFinite_packComponents (by decide)

theorem isFinite_pack_or_zero {s : Sign} {m : Nat} {e : Int} (small : e ≤ 971) :
    (Float.Model.pack (if h : m = 0 then .zero s
      else .finite s m e (Nat.pos_of_ne_zero h))).isFinite = true := by
  by_cases zero : m = 0
  · rw [dif_pos zero]
    cases s <;> rfl
  · rw [dif_neg zero]
    exact isFinite_pack _ small

theorem unpack_parts {x : Float.Model} {s : Sign} {m : Nat} {e : Int} {pos : 0 < m}
    (unpacked : x.unpack = .finite s m e pos) :
    m < 2 ^ 53 ∧ -1074 ≤ e ∧ e ≤ 971 ∧ (2 ^ 52 ≤ m ∨ e = -1074) := by
  have bias : (Format.binary64.exponentBias : Int) = 1023 := rfl
  let exponent : BitVec 11 := @unpackExponent .binary64 x.toBits.toBitVec
  let mantissa : BitVec 52 := @unpackMantissa .binary64 x.toBits.toBitVec
  unfold Float.Model.unpack UnpackedFloat.unpack at unpacked
  by_cases top : exponent = -1#11
  · rw [if_pos top] at unpacked
    by_cases none : mantissa = 0#52
    · rw [if_pos none] at unpacked
      cases unpacked
    · rw [if_neg none] at unpacked
      cases unpacked
  rw [if_neg top] at unpacked
  by_cases zero : exponent = 0#11
  · rw [if_pos zero] at unpacked
    by_cases none : mantissa = 0#52
    · rw [dif_pos none] at unpacked
      cases unpacked
    · rw [dif_neg none] at unpacked
      cases unpacked
      have least : exponent.toNat = 0 := congrArg BitVec.toNat zero
      have short : mantissa.toNat < 2 ^ 52 := mantissa.isLt
      have last : (exponent.toNat : Int) - (Format.binary64.exponentBias + (52 : Nat)) + 1 = -1074 := by
        omega
      exact ⟨Nat.lt_trans short (by decide), last.ge, last.le.trans (by decide), .inr last⟩
  · rw [if_neg zero] at unpacked
    cases unpacked
    have below : exponent.toNat < 2047 := by
      have notLast : exponent.toNat ≠ 2047 := fun last => top (BitVec.eq_of_toNat_eq last)
      have := exponent.isLt
      omega
    have above : 0 < exponent.toNat := by
      have notFirst : exponent.toNat ≠ 0 := fun first => zero (BitVec.eq_of_toNat_eq first)
      omega
    have whole : 2 ^ 52 ≤ (1#1 ++ mantissa).toNat := by
      rw [BitVec.toNat_append]
      exact Nat.left_le_or
    refine ⟨(1#1 ++ mantissa).isLt, ?_, ?_, .inl whole⟩
    · change -1074 ≤ (exponent.toNat : Int) - (Format.binary64.exponentBias + (52 : Nat))
      omega
    · change (exponent.toNat : Int) - (Format.binary64.exponentBias + (52 : Nat)) ≤ 971
      omega

theorem unpack_bounds {x : Float.Model} {s : Sign} {m : Nat} {e : Int} {pos : 0 < m}
    (unpacked : x.unpack = .finite s m e pos) : m < 2 ^ 53 ∧ e ≤ 971 := by
  obtain ⟨digits, -, exponent, -⟩ := unpack_parts unpacked
  exact ⟨digits, exponent⟩

/-! ## Rounding -/

/-- A mantissa with its two further bits says where a quotient stands: which integer is below it,
and how the rest compares with none and with a half. -/
structure Represents (em : ExtendedMantissa) (num den : Nat) : Prop where
  mantissa : em.mantissa = num / den
  round : em.roundBit = decide (den ≤ 2 * (num % den))
  sticky : em.stickyBit = decide (num % den ≠ 0 ∧ 2 * (num % den) ≠ den)

theorem represents_quotient (num : Nat) {den : Nat} (pos : 0 < den) : Represents
    (.ofMantissaAndAccuracy (num / den) (accuracyOfFraction (num % den) den)) num den := by
  unfold accuracyOfFraction
  by_cases none : num % den = 0
  · rw [if_pos none]
    refine ⟨rfl, ?_, ?_⟩ <;> simp [none, ExtendedMantissa.ofMantissaAndAccuracy, pos.ne']
  · rw [if_neg none]
    rcases lt_trichotomy (2 * (num % den)) den with less | half | more
    · rw [compare_lt_iff_lt.mpr less]
      refine ⟨rfl, ?_, ?_⟩ <;>
        simp [none, less, less.ne, ExtendedMantissa.ofMantissaAndAccuracy]
    · rw [compare_eq_iff_eq.mpr half]
      refine ⟨rfl, ?_, ?_⟩ <;> simp [half, ExtendedMantissa.ofMantissaAndAccuracy]
    · rw [compare_gt_iff_gt.mpr more]
      refine ⟨rfl, ?_, ?_⟩ <;>
        simp [none, more.le, more.ne', ExtendedMantissa.ofMantissaAndAccuracy]

theorem represents_natural (m : Nat) : Represents ⟨m, false, false⟩ m 1 := by
  refine ⟨(Nat.div_one m).symm, ?_, ?_⟩ <;> simp [Nat.mod_one]

namespace Represents

variable {em : ExtendedMantissa} {num den : Nat}

theorem shiftRightOne (pos : 0 < den) (represents : Represents em num den) :
    Represents em.shiftRightOne num (den * 2) := by
  obtain ⟨mantissa, round, sticky⟩ := represents
  have rest : num % (den * 2) = num % den + den * (num / den % 2) := Nat.mod_mul
  have small : num % den < den := Nat.mod_lt _ pos
  refine ⟨?_, ?_, ?_⟩
  · rw [ExtendedMantissa.shiftRightOne, mantissa, Nat.div_div_eq_div_mul]
  · rw [ExtendedMantissa.shiftRightOne, mantissa, rest, Bool.eq_iff_iff, bne_iff_ne,
      decide_eq_true_iff]
    rcases Nat.mod_two_eq_zero_or_one (num / den) with even | odd
    · rw [even]
      omega
    · rw [odd]
      omega
  · -- The two old bits together tell whether there was a rest, and so does the new bit.
    rw [ExtendedMantissa.shiftRightOne, round, sticky, rest, Bool.eq_iff_iff, Bool.or_eq_true,
      decide_eq_true_iff, decide_eq_true_iff, decide_eq_true_iff]
    rcases Nat.mod_two_eq_zero_or_one (num / den) with even | odd
    · rw [even]
      omega
    · rw [odd]
      omega

theorem shiftRight (pos : 0 < den) (represents : Represents em num den) (k : Nat) :
    Represents (em >>> k) num (den * 2 ^ k) := by
  induction k with
  | zero =>
    rw [Nat.pow_zero, Nat.mul_one]
    exact represents
  | succ k ih =>
    rw [Nat.pow_succ, ← Nat.mul_assoc]
    exact ih.shiftRightOne (Nat.mul_pos pos (Nat.two_pow_pos k))

theorem rounded (represents : Represents em num den) :
    em.roundedMantissa = Number.roundHalfEven num den := by
  obtain ⟨mantissa, round, sticky⟩ := represents
  obtain ⟨below, bit, bit'⟩ := em
  dsimp only at mantissa round sticky
  subst mantissa round sticky
  unfold ExtendedMantissa.roundedMantissa ExtendedMantissa.accuracy Number.roundHalfEven
  dsimp only
  rcases lt_trichotomy (2 * (num % den)) den with less | half | more
  · rw [if_pos less, decide_eq_false (not_le.mpr less)]
    by_cases none : num % den = 0
    · simp [none, Accuracy.roundToNearestEven]
    · simp [none, less.ne, Accuracy.roundToNearestEven]
  · rw [if_neg half.not_lt, if_neg half.not_gt, decide_eq_true half.ge]
    simp only [half, ne_eq, not_true_eq_false, and_false, decide_false]
    change num / den + num / den % 2 = _
    split <;> omega
  · rw [if_neg (not_lt.mpr more.le), if_pos more, decide_eq_true more.le]
    have some : num % den ≠ 0 := by omega
    simp [some, more.ne', Accuracy.roundToNearestEven]

end Represents

theorem shift_mantissa (em : ExtendedMantissa) (k : Nat) :
    (em >>> k).mantissa = em.mantissa / 2 ^ k := by
  induction k with
  | zero => simp [HShiftRight.hShiftRight, Nat.repeat]
  | succ k ih =>
    change (em >>> k).mantissa / 2 = _
    rw [ih, Nat.div_div_eq_div_mul, Nat.pow_succ]

theorem rounded_le (em : ExtendedMantissa) :
    em.roundedMantissa ≤ em.mantissa + if em.roundBit then 1 else 0 := by
  obtain ⟨m, round, sticky⟩ := em
  cases round <;> cases sticky <;>
    simp [ExtendedMantissa.roundedMantissa, ExtendedMantissa.accuracy, Accuracy.roundToNearestEven]
  omega

theorem rounded_eq_roundHalfEven (m k : Nat) :
    (ExtendedMantissa.mk m false false >>> k).roundedMantissa = Number.roundHalfEven m (2 ^ k) := by
  have shifted := ((represents_natural m).shiftRight Nat.one_pos k).rounded
  rwa [Nat.one_mul] at shifted

theorem rounded_near (m k : Nat) :
    2 * ((ExtendedMantissa.mk m false false >>> k).roundedMantissa * 2 ^ k) ≤ 2 * m + 2 ^ k := by
  rw [rounded_eq_roundHalfEven]
  exact (Number.roundHalfEven_near m (2 ^ k) (Nat.two_pow_pos k)).1

theorem log2_lt_of_lt {m k : Nat} (pos : 0 < k) (small : m < 2 ^ k) : m.log2 < k := by
  by_cases zero : m = 0
  · rw [zero]
    exact pos
  · exact (Nat.log2_lt zero).mpr small

theorem targetExponent_eq (total : Int) :
    Format.binary64.targetExponent total = max (total - 53) (-1074) := rfl

structure Below (m : Nat) (e : Int) : Prop where
  low : e ≤ 970
  small : m < (2 ^ 54 - 1) * 2 ^ (970 - e).toNat

section
variable {m k : Nat} {e : Int}

theorem Below.shifted_le (below : Below m e)
    (shift : k = (max ((m.log2 : Int) + 1 + e - 53) (-1074) - e).toNat) : e + k ≤ 971 := by
  have low := below.low
  have power : m < 2 ^ (54 + (970 - e).toNat) := by
    rw [Nat.pow_add]
    exact Nat.lt_of_lt_of_le below.small (Nat.mul_le_mul_right _ (by decide))
  have length := log2_lt_of_lt (by omega) power
  omega

theorem log2_of_near {r n : Nat} (near : 2 * (r * 2 ^ k) ≤ 2 * m + 2 ^ k)
    (bound : 2 * m + 2 ^ k < 2 * (2 ^ n * 2 ^ k)) (pos : 0 < n) : r.log2 < n := by
  apply log2_lt_of_lt pos
  by_contra above
  have large : 2 ^ n * 2 ^ k ≤ r * 2 ^ k := Nat.mul_le_mul_right _ (Nat.le_of_not_lt above)
  omega

theorem Below.rounded_fits (below : Below m e)
    (shift : k = (max ((m.log2 : Int) + 1 + e - 53) (-1074) - e).toNat) :
    ((ExtendedMantissa.mk m false false >>> k).roundedMantissa.log2 : Int) ≤ 1023 - (e + k) := by
  have last := below.shifted_le shift
  have low := below.low
  have near := rounded_near m k
  generalize (ExtendedMantissa.mk m false false >>> k).roundedMantissa = r at near ⊢
  by_cases top : e + k = 971
  · have half : 2 ^ k = 2 * 2 ^ (970 - e).toNat := by
      rw [← Nat.pow_succ']
      congr 1
      omega
    have small := below.small
    have length := @log2_of_near _ _ _ 53 near (by omega) (by decide)
    omega
  · have digits : m < 2 ^ (53 + k) := by
      refine Nat.lt_of_lt_of_le Nat.lt_log2_self (Nat.pow_le_pow_right (by decide) ?_)
      omega
    rw [Nat.pow_add] at digits
    have length := @log2_of_near _ _ _ 54 near (by omega) (by decide)
    omega

theorem Below.shiftLeft (below : Below m e) (j : Nat) : Below (m <<< j) (e - j) where
  low := by
    have low := below.low
    omega
  small := by
    have low := below.low
    have exponent : (970 - (e - j)).toNat = (970 - e).toNat + j := by omega
    rw [exponent, Nat.shiftLeft_eq, Nat.pow_add, ← Nat.mul_assoc]
    exact Nat.mul_lt_mul_of_pos_right below.small (Nat.two_pow_pos j)

end

theorem isFinite_roundWithAccuracy (s : Sign) {m : Nat} {e : Int} (below : Below m e) :
    (Float.Model.pack (roundWithAccuracy .binary64 s m e .exact)).isFinite = true := by
  have last := below.shifted_le rfl
  have fits := below.rounded_fits rfl
  apply isFinite_pack_or_zero
  simp only [ExtendedMantissa.ofMantissaAndAccuracy, targetExponent_eq, totalExponent]
  omega

theorem isFinite_round (s : Sign) {m : Nat} {e : Int} (below : Below m e) :
    (Float.Model.pack (UnpackedFloat.round .binary64 s m e)).isFinite = true :=
  isFinite_roundWithAccuracy s (below.shiftLeft _)

/-! ## Sums -/

theorem isFinite_normalize {m e : Int} (below : Below m.natAbs e) :
    (Float.Model.pack (UnpackedFloat.normalize .binary64 m e .positive)).isFinite = true := by
  unfold UnpackedFloat.normalize
  split
  · rename_i negative
    have size : (-m).toNat = m.natAbs := by
      have := Int.compare_eq_lt.mp negative
      omega
    rw [size]
    exact isFinite_round _ below
  · rfl
  · rename_i positive
    have size : m.toNat = m.natAbs := by
      have := Int.compare_eq_gt.mp positive
      omega
    rw [size]
    exact isFinite_round _ below

theorem natAbs_apply (s : Sign) (n : Int) : (s.apply n).natAbs = n.natAbs := by
  cases s with
  | negative => exact Int.natAbs_neg n
  | positive => rfl

theorem below_sum (s : Sign) {m : Nat} {e : Int} (digits : m < 2 ^ 53) (exponent : e ≤ 971) :
    Below (s.apply (m <<< (e - min e (-53)).toNat : Nat) +
      Sign.positive.apply (2 ^ 52 <<< (-53 - min e (-53)).toNat : Nat)).natAbs (min e (-53)) := by
  refine ⟨by omega, ?_⟩
  generalize least : min e (-53) = t
  generalize unit : (970 - t).toNat = c
  have first : m <<< (e - t).toNat ≤ (2 ^ 53 - 1) * (2 * 2 ^ c) := by
    rw [Nat.shiftLeft_eq, ← Nat.pow_succ']
    exact Nat.mul_le_mul (by omega) (Nat.pow_le_pow_right (by decide) (by omega))
  have second : 2 ^ 52 <<< (-53 - t).toNat < 2 ^ c := by
    rw [Nat.shiftLeft_eq, ← Nat.pow_add]
    exact Nat.pow_lt_pow_right (by decide) (by omega)
  generalize m <<< (e - t).toNat = a at first ⊢
  generalize 2 ^ 52 <<< (-53 - t).toNat = b at second ⊢
  have triangle := Int.natAbs_add_le (s.apply a) (Sign.positive.apply b)
  rw [natAbs_apply, natAbs_apply, Int.natAbs_natCast, Int.natAbs_natCast] at triangle
  omega

theorem isFinite_add_half {x : Float} (finite : x.isFinite = true) :
    (x + 0.5).isFinite = true := by
  have half : (0.5 : Float).toModel.unpack = .finite .positive (2 ^ 52) (-53) (by decide) := rfl
  change (Float.Model.pack (UnpackedFloat.add .binary64 x.toModel.unpack
    (0.5 : Float).toModel.unpack)).isFinite = true
  change x.toModel.unpack.isFinite = true at finite
  rw [half]
  cases unpacked : x.toModel.unpack with
  | notANumber => rw [unpacked] at finite; cases finite
  | infinity s => rw [unpacked] at finite; cases finite
  | zero s => exact isFinite_pack (by decide) (by decide)
  | finite s m e pos =>
    obtain ⟨digits, exponent⟩ := unpack_bounds unpacked
    exact isFinite_normalize (below_sum s digits exponent)

theorem floor?_add_half {x : Float} (finite : x.isFinite = true) :
    ∃ k, Number.floor? (x + 0.5) = some k := by
  have sum : (x + 0.5).toModel.unpack.isFinite = true := isFinite_add_half finite
  unfold Number.floor? Number.exact
  cases unpacked : (x + 0.5).toModel.unpack with
  | notANumber => rw [unpacked] at sum; cases sum
  | infinity s => rw [unpacked] at sum; cases sum
  | zero s => exact ⟨_, rfl⟩
  | finite s m e pos => exact ⟨_, rfl⟩

/-! ## Naturals -/

theorem holdsNatural_iff {n : Nat} :
    Number.holdsNatural n = true ↔ n / 2 ^ 970 < 2 ^ 54 - 1 := by
  rw [← Nat.shiftRight_eq_div_pow]
  exact decide_eq_true_iff

theorem holdsNatural_max {n k : Nat} (first : Number.holdsNatural n = true)
    (second : Number.holdsNatural k = true) : Number.holdsNatural (max n k) = true := by
  rcases Nat.le_total n k with less | more
  · rw [Nat.max_eq_right less]
    exact second
  · rw [Nat.max_eq_left more]
    exact first

theorem div_pow_lt {n m j k c : Nat} (le : n ≤ m * 2 ^ j) (near : j ≤ k + 1) (small : m * 2 < c) :
    n / 2 ^ k < c := by
  rw [Nat.div_lt_iff_lt_mul (Nat.two_pow_pos k)]
  calc n ≤ m * 2 ^ (k + 1) :=
        le.trans (Nat.mul_le_mul_left m (Nat.pow_le_pow_right (by decide) near))
    _ = m * 2 * 2 ^ k := by rw [Nat.pow_succ', Nat.mul_assoc]
    _ < c * 2 ^ k := Nat.mul_lt_mul_of_pos_right small (Nat.two_pow_pos k)

theorem holdsNatural_magnitude {m : Nat} {q : Int} (digits : m < 2 ^ 53) (exponent : q ≤ 971) :
    Number.holdsNatural (Number.numerator m q / Number.denominator q) = true := by
  rw [holdsNatural_iff]
  have whole : Number.numerator m q / Number.denominator q ≤ m * 2 ^ q.toNat := Nat.div_le_self ..
  exact div_pow_lt whole (by omega) (by omega)

theorem holdsNatural_floor {x : Float} {k : Int} (floor : Number.floor? x = some k) :
    Number.holdsNatural k.toNat = true := by
  unfold Number.floor? Number.exact at floor
  cases unpacked : x.toModel.unpack with
  | notANumber => rw [unpacked] at floor; cases floor
  | infinity s => rw [unpacked] at floor; cases floor
  | zero s => rw [unpacked] at floor; cases s <;> cases floor <;> rfl
  | finite s m e pos =>
    rw [unpacked] at floor
    obtain ⟨digits, exponent⟩ := unpack_bounds unpacked
    cases s with
    | positive =>
      cases floor
      exact holdsNatural_magnitude digits exponent
    | negative =>
      cases floor
      have below : Int.fdiv (-(Number.numerator m e : Int)) (Number.denominator e : Int) ≤ 0 := by
        rw [Int.fdiv_eq_ediv_of_nonneg _ (Int.natCast_nonneg _)]
        exact Int.ediv_nonpos_of_nonpos_of_neg (by simp)
          (Int.natCast_pos.mpr (Number.denominator_pos e))
      change Number.holdsNatural
        (Int.fdiv (-(Number.numerator m e : Int)) (Number.denominator e : Int)).toNat = true
      rw [Int.toNat_of_nonpos below]
      rfl

end SolidScript.Proofs
