import Mathlib
import SolidScript.Proofs.Number.Overflow

/-!
# Doubles as whole numbers

Every finite double is a multiple of the least positive one, `2 ^ -1074`. Counted in this unit, the
doubles are integers in their own order, and the sum of two of them is an integer before it is
rounded.
-/

namespace SolidScript.Proofs
open Float.Model UnpackedFloat

/-! ## The forms of finite doubles -/

/-- The parts of a finite double: its mantissa has 53 digits, or fewer with the least exponent. -/
inductive IsDouble : UnpackedFloat → Prop where
  | zero (s : Sign) : IsDouble (.zero s)
  | finite {s : Sign} {m : Nat} {e : Int} (pos : 0 < m) (digits : m < 2 ^ 53) (least : -1074 ≤ e)
    (most : e ≤ 971) (normal : 2 ^ 52 ≤ m ∨ e = -1074) : IsDouble (.finite s m e pos)

def units : UnpackedFloat → Int
  | .finite s m e _ => s.apply (m * 2 ^ (e + 1074).toNat : Nat)
  | _ => 0

theorem units_neg (f : UnpackedFloat) : units f.neg = -units f := by
  cases f with
  | finite s m e pos => exact apply_neg s _
  | infinity | notANumber | zero => rfl

theorem IsDouble.neg {f : UnpackedFloat} (double : IsDouble f) : IsDouble f.neg := by
  cases double with
  | zero s => exact .zero _
  | finite pos digits least most normal => exact .finite pos digits least most normal

theorem IsDouble.isFinite {f : UnpackedFloat} (double : IsDouble f) : f.isFinite = true := by
  cases double <;> rfl

theorem isDouble_unpack {x : Float.Model} (finite : x.unpack.isFinite = true) :
    IsDouble x.unpack := by
  cases unpacked : x.unpack with
  | notANumber | infinity => rw [unpacked] at finite; cases finite
  | zero s => exact .zero s
  | finite s m e pos =>
    obtain ⟨digits, least, most, normal⟩ := unpack_parts unpacked
    exact .finite pos digits least most normal

/-! ## Packing -/

theorem leading_toNat {m : Nat} (digits : m < 2 ^ 53) (whole : 2 ^ 52 ≤ m) :
    (1#1 ++ BitVec.ofNat 52 m).toNat = m := by
  rw [BitVec.toNat_append, ← Nat.shiftLeft_add_eq_or_of_lt (BitVec.isLt _), BitVec.toNat_ofNat]
  change 2 ^ 52 + m % 2 ^ 52 = m
  omega

section
variable {s : Sign} {m : Nat} (pos : 0 < m)

theorem unpack_pack_whole {e : Int} (digits : m < 2 ^ 53) (whole : 2 ^ 52 ≤ m) (least : -1074 ≤ e)
    (most : e ≤ 971) : (Float.Model.pack (.finite s m e pos)).unpack = .finite s m e pos := by
  have length : m.log2 + 1 = 53 :=
    congrArg (· + 1) ((Nat.log2_eq_iff pos.ne').mpr ⟨whole, digits⟩)
  have exponent : (BitVec.ofNat 11 (e + 1023 + 52).toNat).toNat = (e + 1023 + 52).toNat := by
    rw [BitVec.toNat_ofNat, Nat.mod_eq_of_lt (by omega)]
  have notTop : BitVec.ofNat 11 (e + 1023 + 52).toNat ≠ -1#11 := by
    intro top
    have value : (e + 1023 + 52).toNat = 2047 := exponent.symm.trans (congrArg BitVec.toNat top)
    omega
  have notZero : BitVec.ofNat 11 (e + 1023 + 52).toNat ≠ 0#11 := by
    intro zero
    have value : (e + 1023 + 52).toNat = 0 := exponent.symm.trans (congrArg BitVec.toNat zero)
    omega
  change UnpackedFloat.unpack .binary64 (UnpackedFloat.pack .binary64 _) = _
  rw [pack_finite pos most, if_pos length, UnpackedFloat.unpack]
  simp only [unpackExponent_packComponents, unpackMantissa_packComponents,
    unpackSign_packComponents, Sign.ofBitVec_toBitVec]
  rw [if_neg notTop, if_neg notZero, finite.injEq]
  refine ⟨rfl, leading_toNat digits whole, ?_⟩
  change ((BitVec.ofNat 11 (e + 1023 + 52).toNat).toNat : Int) - (1023 + 52) = e
  omega

theorem unpack_pack_short (short : m < 2 ^ 52) :
    (Float.Model.pack (.finite s m (-1074) pos)).unpack = .finite s m (-1074) pos := by
  have length : ¬ m.log2 + 1 = 53 := by
    have := log2_lt_of_lt (by decide) short
    omega
  have mantissa : (BitVec.ofNat 52 m).toNat = m := by
    rw [BitVec.toNat_ofNat, Nat.mod_eq_of_lt short]
  have notZero : BitVec.ofNat 52 m ≠ 0#52 := by
    intro zero
    have value : m = 0 := mantissa.symm.trans (congrArg BitVec.toNat zero)
    omega
  have notTop : 0#11 ≠ -1#11 := by decide
  change UnpackedFloat.unpack .binary64 (UnpackedFloat.pack .binary64 _) = _
  rw [pack_finite pos (by decide), if_neg length, UnpackedFloat.unpack]
  simp only [unpackExponent_packComponents, unpackMantissa_packComponents,
    unpackSign_packComponents, Sign.ofBitVec_toBitVec]
  rw [if_neg notTop, if_pos trivial, dif_neg notZero, finite.injEq]
  exact ⟨rfl, mantissa, rfl⟩

end

theorem unpack_pack {f : UnpackedFloat} (double : IsDouble f) :
    (Float.Model.pack f).unpack = f := by
  cases double with
  | zero s => exact unpack_packedZero
  | @finite s m e pos digits least most normal =>
    by_cases whole : 2 ^ 52 ≤ m
    · exact unpack_pack_whole pos digits whole least most
    · obtain rfl : e = -1074 := normal.resolve_left whole
      exact unpack_pack_short pos (by omega)

/-! ## Order -/

theorem magnitude_lt {m m' : Nat} {e e' : Int} (digits : m < 2 ^ 53) (least : -1074 ≤ e)
    (normal : 2 ^ 52 ≤ m' ∨ e' = -1074) (less : e < e') :
    m * 2 ^ (e + 1074).toNat < m' * 2 ^ (e' + 1074).toNat := by
  have whole : 2 ^ 52 ≤ m' := normal.resolve_right (by omega)
  calc m * 2 ^ (e + 1074).toNat < 2 ^ 53 * 2 ^ (e + 1074).toNat :=
        Nat.mul_lt_mul_of_pos_right digits (Nat.two_pow_pos _)
    _ = 2 ^ 52 * 2 ^ ((e + 1074).toNat + 1) := by rw [Nat.pow_succ]; ring
    _ ≤ m' * 2 ^ (e' + 1074).toNat :=
        Nat.mul_le_mul whole (Nat.pow_le_pow_right (by decide) (by omega))

theorem compare_magnitude {m m' : Nat} {e e' : Int} (digits : m < 2 ^ 53) (digits' : m' < 2 ^ 53)
    (least : -1074 ≤ e) (least' : -1074 ≤ e') (normal : 2 ^ 52 ≤ m ∨ e = -1074)
    (normal' : 2 ^ 52 ≤ m' ∨ e' = -1074) :
    (compare e e').then (compare m m') =
      compare ((m * 2 ^ (e + 1074).toNat : Nat) : Int) (m' * 2 ^ (e' + 1074).toNat : Nat) := by
  rcases lt_trichotomy e e' with less | rfl | more
  · have below := magnitude_lt digits least normal' less
    rw [compare_lt_iff_lt.mpr less, compare_lt_iff_lt.mpr (Int.ofNat_lt.mpr below)]
    rfl
  · have scale : 0 < 2 ^ (e + 1074).toNat := Nat.two_pow_pos _
    rw [compare_eq_iff_eq.mpr (rfl : e = e)]
    rcases lt_trichotomy m m' with less | rfl | more
    · have below := Nat.mul_lt_mul_of_pos_right less scale
      rw [compare_lt_iff_lt.mpr (Int.ofNat_lt.mpr below)]
      exact compare_lt_iff_lt.mpr less
    · rw [Ordering.eq_then, compare_eq_iff_eq.mpr (rfl : m = m)]
      exact (compare_eq_iff_eq.mpr rfl).symm
    · have above := Nat.mul_lt_mul_of_pos_right more scale
      rw [compare_gt_iff_gt.mpr (Int.ofNat_lt.mpr above)]
      exact compare_gt_iff_gt.mpr more
  · have above := magnitude_lt digits' least' normal more
    rw [compare_gt_iff_gt.mpr more, compare_gt_iff_gt.mpr (Int.ofNat_lt.mpr above)]
    rfl

theorem compare_neg_neg (a b : Int) : compare (-a) (-b) = compare b a := by
  simp only [Int.compare_eq_ite_lt, Int.neg_lt_neg_iff]

theorem compare_units {f g : UnpackedFloat} (first : IsDouble f) (second : IsDouble g) :
    f.compare g = some (compare (units f) (units g)) := by
  have above {m : Nat} {e : Int} (pos : 0 < m) : 0 < ((m * 2 ^ (e + 1074).toNat : Nat) : Int) :=
    Int.natCast_pos.mpr (Nat.mul_pos pos (Nat.two_pow_pos _))
  cases first with
  | zero s =>
    cases second with
    | zero s' => rfl
    | @finite s' m e pos digits least most normal =>
      cases s' with
      | positive => exact congrArg some (compare_lt_iff_lt.mpr (above pos)).symm
      | negative => exact congrArg some (compare_gt_iff_gt.mpr (Int.neg_neg_of_pos (above pos))).symm
  | @finite s m e pos digits least most normal =>
    cases second with
    | zero s' =>
      cases s with
      | positive => exact congrArg some (compare_gt_iff_gt.mpr (above pos)).symm
      | negative => exact congrArg some (compare_lt_iff_lt.mpr (Int.neg_neg_of_pos (above pos))).symm
    | @finite s' m' e' pos' digits' least' most' normal' =>
      have same := compare_magnitude digits digits' least least' normal normal'
      cases s <;> cases s'
      · refine congrArg some ((congrArg Ordering.swap same).trans ?_)
        exact (Int.compare_swap _ _).trans (compare_neg_neg _ _).symm
      · refine congrArg some (compare_lt_iff_lt.mpr ?_).symm
        exact (Int.neg_neg_of_pos (above pos)).trans (above pos')
      · refine congrArg some (compare_gt_iff_gt.mpr ?_).symm
        exact (Int.neg_neg_of_pos (above pos')).trans (above pos)
      · exact congrArg some same

theorem compare_above {f : UnpackedFloat} (double : IsDouble f) :
    f.compare (.infinity .positive) = some .lt := by
  cases double <;> rfl

theorem compare_below {f : UnpackedFloat} (double : IsDouble f) :
    UnpackedFloat.compare (.infinity .negative) f = some .lt := by
  cases double <;> rfl

def unitsOf (x : Float) : Int := units x.toModel.unpack

section
variable {x y : Float} (first : x.isFinite = true) (second : y.isFinite = true)
include first second

theorem compare_unitsOf :
    x.toModel.unpack.compare y.toModel.unpack = some (compare (unitsOf x) (unitsOf y)) :=
  compare_units (isDouble_unpack first) (isDouble_unpack second)

theorem le_iff_units : x ≤ y ↔ unitsOf x ≤ unitsOf y := by
  rw [le_iff_compare, compare_unitsOf first second]
  exact Int.isLE_compare

theorem lt_iff_units : x < y ↔ unitsOf x < unitsOf y := by
  rw [lt_iff_compare, compare_unitsOf first second, beq_iff_eq, Option.some_inj]
  exact Int.compare_eq_lt

theorem beq_iff_units : (x == y) = true ↔ unitsOf x = unitsOf y := by
  change (x.toModel.unpack.compare y.toModel.unpack == some .eq) = true ↔ _
  rw [compare_unitsOf first second, beq_iff_eq, Option.some_inj]
  exact Int.compare_eq_eq

end

theorem ends_of_lt {x y : Float} (less : x < y) :
    (x.isFinite = true ∨ x.toModel.unpack = .infinity .negative) ∧
      (y.isFinite = true ∨ y.toModel.unpack = .infinity .positive) := by
  rw [lt_iff_compare] at less
  change (x.toModel.unpack.isFinite = true ∨ _) ∧ (y.toModel.unpack.isFinite = true ∨ _)
  generalize x.toModel.unpack = f at *
  generalize y.toModel.unpack = g at *
  constructor
  · cases f with
    | zero | finite => exact .inl rfl
    | notANumber => cases less
    | infinity s =>
      cases s with
      | negative => exact .inr rfl
      | positive =>
        cases g with
        | infinity s' => cases s' <;> cases less
        | notANumber | zero | finite => cases less
  · cases g with
    | zero | finite => exact .inl rfl
    | notANumber => cases f <;> cases less
    | infinity s =>
      cases s with
      | positive => exact .inr rfl
      | negative =>
        cases f with
        | infinity s' => cases s' <;> cases less
        | notANumber | zero | finite => cases less

theorem float_lt_trans {x y z : Float} (first : x < y) (second : y < z) : x < z := by
  obtain ⟨least, high⟩ := ends_of_lt first
  obtain ⟨low, most⟩ := ends_of_lt second
  have middle : y.isFinite = true := by
    rcases high with finite | top
    · exact finite
    · refine low.resolve_right ?_
      rw [top]
      exact nofun
  rcases least with finite | bottom
  · rcases most with finite' | top
    · rw [lt_iff_units finite middle] at first
      rw [lt_iff_units middle finite'] at second
      rw [lt_iff_units finite finite']
      exact first.trans second
    · rw [lt_iff_compare, top, compare_above (isDouble_unpack finite)]
      rfl
  · rcases most with finite' | top
    · rw [lt_iff_compare, bottom, compare_below (isDouble_unpack finite')]
      rfl
    · rw [lt_iff_compare, bottom, top]
      rfl

end SolidScript.Proofs
