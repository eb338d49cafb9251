import Mathlib.Order.WithBot
import SolidScript.Proofs.Number.Rounding

namespace SolidScript.Proofs
open Float.Model UnpackedFloat Number

/-! ## Places in the line -/

def unpackedRank (f : UnpackedFloat) : WithBot (WithTop ℤ) :=
  match f with
  | .infinity .negative => ⊥
  | .infinity .positive => ⊤
  | f => ((units f : WithTop ℤ) : WithBot (WithTop ℤ))

def rank (x : Float) : WithBot (WithTop ℤ) := unpackedRank x.toModel.unpack

theorem unpackedRank_of_double {f : UnpackedFloat} (double : IsDouble f) :
    unpackedRank f = ((units f : WithTop ℤ) : WithBot (WithTop ℤ)) := by
  cases double <;> rfl

inductive Placed (x : Float) : Prop where
  | bottom (unpacked : x.toModel.unpack = .infinity .negative) (at_end : rank x = ⊥)
  | top (unpacked : x.toModel.unpack = .infinity .positive) (at_end : rank x = ⊤)
  | finite (finite : x.isFinite = true)
    (between : rank x = ((unitsOf x : WithTop ℤ) : WithBot (WithTop ℤ)))

theorem placed {x : Float} (number : x.isNaN = false) : Placed x := by
  change x.toModel.unpack.isNaN = false at number
  cases unpacked : x.toModel.unpack with
  | notANumber =>
    rw [unpacked] at number
    cases number
  | infinity s =>
    cases s with
    | negative => exact .bottom unpacked (by rw [rank, unpacked]; rfl)
    | positive => exact .top unpacked (by rw [rank, unpacked]; rfl)
  | zero | finite =>
    have finite : x.toModel.unpack.isFinite = true := by rw [unpacked]; rfl
    exact .finite finite (unpackedRank_of_double (isDouble_unpack finite))

section
variable {x y : Float} (first : x.isNaN = false) (second : y.isNaN = false)
include first second

theorem lt_iff_rank : x < y ↔ rank x < rank y := by
  rw [lt_iff_compare]
  cases placed first with
  | bottom unpacked at_end =>
    rw [unpacked, at_end]
    cases placed second with
    | bottom unpacked' at_end' =>
      rw [unpacked', at_end']
      exact iff_of_false (by decide) (lt_irrefl _)
    | top unpacked' at_end' =>
      rw [unpacked', at_end']
      exact iff_of_true (by decide) bot_lt_top
    | finite finite between =>
      rw [compare_below (isDouble_unpack finite), between]
      exact iff_of_true (by decide) (WithBot.bot_lt_coe _)
  | top unpacked at_end =>
    rw [unpacked, at_end]
    cases placed second with
    | bottom unpacked' at_end' =>
      rw [unpacked', at_end']
      exact iff_of_false (by decide) not_top_lt
    | top unpacked' at_end' =>
      rw [unpacked', at_end']
      exact iff_of_false (by decide) (lt_irrefl _)
    | finite finite between =>
      rw [compare_swap, compare_above (isDouble_unpack finite)]
      exact iff_of_false (by decide) not_top_lt
  | finite finite between =>
    cases placed second with
    | bottom unpacked' at_end' =>
      rw [compare_swap, unpacked', compare_below (isDouble_unpack finite), at_end']
      exact iff_of_false (by decide) not_lt_bot
    | top unpacked' at_end' =>
      rw [unpacked', compare_above (isDouble_unpack finite), between, at_end']
      exact iff_of_true (by decide) (WithBot.coe_lt_coe.mpr (WithTop.coe_lt_top _))
    | finite finite' between' =>
      rw [← lt_iff_compare, lt_iff_units finite finite', between, between', WithBot.coe_lt_coe,
        WithTop.coe_lt_coe]

theorem le_iff_rank : x ≤ y ↔ rank x ≤ rank y := by
  rw [← not_lt, ← lt_iff_rank second first, lt_iff_not_le first second, not_not]

theorem eq_or_zeros_of_rank (same : rank x = rank y) :
    x = y ∨ (x = 0 ∧ y = -0) ∨ (x = -0 ∧ y = 0) := by
  have most : x ≤ y := (le_iff_rank first second).mpr same.le
  have least : ¬ x < y := by
    rw [lt_iff_rank first second]
    exact same.not_lt
  exact (Float.beq_iff_ne_nan_and_eq.mp ((lt_or_beq_of_le most).resolve_left least)).2.2

end

/-! ## Rounding keeps the order -/

theorem rounded_digits (n : Nat) : ∃ c j, c < 2 ^ 53 ∧ rounded n = c * 2 ^ j := by
  rcases Nat.lt_or_eq_of_le (digits_rounded n) with short | full
  · exact ⟨_, _, short, rfl⟩
  · -- A carry into the next digit leaves zeros behind, so the last one can go.
    refine ⟨2 ^ 52, surplus n + 1, by decide, ?_⟩
    rw [rounded, full, Nat.pow_succ]
    ring

theorem rounded_mono {n n' : Nat} (less : n ≤ n') : rounded n ≤ rounded n' := by
  rcases Nat.eq_or_lt_of_le less with rfl | less
  · exact le_rfl
  obtain ⟨c, j, digits, form⟩ := rounded_digits n
  obtain ⟨c', j', digits', form'⟩ := rounded_digits n'
  have near := rounded_nearest n (j := j') digits'
  have near' := rounded_nearest n' (j := j) digits
  rw [← form'] at near
  rw [← form] at near'
  -- Neither result is closer to the other's number, so they cannot have changed places.
  omega

def limit : Nat := 2 ^ 52 * 2 ^ ((972 : Int) + 1074).toNat

def roundedRank (n : ℤ) : WithBot (WithTop ℤ) :=
  if rounded n.natAbs < limit then ((n.sign * rounded n.natAbs : ℤ) : WithTop ℤ)
  else if 0 < n then ⊤ else ⊥

theorem rounded_natAbs_mono {a b : ℤ} (less : a ≤ b) :
    (0 ≤ a → rounded a.natAbs ≤ rounded b.natAbs) ∧
      (b ≤ 0 → rounded b.natAbs ≤ rounded a.natAbs) :=
  ⟨fun _ => rounded_mono (by omega), fun _ => rounded_mono (by omega)⟩

theorem signed_rounded_mono {a b : ℤ} (less : a ≤ b) :
    a.sign * rounded a.natAbs ≤ b.sign * rounded b.natAbs := by
  obtain ⟨above, below⟩ := rounded_natAbs_mono less
  rcases lt_trichotomy a 0 with negative | rfl | positive
  · rcases lt_trichotomy b 0 with negative' | rfl | positive'
    · rw [Int.sign_eq_neg_one_of_neg negative, Int.sign_eq_neg_one_of_neg negative']
      have := below negative'.le
      omega
    · rw [Int.sign_eq_neg_one_of_neg negative]
      simp
    · rw [Int.sign_eq_neg_one_of_neg negative, Int.sign_eq_one_of_pos positive']
      omega
  · rw [Int.sign_zero, zero_mul]
    exact mul_nonneg (Int.sign_nonneg_iff.mpr less) (Int.natCast_nonneg _)
  · rw [Int.sign_eq_one_of_pos positive, Int.sign_eq_one_of_pos (positive.trans_le less)]
    have := above positive.le
    omega

theorem roundedRank_mono {a b : ℤ} (less : a ≤ b) : roundedRank a ≤ roundedRank b := by
  obtain ⟨above, below⟩ := rounded_natAbs_mono less
  unfold roundedRank
  by_cases small : rounded a.natAbs < limit
  · rw [if_pos small]
    by_cases small' : rounded b.natAbs < limit
    · rw [if_pos small', WithBot.coe_le_coe, WithTop.coe_le_coe]
      exact signed_rounded_mono less
    · have positive : 0 < b := by
        by_contra nonpos
        have := below (not_lt.mp nonpos)
        omega
      rw [if_neg small', if_pos positive]
      exact le_top
  · rw [if_neg small]
    by_cases positive : 0 < a
    · have large : ¬ rounded b.natAbs < limit := by
        have := above positive.le
        omega
      rw [if_pos positive, if_neg large, if_pos (positive.trans_le less)]
    · rw [if_neg positive]
      exact bot_le

/-! ## Sums -/

theorem sign_mul_apply (s : Sign) {n : Nat} (pos : 0 < n) (k : Nat) :
    (s.apply n).sign * k = s.apply k := by
  cases s with
  | positive =>
    change (n : ℤ).sign * k = k
    rw [Int.sign_eq_one_of_pos (Int.natCast_pos.mpr pos), one_mul]
  | negative =>
    change (-(n : ℤ)).sign * k = -k
    rw [Int.sign_eq_neg_one_of_neg (by omega), neg_one_mul]

theorem roundedRank_units {f : UnpackedFloat} (double : IsDouble f) :
    roundedRank (units f) = unpackedRank f := by
  obtain ⟨c, e, digits, least, most, size⟩ := natAbs_units double
  have exact : rounded (units f).natAbs = (units f).natAbs := by
    have closest := rounded_nearest (units f).natAbs (j := (e + 1074).toNat) digits
    rw [← size] at closest
    omega
  have small : (units f).natAbs < limit := by
    rw [size]
    exact magnitude_lt digits least (.inl le_rfl) (by omega : e < 972)
  rw [roundedRank, exact, if_pos small, Int.sign_mul_natAbs, unpackedRank_of_double double]

theorem unpackedRank_round (s : Sign) {m : Nat} {e : Int} (pos : 0 < m) (least : -1074 ≤ e) :
    unpackedRank (Float.Model.pack (UnpackedFloat.round .binary64 s m e)).unpack =
      roundedRank (s.apply (m * 2 ^ (e + 1074).toNat : Nat)) := by
  obtain ⟨c, q, pos', form, digits, least', normal, value⟩ := round_parts s pos least
  have positive : 0 < m * 2 ^ (e + 1074).toNat := Nat.mul_pos pos (Nat.two_pow_pos _)
  generalize m * 2 ^ (e + 1074).toNat = n at value positive ⊢
  rw [form, roundedRank, natAbs_apply, Int.natAbs_natCast, ← value]
  by_cases most : q ≤ 971
  · have double : IsDouble (.finite s c q pos') := .finite pos' digits least' most normal
    have small : c * 2 ^ (q + 1074).toNat < limit :=
      magnitude_lt digits least' (.inl le_rfl) (by omega : q < 972)
    rw [unpack_pack double, unpackedRank_of_double double, if_pos small,
      sign_mul_apply s positive, units]
  · have large : ¬ c * 2 ^ (q + 1074).toNat < limit := by
      have whole : 2 ^ 52 ≤ c := normal.resolve_right (by omega)
      rw [not_lt]
      exact Nat.mul_le_mul whole (Nat.pow_le_pow_right (by decide) (by omega))
    rw [unpack_pack_infinity pos' (by omega), if_neg large]
    cases s with
    | positive => exact (if_pos (Int.natCast_pos.mpr positive)).symm
    | negative => exact (if_neg (by simp only [Sign.apply]; omega)).symm

theorem rank_add {x y : Float} (first : x.isFinite = true) (second : y.isFinite = true) :
    rank (x + y) = roundedRank (unitsOf x + unitsOf y) :=
  @sum_of (fun n f => unpackedRank f = roundedRank n) (fun s _ _ => unpackedRank_round s)
    (fun _ double => (roundedRank_units double).symm) _ _ (isDouble_unpack first)
    (isDouble_unpack second)

theorem add_of_infinity {x t : Float} {s : Sign} (unpacked : x.toModel.unpack = .infinity s)
    (finite : t.isFinite = true) : x + t = x := by
  apply add_of_infinite
  · change x.toModel.unpack.isNaN = false
    rw [unpacked]
    rfl
  · change x.toModel.unpack.isFinite = false
    rw [unpacked]
    rfl
  · exact finite

section
variable {x y t : Float} (first : x.isNaN = false) (second : y.isNaN = false)
  (finite : t.isFinite = true)
include first second finite

theorem rank_add_mono (less : rank x ≤ rank y) : rank (x + t) ≤ rank (y + t) := by
  cases placed second with
  | top unpacked at_end =>
    rw [add_of_infinity unpacked finite, at_end]
    exact le_top
  | bottom unpacked at_end =>
    have lowest : rank x = ⊥ := le_bot_iff.mp (at_end ▸ less)
    cases placed first with
    | bottom unpacked' _ => rw [add_of_infinity unpacked' finite, lowest]; exact bot_le
    | top _ at_end' => rw [at_end'] at lowest; cases lowest
    | finite _ between => rw [between] at lowest; cases lowest
  | finite finite' between' =>
    cases placed first with
    | bottom unpacked at_end =>
      rw [add_of_infinity unpacked finite, at_end]
      exact bot_le
    | top _ at_end =>
      rw [at_end, between', top_le_iff] at less
      cases less
    | finite start between =>
      rw [between, between', WithBot.coe_le_coe, WithTop.coe_le_coe] at less
      rw [rank_add start finite, rank_add finite' finite]
      exact roundedRank_mono (by omega)

end

/-! ## Zeros -/

theorem unpack_injective {x y : Float} (same : x.toModel.unpack = y.toModel.unpack) : x = y := by
  apply Float.toBits_inj.mp
  apply UInt64.toBitVec_inj.mp
  exact (unpack_inj_of_valid x.toModel.valid y.toModel.valid).mp same

theorem add_neg_zero (x : Float) : x + -0 = x := by
  have zero : (-0 : Float).toModel.unpack = .zero .negative := rfl
  apply add_eq_self
  rw [zero]
  cases x.toModel.unpack with
  | zero s => cases s <;> rfl
  | notANumber | infinity | finite => rfl

theorem unpack_round_ne_zero (s : Sign) {m : Nat} {e : Int} (pos : 0 < m) (least : -1074 ≤ e)
    (s' : Sign) :
    (Float.Model.pack (UnpackedFloat.round .binary64 s m e)).unpack ≠ .zero s' := by
  obtain ⟨c, q, pos', form, digits, least', normal, -⟩ := round_parts s pos least
  rw [form]
  by_cases most : q ≤ 971
  · rw [unpack_pack (.finite pos' digits least' most normal)]
    exact nofun
  · rw [unpack_pack_infinity pos' (by omega)]
    exact nofun

theorem unpack_add_ne_neg_zero {f g : UnpackedFloat} (first : IsDouble f) (second : IsDouble g)
    (other : g ≠ .zero .negative) :
    (Float.Model.pack (UnpackedFloat.add .binary64 f g)).unpack ≠ .zero .negative := by
  cases second with
  | zero s =>
    cases s with
    | negative => exact absurd rfl other
    | positive =>
      cases first with
      | zero s => cases s <;> exact nofun
      | @finite s m e pos digits least most normal =>
        change (Float.Model.pack (.finite s m e pos)).unpack ≠ _
        rw [unpack_pack (.finite pos digits least most normal)]
        exact nofun
  | @finite s m e pos digits least most normal =>
    cases first with
    | zero s' =>
      change (Float.Model.pack (.finite s m e pos)).unpack ≠ _
      rw [unpack_pack (.finite pos digits least most normal)]
      exact nofun
    | @finite s' m' e' pos' digits' least' most' normal' =>
      exact normalize_of (P := fun _ f => f ≠ .zero .negative)
        (fun s _ _ pos least => unpack_round_ne_zero s pos least _) nofun _
        (by omega : -1074 ≤ min e' e)

section
variable {x t : Float} (number : x.isNaN = false) (finite : t.isFinite = true)
include number finite

theorem add_ne_neg_zero (other : t ≠ -0) : x + t ≠ -0 := by
  intro zero
  cases placed number with
  | bottom unpacked | top unpacked =>
    rw [add_of_infinity unpacked finite] at zero
    rw [zero] at unpacked
    cases unpacked
  | finite start =>
    refine unpack_add_ne_neg_zero (isDouble_unpack start) (isDouble_unpack finite)
      (fun same => other (unpack_injective same)) ?_
    change (x + t).toModel.unpack = _
    rw [zero]
    rfl

theorem add_eq_of_rank {y : Float} (number' : y.isNaN = false) (apart : rank x ≠ rank y)
    (same : rank (x + t) = rank (y + t)) : x + t = y + t := by
  have isNumber {z : Float} (number : z.isNaN = false) : (z + t).isNaN = false :=
    isNaN_add number (isNaN_of_isFinite finite) (.inr finite)
  by_cases zero : t = -0
  · rw [zero, add_neg_zero, add_neg_zero] at same
    exact absurd same apart
  · -- No sum is the negative zero, so no two sums are the two zeros.
    rcases eq_or_zeros_of_rank (isNumber number) (isNumber number') same with
      equal | ⟨-, negative⟩ | ⟨negative, -⟩
    · exact equal
    · exact absurd negative (add_ne_neg_zero number' finite zero)
    · exact absurd negative (add_ne_neg_zero number finite zero)

end

end SolidScript.Proofs
