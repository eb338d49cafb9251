import SolidScript.Proofs.Number.Quotient

namespace SolidScript.Proofs
open Float.Model UnpackedFloat Number

/-! ## Rounding a magnitude -/

def rounded (n : Nat) : Nat := roundHalfEven n (2 ^ surplus n) * 2 ^ surplus n

theorem rounded_eq_quotient (n : Nat) : rounded n = roundedQuotient n 1 := by
  rw [rounded, roundedQuotient, Nat.div_one, Nat.one_mul]

theorem digits_rounded (n : Nat) : roundHalfEven n (2 ^ surplus n) ≤ 2 ^ 53 := by
  have digits := digits_quotient n 1
  rwa [Nat.div_one, Nat.one_mul] at digits

theorem rounded_pos {n : Nat} (pos : 0 < n) : 0 < rounded n := by
  rw [rounded_eq_quotient, roundedQuotient]
  refine Nat.mul_pos ?_ (Nat.two_pow_pos _)
  rcases Nat.eq_zero_or_pos (surplus (n / 1)) with short | long
  · rw [short, Nat.pow_zero, Nat.one_mul, roundHalfEven_one]
    exact pos
  · have whole := whole_quotient long
    omega

theorem rounded_nearest (n : Nat) {c j : Nat} (digits : c < 2 ^ 53) :
    ((rounded n : Int) - n).natAbs ≤ (((c * 2 ^ j : Nat) : Int) - n).natAbs := by
  have nearest := roundedQuotient_nearest n Nat.one_pos (j := j) digits
  rwa [Nat.mul_one, Nat.mul_one, ← rounded_eq_quotient] at nearest

/-! ## Rounding a mantissa -/

theorem round_extended (s : Sign) {m : Nat} {e : Int} (pos : 0 < m) (least : -1074 ≤ e) :
    ∃ (m' : Nat) (e' : Int), UnpackedFloat.round .binary64 s m e =
        roundWithAccuracy .binary64 s (m' / 1) e' (accuracyOfFraction (m' % 1) 1) ∧
      -1074 ≤ e' ∧ (2 ^ 52 ≤ m' / 1 ∨ e' = -1074) ∧
      m' * 2 ^ (e' + 1074).toNat = m * 2 ^ (e + 1074).toNat := by
  have target := targetExponent_quotient (a := m) (d := 1) least (.inl (by rwa [Nat.div_one]))
  rw [Nat.div_one, Nat.div_one] at target
  generalize size : m * 2 ^ (e + 1074).toNat = n at target ⊢
  generalize extended : m <<< (e - (surplus n - 1074)).toNat = m'
  generalize lowered : e - ((e - (surplus n - 1074)).toNat : Int) = e'
  have size' : m' * 2 ^ (e' + 1074).toNat = n := by
    rw [← extended, Nat.shiftLeft_eq, Nat.mul_assoc, ← Nat.pow_add]
    refine Eq.trans ?_ size
    congr 2
    omega
  refine ⟨m', e', ?_, by omega, ?_, size'⟩
  · unfold UnpackedFloat.round
    rw [target, Nat.div_one, Nat.mod_one]
    simp only [decreaseExponent, extended, lowered]
    rfl
  · rw [Nat.div_one]
    rcases Nat.eq_zero_or_pos (surplus n) with short | long
    · right
      omega
    · left
      have whole := le_of_surplus long
      rw [← size', Nat.pow_add] at whole
      have place : 2 ^ (e' + 1074).toNat ≤ 2 ^ surplus n :=
        Nat.pow_le_pow_right (by decide) (by omega)
      exact Nat.le_of_mul_le_mul_right (whole.trans (size' ▸ Nat.mul_le_mul_left m' place))
        (Nat.two_pow_pos _)

theorem round_parts (s : Sign) {m : Nat} {e : Int} (pos : 0 < m) (least : -1074 ≤ e) :
    ∃ (c : Nat) (q : Int) (pos : 0 < c),
      UnpackedFloat.round .binary64 s m e = .finite s c q pos ∧
      c < 2 ^ 53 ∧ -1074 ≤ q ∧ (2 ^ 52 ≤ c ∨ q = -1074) ∧
      c * 2 ^ (q + 1074).toNat = rounded (m * 2 ^ (e + 1074).toNat) := by
  obtain ⟨m', e', form, least', normal, size⟩ := round_extended s pos least
  obtain ⟨c, q, parts, digits, least, normal, value⟩ := quotient_parts s Nat.one_pos least' normal
  rw [size, ← rounded_eq_quotient] at value
  have above := rounded_pos (Nat.mul_pos pos (Nat.two_pow_pos (e + 1074).toNat))
  have some : 0 < c := Nat.pos_of_mul_pos_right (value ▸ above)
  exact ⟨c, q, some, form.trans (parts.trans (ofMantissa_pos some)), digits, least, normal, value⟩

/-! ## The nearest double -/

inductive Nearest (target : Int) : UnpackedFloat → Prop where
  | finite {f : UnpackedFloat} (double : IsDouble f) (nearest : ∀ g, IsDouble g →
      (units f - target).natAbs ≤ (units g - target).natAbs) : Nearest target f
  | above (beyond : ∀ g, IsDouble g → units g < target) : Nearest target (.infinity .positive)
  | below (beyond : ∀ g, IsDouble g → target < units g) : Nearest target (.infinity .negative)

theorem nearest_self {f : UnpackedFloat} (double : IsDouble f) : Nearest (units f) f :=
  .finite double fun g _ => by simp

theorem Nearest.eq_of_double {target : Int} {f g : UnpackedFloat} (nearest : Nearest target f)
    (double : IsDouble g) (exact : units g = target) : IsDouble f ∧ units f = target := by
  cases nearest with
  | finite double' nearest =>
    have closest := nearest g double
    refine ⟨double', ?_⟩
    omega
  | above beyond =>
    have := beyond g double
    omega
  | below beyond =>
    have := beyond g double
    omega

theorem NearestQuotient.nearest {target : Int} {f : UnpackedFloat}
    (quotient : NearestQuotient target 1 f) : Nearest target f := by
  cases quotient with
  | finite double nearest => exact .finite double (by simpa using nearest)
  | above beyond => exact .above (by simpa using beyond)
  | below beyond => exact .below (by simpa using beyond)

theorem nearest_round (s : Sign) {m : Nat} {e : Int} (pos : 0 < m) (least : -1074 ≤ e) :
    Nearest (s.apply (m * 2 ^ (e + 1074).toNat : Nat))
      (Float.Model.pack (UnpackedFloat.round .binary64 s m e)).unpack := by
  obtain ⟨m', e', form, least', normal, size⟩ := round_extended s pos least
  rw [form, ← size]
  exact (nearest_quotient s Nat.one_pos least' normal).nearest

theorem exists_double (s : Sign) {c : Nat} {e : Int} (digits : c < 2 ^ 53) (least : -1074 ≤ e)
    (most : e ≤ 971) : ∃ f, IsDouble f ∧ units f = s.apply (c * 2 ^ (e + 1074).toNat : Nat) := by
  rcases Nat.eq_zero_or_pos c with rfl | pos
  · refine ⟨.zero s, .zero s, ?_⟩
    rw [Nat.zero_mul]
    cases s <;> rfl
  · obtain ⟨d, q, pos', -, short, least', normal, value⟩ := round_parts s pos least
    have closest := rounded_nearest (c * 2 ^ (e + 1074).toNat) (j := (e + 1074).toNat) digits
    have same : d * 2 ^ (q + 1074).toNat = c * 2 ^ (e + 1074).toNat := by omega
    refine ⟨.finite s d q pos', .finite pos' short least' ?_ normal, ?_⟩
    · by_contra large
      have above := magnitude_lt digits least normal (by omega : e < q)
      omega
    · rw [units, same]

/-! ## Sums -/

theorem apply_mul (s : Sign) (a b : Int) : s.apply (a * b) = s.apply a * b := by
  cases s with
  | positive => rfl
  | negative => exact (Int.neg_mul a b).symm

theorem apply_aligned (s : Sign) (m : Nat) {e t : Int} (least : -1074 ≤ t) (low : t ≤ e) :
    s.apply (m <<< (e - t).toNat : Nat) * (2 ^ (t + 1074).toNat : Nat) =
      s.apply (m * 2 ^ (e + 1074).toNat : Nat) := by
  have aligned : m <<< (e - t).toNat * 2 ^ (t + 1074).toNat = m * 2 ^ (e + 1074).toNat := by
    rw [Nat.shiftLeft_eq, Nat.mul_assoc, ← Nat.pow_add]
    congr 2
    omega
  rw [← aligned, Int.natCast_mul, apply_mul]

section
variable {P : Int → UnpackedFloat → Prop}
  (rounds : ∀ (s : Sign) (m : Nat) (e : Int), 0 < m → -1074 ≤ e →
    P (s.apply (m * 2 ^ (e + 1074).toNat : Nat))
      (Float.Model.pack (UnpackedFloat.round .binary64 s m e)).unpack)
include rounds

theorem normalize_of (zero : P 0 (.zero .positive)) (m : Int) {e : Int} (least : -1074 ≤ e) :
    P (m * (2 ^ (e + 1074).toNat : Nat))
      (Float.Model.pack (UnpackedFloat.normalize .binary64 m e .positive)).unpack := by
  unfold UnpackedFloat.normalize
  split
  · rename_i order
    have negative : m < 0 := Int.compare_eq_lt.mp order
    have size : m = -((-m).toNat : Int) := by omega
    have rounded := rounds .negative (-m).toNat e (by omega) least
    rw [Sign.apply, Int.natCast_mul, ← Int.neg_mul, ← size] at rounded
    exact rounded
  · rename_i order
    obtain rfl : m = 0 := Int.compare_eq_eq.mp order
    rw [Int.zero_mul]
    exact zero
  · rename_i order
    have positive : 0 < m := Int.compare_eq_gt.mp order
    have size : m = (m.toNat : Int) := by omega
    have rounded := rounds .positive m.toNat e (by omega) least
    rw [Sign.apply, Int.natCast_mul, ← size] at rounded
    exact rounded

theorem sum_of (exact : ∀ f, IsDouble f → P (units f) f) {f g : UnpackedFloat}
    (first : IsDouble f) (second : IsDouble g) :
    P (units f + units g) (Float.Model.pack (UnpackedFloat.add .binary64 f g)).unpack := by
  cases first with
  | zero s =>
    cases second with
    | zero s' => cases s <;> cases s' <;> exact exact (.zero _) (.zero _)
    | @finite s' m e pos digits least most normal =>
      have double : IsDouble (.finite s' m e pos) := .finite pos digits least most normal
      change P (0 + _) (Float.Model.pack (.finite s' m e pos)).unpack
      rw [Int.zero_add, unpack_pack double]
      exact exact _ double
  | @finite s m e pos digits least most normal =>
    cases second with
    | zero s' =>
      have double : IsDouble (.finite s m e pos) := .finite pos digits least most normal
      change P (_ + 0) (Float.Model.pack (.finite s m e pos)).unpack
      rw [Int.add_zero, unpack_pack double]
      exact exact _ double
    | @finite s' m' e' pos' digits' least' most' normal' =>
      have low : -1074 ≤ min e e' := by omega
      have sum := normalize_of rounds (exact _ (.zero .positive))
        (s.apply (m <<< (e - min e e').toNat : Nat) + s'.apply (m' <<< (e' - min e e').toNat : Nat))
        low
      rw [Int.add_mul, apply_aligned s m low (by omega), apply_aligned s' m' low (by omega)] at sum
      exact sum

end

/-- The sum of two doubles is the double nearest to the exact sum. -/
theorem nearest_add {f g : UnpackedFloat} (first : IsDouble f) (second : IsDouble g) :
    Nearest (units f + units g) (Float.Model.pack (UnpackedFloat.add .binary64 f g)).unpack :=
  sum_of (fun s _ _ => nearest_round s) (fun _ => nearest_self) first second

section
variable {x y : Float} (first : x.isFinite = true) (second : y.isFinite = true)
include first second

theorem nearest_sum : Nearest (unitsOf x + unitsOf y) (x + y).toModel.unpack :=
  nearest_add (isDouble_unpack first) (isDouble_unpack second)

theorem nearest_difference : Nearest (unitsOf x - unitsOf y) (x - y).toModel.unpack := by
  have sum := nearest_add (isDouble_unpack first) (isDouble_unpack second).neg
  rw [units_neg, ← unpacked_sub_eq] at sum
  exact sum

end

/-! ## Steps -/

theorem add_eq_self {x y : Float}
    (same : UnpackedFloat.add .binary64 x.toModel.unpack y.toModel.unpack = x.toModel.unpack) :
    x + y = x := by
  have packed : UnpackedFloat.pack .binary64 x.toModel.unpack = x.toModel.toBits.toBitVec :=
    pack_unpack_of_valid x.toModel.valid
  apply Float.toBits_inj.mp
  apply UInt64.toBitVec_inj.mp
  change UnpackedFloat.pack .binary64 (UnpackedFloat.add .binary64 _ _) = x.toModel.toBits.toBitVec
  rw [same, packed]

theorem add_of_infinite {x step : Float} (number : x.isNaN = false) (infinite : x.isFinite = false)
    (finite : step.isFinite = true) : x + step = x := by
  apply add_eq_self
  change x.toModel.unpack.isNaN = false at number
  change x.toModel.unpack.isFinite = false at infinite
  change step.toModel.unpack.isFinite = true at finite
  generalize x.toModel.unpack = f at *
  generalize step.toModel.unpack = g at *
  cases f with
  | notANumber => cases number
  | infinity s =>
    cases g with
    | notANumber | infinity => cases finite
    | zero | finite => rfl
  | zero | finite => cases infinite

theorem le_of_nearest {x y : Float} {target : Int} (finite : x.isFinite = true)
    (nearest : Nearest target y.toModel.unpack) :
    (unitsOf x ≤ target → x ≤ y) ∧ (target ≤ unitsOf x → y ≤ x) := by
  have double := isDouble_unpack finite
  generalize unpacked : y.toModel.unpack = f at nearest
  cases nearest with
  | finite double' nearest =>
    subst unpacked
    have closest := nearest _ double
    rw [le_iff_units finite double'.isFinite, le_iff_units double'.isFinite finite]
    unfold unitsOf at *
    omega
  | above beyond =>
    have less := beyond _ double
    refine ⟨fun _ => ?_, fun more => absurd less (Int.not_lt.mpr more)⟩
    rw [le_iff_compare, unpacked, compare_above double]
    rfl
  | below beyond =>
    have more := beyond _ double
    refine ⟨fun less => absurd more (Int.not_lt.mpr less), fun _ => ?_⟩
    rw [le_iff_compare, unpacked, compare_below double]
    rfl

section
variable {x step : Float} (number : x.isNaN = false) (finite : step.isFinite = true)
include number finite

theorem le_add_of_pos (up : 0 < step) : x ≤ x + step := by
  cases finite' : x.isFinite with
  | false =>
    rw [add_of_infinite number finite' finite]
    exact le_refl_of_number number
  | true =>
    have positive : 0 < unitsOf step := (lt_iff_units rfl finite).mp up
    exact (le_of_nearest finite' (nearest_sum finite' finite)).1 (by omega)

theorem add_le_of_neg (down : step < 0) : x + step ≤ x := by
  cases finite' : x.isFinite with
  | false =>
    rw [add_of_infinite number finite' finite]
    exact le_refl_of_number number
  | true =>
    have negative : unitsOf step < 0 := (lt_iff_units finite rfl).mp down
    exact (le_of_nearest finite' (nearest_sum finite' finite)).2 (by omega)

omit number in
theorem unitsOf_add_of_zero (zero : unitsOf x = 0) (start : x.isFinite = true) :
    unitsOf (x + step) = unitsOf step := by
  have nearest := nearest_sum start finite
  rw [zero, Int.zero_add] at nearest
  exact (nearest.eq_of_double (isDouble_unpack finite) rfl).2

omit number in
theorem add_eq_of_beq (moves : (step == 0) = false) (equal : (x + step == x) = true) :
    x + step = x := by
  have away : unitsOf step ≠ 0 := by
    intro still
    have zero : (step == 0) = true := (beq_iff_units finite rfl).mpr still
    rw [zero] at moves
    cases moves
  obtain ⟨-, -, same | ⟨sum, start⟩ | ⟨sum, start⟩⟩ := Float.beq_iff_ne_nan_and_eq.mp equal
  · exact same
  · subst start
    have reached := unitsOf_add_of_zero finite (x := -0) rfl rfl
    rw [sum] at reached
    exact absurd reached.symm away
  · subst start
    have reached := unitsOf_add_of_zero finite (x := 0) rfl rfl
    rw [sum] at reached
    exact absurd reached.symm away

end

end SolidScript.Proofs
