import SolidScript.Mesh.Stl
import SolidScript.Proofs.Number.Decimal
import SolidScript.Proofs.Number.Division
import SolidScript.Proofs.Number.Rank

namespace SolidScript.Proofs
open Float.Model UnpackedFloat Number

/-! ## Values in units -/

theorem value_units {x : Float} (finite : x.isFinite = true) :
    value x * unitsInOne = unitsOf x := by
  have double := isDouble_unpack finite
  unfold value Number.exact unitsOf
  generalize x.toModel.unpack = f at double
  cases double with
  | zero s => cases s <;> simp [units, withSign, isNegative]
  | @finite s m e pos digits least most normal =>
    have size : (m * 2 ^ e * unitsInOne : ℚ) = (m * 2 ^ (e + 1074).toNat : ℕ) := by
      have scaled := congrArg (Nat.cast (R := ℚ)) (numerator_units m least)
      rw [Nat.cast_mul, Nat.cast_mul] at scaled
      have nonzero : (denominator e : ℚ) ≠ 0 := Nat.cast_ne_zero.mpr (denominator_pos e).ne'
      rw [← numerator_div_denominator, div_mul_eq_mul_div, scaled, mul_div_cancel_right₀ _ nonzero]
    change withSign (isNegative s) (m * 2 ^ e : ℚ) * unitsInOne = _
    rw [withSign_mul, size, units]
    cases s <;> simp [withSign, isNegative, Sign.apply]

def distance (x : Float) (k : Int) : Nat := (unitsOf x * 10 ^ 6 - k * unitsInOne).natAbs

theorem distance_value {x : Float} (finite : x.isFinite = true) (k : Int) :
    |value x * 10 ^ 6 - k| * unitsInOne = (distance x k : ℚ) := by
  have nonneg : (0 : ℚ) ≤ unitsInOne := Nat.cast_nonneg _
  have scaled : (value x * 10 ^ 6 - k) * unitsInOne =
      ((unitsOf x * 10 ^ 6 - k * unitsInOne : ℤ) : ℚ) := by
    push_cast
    rw [← value_units finite]
    ring
  calc |value x * 10 ^ 6 - k| * (unitsInOne : ℚ) = |(value x * 10 ^ 6 - k) * unitsInOne| := by
        rw [abs_mul, abs_of_nonneg nonneg]
    _ = (distance x k : ℚ) := by rw [scaled, distance, Nat.cast_natAbs, Int.cast_abs]

theorem closer_iff {x y : Float} (finite : x.isFinite = true) (finite' : y.isFinite = true)
    {k : Int} : |value x * 10 ^ 6 - k| ≤ |value y * 10 ^ 6 - k| ↔ distance x k ≤ distance y k := by
  have pos : (0 : ℚ) < unitsInOne := Nat.cast_pos.mpr unitsInOne_pos
  rw [← mul_le_mul_iff_of_pos_right pos, distance_value finite, distance_value finite',
    Nat.cast_le]

theorem nearestEven_of_closer {r r' : ℚ} {k : ℤ} (nearest : NearestEven r k)
    (closer : |r' - k| ≤ |r - k|) : NearestEven r' k := by
  rw [abs_sub_comm r', abs_sub_comm r] at closer
  refine ⟨closer.trans nearest.near, fun half => nearest.tie ?_⟩
  exact nearest.near.antisymm (half.symm.trans_le closer)

/-! ## Rounding to the nearest double -/

theorem last_double : ∃ n : Nat, (∃ f, IsDouble f ∧ units f = (n * unitsInOne : Nat)) ∧
    ∀ g, IsDouble g → (units g).natAbs ≤ n * unitsInOne := by
  have scale : 2 ^ ((971 : Int) + 1074).toNat = 2 ^ (971 : Int).toNat * unitsInOne :=
    two_pow_units (by decide)
  obtain ⟨f, double, value⟩ := @exists_double .positive (2 ^ 53 - 1) 971 (by decide) (by decide)
    le_rfl
  rw [scale, ← Nat.mul_assoc] at value
  refine ⟨_, ⟨f, double, value⟩, fun g double => ?_⟩
  obtain ⟨c, e, digits, least, most, size⟩ := natAbs_units double
  rw [size, Nat.mul_assoc, ← scale]
  exact Nat.mul_le_mul (by omega) (Nat.pow_le_pow_right (by decide) (by omega))

theorem millionths_of_near {n : Nat} {f : UnpackedFloat} (double : IsDouble f)
    (near : 2 * (units f * 10 ^ 6 - n * unitsInOne).natAbs ≤ unitsInOne) :
    IsDouble (Float.ofScientific n true 6).toModel.unpack ∧ ∀ g, IsDouble g →
      distance (Float.ofScientific n true 6) n ≤ (units g * 10 ^ 6 - n * unitsInOne).natAbs := by
  have nearest := nearest_millionths n
  unfold distance unitsOf
  generalize (Float.ofScientific n true 6).toModel.unpack = y at nearest ⊢
  cases nearest with
  | finite double' closest => exact ⟨double', closest⟩
  | above beyond =>
    obtain ⟨last, ⟨g, double', value⟩, most⟩ := last_double
    have more : ((last * 10 ^ 6 * unitsInOne : Nat) : Int) < (n * unitsInOne : Nat) := by
      have less := beyond g double'
      rw [value] at less
      rw [Nat.mul_right_comm]
      exact_mod_cast less
    -- Both sides are whole, so they are a whole one apart.
    have apart := Nat.mul_le_mul_right unitsInOne
      (Nat.succ_le_of_lt (Nat.lt_of_mul_lt_mul_right (Int.ofNat_lt.mp more)))
    have one := unitsInOne_pos
    have less := most f double
    rw [Nat.succ_mul, Nat.mul_right_comm] at apart
    omega
  | below beyond =>
    have less : (n * unitsInOne : Int) < 0 := beyond _ (.zero .positive)
    have nonneg : (0 : Int) ≤ n * unitsInOne :=
      Int.mul_nonneg (Int.natCast_nonneg _) (Int.natCast_nonneg _)
    omega

theorem unpack_neg {x : Float} (finite : x.isFinite = true) :
    (-x).toModel.unpack = x.toModel.unpack.neg :=
  unpack_pack (isDouble_unpack finite).neg

theorem isFinite_neg {x : Float} (finite : x.isFinite = true) : (-x).isFinite = true := by
  change (-x).toModel.unpack.isFinite = true
  rw [unpack_neg finite]
  exact (isDouble_unpack finite).neg.isFinite

theorem distance_neg {x : Float} (finite : x.isFinite = true) (k : Int) :
    distance (-x) k = distance x (-k) := by
  rw [distance, distance, unitsOf, unpack_neg finite, units_neg, ← unitsOf]
  rw [Int.neg_mul, Int.neg_mul]
  omega

theorem distance_of_nearest {x : Float} (finite : x.isFinite = true) {k : Int}
    (nearest : NearestEven (value x * 10 ^ 6) k) : 2 * distance x k ≤ unitsInOne := by
  have near := nearest.near
  have scaled := distance_value finite k
  have nonneg : (0 : ℚ) ≤ unitsInOne := Nat.cast_nonneg _
  rw [abs_sub_comm] at near
  have half := mul_le_mul_of_nonneg_right near nonneg
  rw [scaled] at half
  have twice : 2 * (distance x k : ℚ) ≤ unitsInOne := by linarith
  exact_mod_cast twice

theorem roundToPlaces_nearest {x : Float} (finite : x.isFinite = true) {k : Int}
    (nearest : NearestEven (value x * 10 ^ 6) k) :
    (roundToPlaces 6 x).isFinite = true ∧
      ∀ z : Float, z.isFinite = true → distance (roundToPlaces 6 x) k ≤ distance z k := by
  obtain ⟨negative, m, q, parts⟩ := exact_of_isFinite finite
  have near := distance_of_nearest finite nearest
  rw [nearest.unique (nearestEven_of_exact 6 parts)] at near ⊢
  have rounded : roundToPlaces 6 x = if negative then -Float.ofScientific (toPlaces 6 m q) true 6
      else Float.ofScientific (toPlaces 6 m q) true 6 := by rw [roundToPlaces, parts]
  rw [rounded]
  cases negative with
  | false =>
    rw [withSign, if_neg Bool.false_ne_true] at near ⊢
    obtain ⟨double, closest⟩ := millionths_of_near (isDouble_unpack finite) near
    rw [if_neg Bool.false_ne_true]
    exact ⟨double.isFinite, fun z finite' => closest _ (isDouble_unpack finite')⟩
  | true =>
    rw [withSign, if_pos rfl, ← distance_neg finite] at near
    obtain ⟨double, closest⟩ := millionths_of_near (isDouble_unpack (isFinite_neg finite)) near
    rw [if_pos rfl, withSign, if_pos rfl, distance_neg double.isFinite, Int.neg_neg]
    refine ⟨isFinite_neg double.isFinite, fun z finite' => ?_⟩
    rw [← distance_neg finite']
    exact closest _ (isDouble_unpack (isFinite_neg finite'))

/-! ## The text -/

theorem fixedText_of_nearest {x : Float} (finite : x.isFinite = true) {k : Int}
    (nearest : NearestEven (value x * 10 ^ 6) k) (nonzero : k ≠ 0) :
    fixedText 6 x = signed (k < 0) (pointed 6 k.natAbs) := by
  obtain ⟨negative, m, q, parts⟩ := exact_of_isFinite finite
  rw [nearest.unique (nearestEven_of_exact 6 parts)] at nonzero ⊢
  rw [decide_withSign nonzero, natAbs_withSign, fixedText, parts]

theorem roundToPlaces_zero {x : Float} (finite : x.isFinite = true)
    (nearest : NearestEven (value x * 10 ^ 6) 0) :
    ∃ negative, fixedText 6 x = signed negative (pointed 6 0) ∧
      roundToPlaces 6 x = if negative then -0 else 0 := by
  obtain ⟨negative, m, q, parts⟩ := exact_of_isFinite finite
  have zero : toPlaces 6 m q = 0 := by
    have same := nearest.unique (nearestEven_of_exact 6 parts)
    cases negative <;> simp [withSign] at same <;> omega
  refine ⟨negative, ?_, ?_⟩
  · rw [fixedText, parts, ← zero]
  · rw [roundToPlaces, parts]
    dsimp only
    rw [zero]
    rfl

theorem add_zero_of_ne {x : Float} (other : x ≠ -0) : x + 0 = x := by
  have zero : (0 : Float).toModel.unpack = .zero .positive := rfl
  have form : x.toModel.unpack ≠ .zero .negative := fun same => other (unpack_injective same)
  apply add_eq_self
  rw [zero]
  generalize x.toModel.unpack = f at form ⊢
  cases f with
  | zero s =>
    cases s with
    | positive => rfl
    | negative => exact absurd rfl form
  | notANumber | infinity | finite => rfl

section
variable {x : Float} (finite : x.isFinite = true) {k : Int}
  (nearest : NearestEven (value x * 10 ^ 6) k)
include finite nearest

theorem nearestEven_roundToPlaces : NearestEven (value (roundToPlaces 6 x) * 10 ^ 6) k := by
  obtain ⟨finite', closest⟩ := roundToPlaces_nearest finite nearest
  exact nearestEven_of_closer nearest ((closer_iff finite' finite).mpr (closest x finite))

theorem fixedText_roundToPlaces : fixedText 6 (roundToPlaces 6 x) = fixedText 6 x := by
  by_cases zero : k = 0
  · subst zero
    obtain ⟨negative, text, rounded⟩ := roundToPlaces_zero finite nearest
    rw [text, rounded]
    cases negative <;> rfl
  · rw [fixedText_of_nearest finite nearest zero, fixedText_of_nearest
      (roundToPlaces_nearest finite nearest).1 (nearestEven_roundToPlaces finite nearest) zero]

theorem coordinate_text :
    (Stl.coordinate x).toList = signed (k < 0) (pointed 6 k.natAbs) := by
  rw [Stl.coordinate, String.toList_ofList]
  by_cases zero : k = 0
  · subst zero
    obtain ⟨negative, -, rounded⟩ := roundToPlaces_zero finite nearest
    rw [rounded]
    cases negative <;> rfl
  · -- Adding zero changes nothing but the negative zero, which is not nearest to this decimal.
    have nearest' := nearestEven_roundToPlaces finite nearest
    have other : roundToPlaces 6 x ≠ -0 := by
      intro same
      have none : value (-0) * 10 ^ 6 = (0 : ℤ) := by
        rw [value_of_exact (rfl : exact (-0) = .finite true 0 0)]
        simp [withSign]
      rw [same, none] at nearest'
      exact zero (nearest'.unique (.of_intCast 0))
    rw [add_zero_of_ne other, fixedText_roundToPlaces finite nearest,
      fixedText_of_nearest finite nearest zero]

end

theorem roundToPlaces_closest {x z : Float} (finite : x.isFinite = true)
    (finite' : z.isFinite = true) {k : Int} (nearest : NearestEven (value x * 10 ^ 6) k) :
    |value (roundToPlaces 6 x) - k / 10 ^ 6| ≤ |value z - k / 10 ^ 6| := by
  obtain ⟨double, closest⟩ := roundToPlaces_nearest finite nearest
  have closer := (closer_iff double finite').mpr (closest z finite')
  have million : (0 : ℚ) < 10 ^ 6 := by norm_num
  have scaled (y : Float) : |value y - k / 10 ^ 6| * 10 ^ 6 = |value y * 10 ^ 6 - k| := by
    rw [← abs_of_pos million, ← abs_mul, abs_of_pos million, sub_mul,
      div_mul_cancel₀ _ million.ne']
  rwa [← mul_le_mul_iff_of_pos_right million, scaled, scaled]

/-- A finite coordinate is written with six places after the point and at least one digit before it.
This is its exact value rounded once, half to even: the double between is the one nearest to that
decimal, and writes the same. There is a minus sign only where the decimal is negative. -/
theorem coordinate_rounded_once {x : Float} (finite : x.isFinite = true) :
    ∃ (k : ℤ) (ds fs : List Char),
      NearestEven (value x * 10 ^ 6) k ∧
      (Stl.coordinate x).toList = signed (k < 0) (ds ++ '.' :: fs) ∧
      ds ≠ [] ∧ (∀ d ∈ ds, d.isDigit = true) ∧ (∀ d ∈ fs, d.isDigit = true) ∧ fs.length = 6 ∧
      decimalValue (Stl.coordinate x).toList = k / 10 ^ 6 ∧
      (roundToPlaces 6 x).isFinite = true ∧
      (∀ z : Float, z.isFinite = true →
        |value (roundToPlaces 6 x) - k / 10 ^ 6| ≤ |value z - k / 10 ^ 6|) ∧
      fixedText 6 (roundToPlaces 6 x) = fixedText 6 x ∧
      ('-' ∈ (Stl.coordinate x).toList → decimalValue (Stl.coordinate x).toList < 0) ∧
      Stl.coordinate x ≠ "-0.000000" := by
  obtain ⟨negative, m, q, parts⟩ := exact_of_isFinite finite
  have nearest := nearestEven_of_exact 6 parts
  generalize withSign negative (toPlaces 6 m q : ℤ) = k at nearest
  obtain ⟨ds, fs, pointed, nonempty, digits, places, count, total⟩ :=
    @pointed_eq_append 6 (by decide) k.natAbs
  have text := coordinate_text finite nearest
  rw [pointed] at text
  have decimal : decimalValue (Stl.coordinate x).toList = k / 10 ^ 6 := by
    obtain ⟨d, rest, rfl⟩ := List.exists_cons_of_ne_nil nonempty
    have digit : d.isDigit = true := digits d List.mem_cons_self
    rw [text, List.cons_append, decimalValue_signed _ digit, ← List.cons_append,
      numeralValue_point digits, total, count]
    by_cases negative : k < 0
    · rw [decide_eq_true negative, withSign, if_pos rfl, Nat.cast_natAbs, abs_of_neg negative,
        Int.cast_neg, neg_div, neg_neg]
    · rw [decide_eq_false negative, withSign, if_neg Bool.false_ne_true, Nat.cast_natAbs,
        abs_of_nonneg (not_lt.mp negative)]
  have signs (minus : '-' ∈ (Stl.coordinate x).toList) :
      decimalValue (Stl.coordinate x).toList < 0 := by
    have less : k < 0 := by
      by_contra nonneg
      rw [text, decide_eq_false nonneg] at minus
      rcases List.mem_append.mp minus with digit | rest
      · exact Bool.noConfusion (digits _ digit)
      · rcases List.mem_cons.mp rest with point | place
        · cases point
        · exact Bool.noConfusion (places _ place)
    rw [decimal]
    exact div_neg_of_neg_of_pos (Int.cast_lt_zero.mpr less) (by norm_num)
  refine ⟨k, ds, fs, nearest, text, nonempty, digits, places, count, decimal,
    (roundToPlaces_nearest finite nearest).1,
    fun z finite' => roundToPlaces_closest finite finite' nearest,
    fixedText_roundToPlaces finite nearest, signs, fun zero => ?_⟩
  have negative := signs (by rw [zero]; decide)
  rw [zero] at negative
  exact absurd negative (by decide +kernel)

theorem coordinate_half_place : (-0.0078125 : Float).isFinite = true ∧
    (-4e-7 : Float).isFinite = true ∧
    NearestEven (value (-0.0078125) * 10 ^ 6) (-7812) ∧
    Stl.coordinate (-0.0078125) = "-0.007812" ∧
    Stl.coordinate (-4e-7) = "0.000000" ∧ NearestEven (value (-4e-7) * 10 ^ 6) 0 := by
  have finite : (-0.0078125 : Float).isFinite = true := by decide +kernel
  have finite' : (-4e-7 : Float).isFinite = true := by decide +kernel
  have text : Stl.coordinate (-0.0078125) = "-0.007812" := by decide +kernel
  have text' : Stl.coordinate (-4e-7) = "0.000000" := by decide +kernel
  obtain ⟨k, _, _, nearest, -, -, -, -, -, decimal, -⟩ := coordinate_rounded_once finite
  obtain ⟨k', _, _, nearest', -, -, -, -, -, decimal', -⟩ := coordinate_rounded_once finite'
  have tie : decimalValue "-0.007812".toList = -7812 / 10 ^ 6 := by decide +kernel
  have none : decimalValue "0.000000".toList = 0 := by decide +kernel
  rw [text, tie] at decimal
  rw [text', none] at decimal'
  have same : k = -7812 := by
    have : (k : ℚ) = -7812 := by linarith
    exact_mod_cast this
  have same' : k' = 0 := by
    have : (k' : ℚ) = 0 := by linarith
    exact_mod_cast this
  exact ⟨finite, finite', same ▸ nearest, text, text', same' ▸ nearest'⟩

end SolidScript.Proofs
