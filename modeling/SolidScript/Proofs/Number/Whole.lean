import SolidScript.Proofs.Number.Rounding

namespace SolidScript.Proofs
open Float.Model UnpackedFloat Number

-- Irreducible, so that no power of it is ever written out as a numeral.
@[irreducible]
def leastPlace : Nat := 1074

def unitsInOne : Nat := 2 ^ leastPlace

theorem leastPlace_eq : leastPlace = 1074 := by
  rw [leastPlace]

theorem unitsInOne_pos : 0 < unitsInOne := Nat.two_pow_pos _

theorem unitsInOne_pos_int : (0 : Int) < unitsInOne := Int.natCast_pos.mpr unitsInOne_pos

def Whole (x : Float) (a : Int) : Prop := x.isFinite = true ∧ unitsOf x = a * unitsInOne

theorem numerator_units (m : Nat) {q : Int} (least : -1074 ≤ q) :
    numerator m q * unitsInOne = m * 2 ^ (q + 1074).toNat * denominator q := by
  have place := leastPlace_eq
  rw [unitsInOne, numerator, denominator, Nat.pow_eq, Nat.pow_eq, Nat.mul_assoc,
    Nat.mul_assoc, ← Nat.pow_add, ← Nat.pow_add]
  congr 2
  omega

theorem exact_quotient (m : Nat) {q : Int} (least : -1074 ≤ q) (a : Nat) :
    m * 2 ^ (q + 1074).toNat = a * unitsInOne ↔
      numerator m q % denominator q = 0 ∧ numerator m q / denominator q = a := by
  have scaled := numerator_units m least
  have pos := denominator_pos q
  constructor
  · intro same
    have exact : numerator m q = a * denominator q := by
      apply Nat.eq_of_mul_eq_mul_right unitsInOne_pos
      rw [scaled, same]
      ring
    rw [exact]
    exact ⟨Nat.mul_mod_left a _, Nat.mul_div_cancel a pos⟩
  · rintro ⟨divides, rfl⟩
    apply Nat.eq_of_mul_eq_mul_right pos
    rw [← scaled, Nat.mul_right_comm, Nat.div_mul_cancel (Nat.dvd_of_mod_eq_zero divides)]

theorem integer?_eq_some_iff {x : Float} {a : Int} : integer? x = some a ↔ Whole x a := by
  unfold integer? Number.exact Whole unitsOf
  change _ ↔ x.toModel.unpack.isFinite = true ∧ _
  cases unpacked : x.toModel.unpack with
  | notANumber | infinity => exact ⟨nofun, fun whole => nomatch whole.1⟩
  | zero s =>
    have none : (0 : Int) = a * unitsInOne ↔ 0 = a := by
      rw [eq_comm, Int.mul_eq_zero, or_iff_left unitsInOne_pos_int.ne', eq_comm]
    refine Iff.trans ?_ (none.symm.trans (and_iff_right rfl).symm)
    cases s <;> exact Option.some_inj
  | finite s m e pos =>
    obtain ⟨-, least, -, -⟩ := unpack_parts unpacked
    have quotient := exact_quotient m least
    refine Iff.trans ?_ (and_iff_right rfl).symm
    rw [units]
    dsimp only
    generalize numerator m e = num at *
    generalize denominator e = den at *
    generalize m * 2 ^ (e + 1074).toNat = n at *
    have signed (k : Nat) : (if isNegative s then -Int.ofNat k else Int.ofNat k) = s.apply k := by
      cases s <;> rfl
    rw [signed]
    constructor
    · intro found
      split at found
      · rename_i divides
        cases found
        rw [(quotient (num / den)).mpr ⟨divides, rfl⟩, Int.natCast_mul, apply_mul]
      · cases found
    · intro same
      have size : n = a.natAbs * unitsInOne := by
        have sizes := congrArg Int.natAbs same
        rwa [natAbs_apply, Int.natAbs_mul, Int.natAbs_natCast, Int.natAbs_natCast] at sizes
      obtain ⟨divides, whole⟩ := (quotient a.natAbs).mp size
      rw [if_pos divides, whole]
      rw [size, Int.natCast_mul, apply_mul] at same
      exact congrArg some (Int.eq_of_mul_eq_mul_right unitsInOne_pos_int.ne' same)

theorem exists_whole {a : Int} (fits : a.natAbs ≤ 2 ^ 53) :
    ∃ f, IsDouble f ∧ units f = a * unitsInOne := by
  obtain ⟨s, signed⟩ : ∃ s : Sign, s.apply a.natAbs = a := by
    rcases le_total 0 a with nonneg | nonpos
    · exact ⟨.positive, Int.natAbs_of_nonneg nonneg⟩
    · refine ⟨.negative, ?_⟩
      rw [Sign.apply]
      omega
  obtain ⟨c, e, digits, least, most, same⟩ : ∃ (c : Nat) (e : Int), c < 2 ^ 53 ∧ -1074 ≤ e ∧
      e ≤ 971 ∧ c * 2 ^ (e + 1074).toNat = a.natAbs * unitsInOne := by
    rcases Nat.lt_or_eq_of_le fits with less | last
    · refine ⟨a.natAbs, 0, less, by decide, by decide, ?_⟩
      have place : ((0 : Int) + 1074).toNat = leastPlace := leastPlace_eq.symm
      rw [place, unitsInOne]
    · refine ⟨2 ^ 52, 1, by decide, by decide, by decide, ?_⟩
      have next : ((1 : Int) + 1074).toNat = leastPlace + 1 := by rw [leastPlace_eq]; rfl
      have twice : 2 ^ (leastPlace + 1) = unitsInOne * 2 := Nat.pow_succ ..
      rw [next, twice, last]
      omega
  obtain ⟨f, double, value⟩ := exists_double s digits least most
  refine ⟨f, double, ?_⟩
  rw [value, same, Int.natCast_mul, apply_mul, signed]

section
variable {x y : Float} {a b : Int} (first : Whole x a) (second : Whole y b)
include first second

theorem Whole.add (fits : (a + b).natAbs ≤ 2 ^ 53) : Whole (x + y) (a + b) := by
  obtain ⟨f, double, exact⟩ := exists_whole fits
  have nearest := nearest_sum first.1 second.1
  rw [first.2, second.2, ← Int.add_mul] at nearest
  obtain ⟨double', same⟩ := nearest.eq_of_double double exact
  exact ⟨double'.isFinite, same⟩

theorem Whole.lt_iff : x < y ↔ a < b := by
  rw [lt_iff_units first.1 second.1, first.2, second.2]
  exact Int.mul_lt_mul_right unitsInOne_pos_int

theorem Whole.le_iff : x ≤ y ↔ a ≤ b := by
  rw [le_iff_units first.1 second.1, first.2, second.2]
  exact Int.mul_le_mul_right unitsInOne_pos_int

theorem Whole.beq_iff : (x == y) = true ↔ a = b := by
  rw [beq_iff_units first.1 second.1, first.2, second.2]
  exact Int.mul_eq_mul_right_iff unitsInOne_pos_int.ne'

end

theorem tolerance_units : 0 < unitsOf 1e-9 ∧ 2 * unitsOf 1e-9 < unitsInOne := by
  decide +kernel

theorem Nearest.of_whole {b away : Int} {f : UnpackedFloat} (room : b.natAbs < 2 ^ 53)
    (small : 2 * away.natAbs < unitsInOne) (nearest : Nearest (b * unitsInOne + away) f) :
    IsDouble f ∧ (units f - b * unitsInOne).natAbs < unitsInOne ∧
      (0 ≤ away → b * unitsInOne ≤ units f) ∧ (away ≤ 0 → units f ≤ b * unitsInOne) := by
  obtain ⟨g, here, exact⟩ := exists_whole (Nat.le_of_lt room)
  obtain ⟨below, lower, less⟩ := exists_whole (a := b - 1) (by omega)
  obtain ⟨above, upper, more⟩ := exists_whole (a := b + 1) (by omega)
  rw [Int.sub_mul, Int.one_mul] at less
  rw [Int.add_mul, Int.one_mul] at more
  cases nearest with
  | finite double nearest =>
    have closest := nearest g here
    exact ⟨double, by omega, by omega, by omega⟩
  | above beyond =>
    have := beyond above upper
    omega
  | below beyond =>
    have := beyond below lower
    omega

section
variable {finish v : Float} {b n : Int} (last : Whole finish b) (value : Whole v n)
include last value

theorem Whole.add_tolerance_lt_iff (room : b.natAbs < 2 ^ 53) : finish + 1e-9 < v ↔ b < n := by
  have ⟨pos, small⟩ := tolerance_units
  have nearest := nearest_sum last.1 (y := 1e-9) rfl
  rw [last.2] at nearest
  obtain ⟨double, close, up, -⟩ := nearest.of_whole room (by omega)
  have above := up (Int.le_of_lt pos)
  rw [lt_iff_units double.isFinite value.1, value.2, unitsOf]
  constructor
  · intro less
    exact lt_of_mul_lt_mul_right (lt_of_le_of_lt above less) unitsInOne_pos_int.le
  · intro less
    have next : (b + 1) * unitsInOne ≤ n * unitsInOne :=
      Int.mul_le_mul_of_nonneg_right less unitsInOne_pos_int.le
    rw [Int.add_mul, Int.one_mul] at next
    omega

theorem Whole.lt_sub_tolerance_iff (room : b.natAbs < 2 ^ 53) : v < finish - 1e-9 ↔ n < b := by
  have ⟨pos, small⟩ := tolerance_units
  have nearest := nearest_difference last.1 (y := 1e-9) rfl
  rw [last.2, Int.sub_eq_add_neg] at nearest
  obtain ⟨double, close, -, down⟩ := nearest.of_whole room (by omega)
  have below := down (by omega)
  rw [lt_iff_units value.1 double.isFinite, value.2, unitsOf]
  constructor
  · intro less
    exact lt_of_mul_lt_mul_right (lt_of_lt_of_le less below) unitsInOne_pos_int.le
  · intro less
    have next : (n + 1) * unitsInOne ≤ b * unitsInOne :=
      Int.mul_le_mul_of_nonneg_right less unitsInOne_pos_int.le
    rw [Int.add_mul, Int.one_mul] at next
    omega

end

end SolidScript.Proofs
