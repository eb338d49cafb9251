import Mathlib.Algebra.Order.Field.Basic
import Mathlib.Algebra.Order.Ring.Rat
import Mathlib.Data.List.TakeWhile
import Mathlib.Data.Nat.Cast.Field
import Mathlib.Tactic.FieldSimp
import Mathlib.Tactic.Linarith
import Mathlib.Tactic.Ring
import SolidScript.Number.Layout

/-!
# Exact values and decimals

A finite double stands for a rational number, and so does a text of digits with a point. A double
in units of the last place of a decimal is rounded to the nearest integer, halfway to the even one;
no other integer is nearest in this sense. The digits of the rounded value, with a point among
them, are a decimal with that value.
-/

namespace SolidScript.Number

def withSign {α : Type} [Neg α] (negative : Bool) (a : α) : α := if negative then -a else a

/-- The number that a finite double stands for. -/
def value (x : Float) : ℚ :=
  match exact x with
  | .finite negative m q => withSign negative (m * 2 ^ q)
  | _ => 0

def numeralValue (cs : List Char) : ℚ :=
  let fraction := (cs.dropWhile (· ≠ '.')).drop 1
  Nat.ofDigitChars 10 (cs.takeWhile (· ≠ '.') ++ fraction) 0 / 10 ^ fraction.length

def decimalValue : List Char → ℚ
  | '-' :: cs => -numeralValue cs
  | cs => numeralValue cs

/-! ## The nearest integer -/

/-- No integer is nearer, and the even one of two is taken. -/
structure NearestEven (r : ℚ) (n : ℤ) : Prop where
  near : |(n : ℚ) - r| ≤ 1 / 2
  tie : |(n : ℚ) - r| = 1 / 2 → Even n

namespace NearestEven

variable {r : ℚ} {n k : ℤ}

theorem of_intCast (n : ℤ) : NearestEven n n where
  near := by norm_num
  tie half := by norm_num at half

theorem of_places (n : ℤ) (places : ℕ) : NearestEven (n * 10 ^ places) (n * 10 ^ places) := by
  have nearest := of_intCast (n * 10 ^ places)
  rwa [Int.cast_mul, Int.cast_pow, Int.cast_ofNat] at nearest

theorem neg (nearest : NearestEven r n) : NearestEven (-r) (-n) := by
  have distance : |((-n : ℤ) : ℚ) - -r| = |(n : ℚ) - r| := by
    rw [Int.cast_neg, ← neg_sub', abs_neg]
  exact ⟨distance.trans_le nearest.near, fun half => (nearest.tie (distance.symm.trans half)).neg⟩

theorem withSign (negative : Bool) (nearest : NearestEven r n) :
    NearestEven (withSign negative r) (withSign negative n) := by
  cases negative with
  | false => exact nearest
  | true => exact nearest.neg

theorem le (first : NearestEven r n) (second : NearestEven r k) : k ≤ n := by
  by_contra less
  rw [not_le] at less
  obtain ⟨low, -⟩ := abs_le.mp first.near
  obtain ⟨-, high⟩ := abs_le.mp second.near
  have step : (n : ℚ) + 1 ≤ k := by exact_mod_cast less
  -- Two nearest integers leave the number halfway between them, and one of them is odd.
  have half : r = n + 1 / 2 := by linarith
  have next : k = n + 1 := by
    have : (k : ℚ) = n + 1 := by linarith
    exact_mod_cast this
  have even : Even n := first.tie (by rw [half]; norm_num)
  have even' : Even (n + 1) := next ▸ second.tie (by rw [half, next]; norm_num)
  exact Int.even_add_one.mp even' even

theorem unique (first : NearestEven r n) (second : NearestEven r k) : n = k :=
  le_antisymm (second.le first) (first.le second)

end NearestEven

theorem roundHalfEven_half {num den : Nat} (pos : 0 < den)
    (half : 2 * (roundHalfEven num den * den) = 2 * num + den ∨
      2 * num = 2 * (roundHalfEven num den * den) + den) : 2 * (num % den) = den := by
  have parts : den * (num / den) + num % den = num := Nat.div_add_mod num den
  have small : num % den < den := Nat.mod_lt _ pos
  simp only [roundHalfEven] at half
  generalize num / den = below at *
  generalize num % den = rest at *
  have same : below * den = den * below := Nat.mul_comm ..
  have next : (below + 1) * den = den * below + den := by rw [Nat.succ_mul, same]
  generalize den * below = product at *
  split at half
  · omega
  · split at half
    · omega
    · omega

theorem nearestEven_roundHalfEven (num : Nat) {den : Nat} (pos : 0 < den) :
    NearestEven ((num : ℚ) / den) (roundHalfEven num den : ℕ) := by
  obtain ⟨above, below⟩ := roundHalfEven_near num den pos
  have half := @roundHalfEven_half num den pos
  have even := roundHalfEven_tie num den
  generalize roundHalfEven num den = n at *
  have twice : (0 : ℚ) < 2 * den := by exact_mod_cast Nat.mul_pos Nat.two_pos pos
  have above' : 2 * (n * den : ℚ) ≤ 2 * num + den := by exact_mod_cast above
  have below' : 2 * (num : ℚ) ≤ 2 * (n * den) + den := by exact_mod_cast below
  have scaled : 2 * den * (((n : ℤ) : ℚ) - num / den) = 2 * (n * den) - 2 * num := by
    rw [Int.cast_natCast]
    field_simp
  refine ⟨abs_le.mpr ⟨?_, ?_⟩, fun tie => ?_⟩
  · apply le_of_mul_le_mul_left _ twice
    rw [scaled]
    linarith
  · apply le_of_mul_le_mul_left _ twice
    rw [scaled]
    linarith
  · have halfway : 2 * (n * den) = 2 * num + den ∨ 2 * num = 2 * (n * den) + den := by
      rcases (abs_eq (by norm_num)).mp tie with up | down
      · left
        rw [up] at scaled
        have : 2 * (n * den : ℚ) = 2 * num + den := by linarith
        exact_mod_cast this
      · right
        rw [down] at scaled
        have : 2 * (num : ℚ) = 2 * (n * den) + den := by linarith
        exact_mod_cast this
    exact Int.even_iff.mpr (by exact_mod_cast even (half halfway))

end SolidScript.Number

namespace SolidScript.Proofs
open Number

/-! ## The value of a double -/

theorem withSign_mul {α : Type} [Mul α] [HasDistribNeg α] (negative : Bool) (a b : α) :
    withSign negative a * b = withSign negative (a * b) := by
  cases negative with
  | false => rfl
  | true => exact neg_mul a b

theorem withSign_natAbs (k : Int) : withSign (decide (k < 0)) (k.natAbs : Int) = k := by
  by_cases negative : k < 0
  · rw [decide_eq_true negative]
    change -(k.natAbs : Int) = k
    omega
  · rw [decide_eq_false negative]
    change (k.natAbs : Int) = k
    omega

theorem natAbs_withSign (negative : Bool) (n : Nat) : (withSign negative (n : Int)).natAbs = n := by
  cases negative with
  | false => exact Int.natAbs_natCast n
  | true => exact (Int.natAbs_neg n).trans (Int.natAbs_natCast n)

theorem decide_withSign {negative : Bool} {n : Nat} (nonzero : withSign negative (n : Int) ≠ 0) :
    decide (withSign negative (n : Int) < 0) = negative := by
  cases negative with
  | false => exact decide_eq_false (Int.not_lt.mpr (Int.natCast_nonneg n))
  | true =>
    change -(n : Int) ≠ 0 at nonzero
    have less : -(n : Int) < 0 := by omega
    exact decide_eq_true less

theorem numerator_div_denominator (m : Nat) (q : Int) :
    (numerator m q : ℚ) / denominator q = m * 2 ^ q := by
  cases q with
  | ofNat k => simp [numerator, denominator]
  | negSucc k => simp [numerator, denominator, div_eq_mul_inv]

theorem exact_of_isFinite {x : Float} (finite : x.isFinite = true) :
    ∃ negative m q, exact x = .finite negative m q := by
  change x.toModel.unpack.isFinite = true at finite
  unfold exact
  cases unpacked : x.toModel.unpack with
  | notANumber | infinity =>
    rw [unpacked] at finite
    cases finite
  | zero | finite => exact ⟨_, _, _, rfl⟩

theorem value_of_exact {x : Float} {negative : Bool} {m : Nat} {q : Int}
    (parts : exact x = .finite negative m q) : value x = withSign negative (m * 2 ^ q : ℚ) := by
  rw [value, parts]

theorem value_of_integer {x : Float} {k : Int} (whole : integer? x = some k) : value x = k := by
  unfold integer? at whole
  split at whole
  · rename_i negative m q parts
    split at whole
    · rename_i divides
      have quotient : ((numerator m q / denominator q : ℕ) : ℚ) = m * 2 ^ q := by
        rw [Nat.cast_div (Nat.dvd_of_mod_eq_zero divides)
          (Nat.cast_ne_zero.mpr (denominator_pos q).ne'), numerator_div_denominator]
      cases whole
      rw [value_of_exact parts, ← quotient]
      cases negative <;> simp [withSign, -Int.natCast_ediv]
    · cases whole
  · cases whole

theorem nearestEven_toPlaces (places m : Nat) (q : Int) :
    NearestEven (m * 2 ^ q * 10 ^ places) (toPlaces places m q : ℕ) := by
  have scaled : ((numerator m q * 10 ^ places : ℕ) : ℚ) / denominator q =
      m * 2 ^ q * 10 ^ places := by
    rw [← numerator_div_denominator]
    push_cast
    ring
  rw [← scaled]
  exact nearestEven_roundHalfEven _ (denominator_pos q)

theorem nearestEven_of_exact {x : Float} {negative : Bool} {m : Nat} {q : Int} (places : Nat)
    (parts : exact x = .finite negative m q) :
    NearestEven (value x * 10 ^ places) (withSign negative (toPlaces places m q : ℤ)) := by
  rw [value_of_exact parts, withSign_mul]
  exact (nearestEven_toPlaces places m q).withSign negative

/-! ## The value of a text -/

theorem isDigit_toDigits (n : Nat) : ∀ d ∈ Nat.toDigits 10 n, d.isDigit = true :=
  fun _ => Nat.isDigit_of_mem_toDigits (by decide) (by decide)

theorem no_point_in_digits {ds : List Char} (digits : ∀ d ∈ ds, d.isDigit = true) : '.' ∉ ds :=
  fun point => Bool.noConfusion (digits _ point)

theorem before_point {ds : List Char} (digits : ∀ d ∈ ds, d.isDigit = true) :
    ∀ d ∈ ds, decide (d ≠ '.') = true :=
  fun _ member => decide_eq_true (ne_of_mem_of_not_mem member (no_point_in_digits digits))

theorem numeralValue_point {ds : List Char} (digits : ∀ d ∈ ds, d.isDigit = true)
    (fs : List Char) :
    numeralValue (ds ++ '.' :: fs) = Nat.ofDigitChars 10 (ds ++ fs) 0 / 10 ^ fs.length := by
  have before := before_point digits
  rw [numeralValue, List.takeWhile_append_of_pos before, List.dropWhile_append_of_pos before]
  simp

theorem numeralValue_digits {ds : List Char} (digits : ∀ d ∈ ds, d.isDigit = true) :
    numeralValue ds = Nat.ofDigitChars 10 ds 0 := by
  have before := before_point digits
  rw [numeralValue, List.takeWhile_eq_self_iff.mpr before, List.dropWhile_eq_nil_iff.mpr before]
  simp

theorem numeralValue_toDigits (n : Nat) : numeralValue (Nat.toDigits 10 n) = n := by
  rw [numeralValue_digits (isDigit_toDigits n), Nat.ofDigitChars_toDigits (by decide) (by decide)]

theorem ofDigitChars_zeros (n : Nat) (cs : List Char) :
    Nat.ofDigitChars 10 (zeros n ++ cs) 0 = Nat.ofDigitChars 10 cs 0 := by
  rw [Nat.ofDigitChars_append, zeros, Nat.ofDigitChars_replicate_zero, Nat.mul_zero]

theorem pointed_eq_append {places : Nat} (some : places ≠ 0) (n : Nat) :
    ∃ ds fs, Number.pointed places n = ds ++ '.' :: fs ∧ ds ≠ [] ∧
      (∀ d ∈ ds, d.isDigit = true) ∧ (∀ d ∈ fs, d.isDigit = true) ∧ fs.length = places ∧
      Nat.ofDigitChars 10 (ds ++ fs) 0 = n := by
  let padded := zeros (places + 1 - (Nat.toDigits 10 n).length) ++ Nat.toDigits 10 n
  have digits : ∀ d ∈ padded, d.isDigit = true := by
    intro d member
    rcases List.mem_append.mp member with zero | digit
    · rw [List.eq_of_mem_replicate zero]
      rfl
    · exact isDigit_toDigits n d digit
  have long : places < padded.length := by
    simp only [padded, zeros, List.length_append, List.length_replicate]
    omega
  refine ⟨padded.take (padded.length - places), padded.drop (padded.length - places), ?_, ?_,
    fun d member => digits d (List.mem_of_mem_take member),
    fun d member => digits d (List.mem_of_mem_drop member), ?_, ?_⟩
  · exact if_neg some
  · apply List.ne_nil_of_length_pos
    rw [List.length_take]
    omega
  · rw [List.length_drop]
    omega
  · rw [List.take_append_drop, ofDigitChars_zeros,
      Nat.ofDigitChars_toDigits (by decide) (by decide)]

theorem decimalValue_signed (negative : Bool) {c : Char} (digit : c.isDigit = true)
    (cs : List Char) :
    decimalValue (signed negative (c :: cs)) = withSign negative (numeralValue (c :: cs)) := by
  cases negative with
  | true => rfl
  | false =>
    change decimalValue (c :: cs) = numeralValue (c :: cs)
    unfold decimalValue
    split
    · rename_i same
      rw [(List.cons.inj same).1] at digit
      cases digit
    · rfl

end SolidScript.Proofs
