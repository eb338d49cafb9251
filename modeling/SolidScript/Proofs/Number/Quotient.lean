import SolidScript.Proofs.Number.Units

namespace SolidScript.Proofs
open Float.Model UnpackedFloat Number

/-! ## Rounding a magnitude -/

def surplus (n : Nat) : Nat := n.log2 - 52

def roundedQuotient (n d : Nat) : Nat :=
  roundHalfEven n (d * 2 ^ surplus (n / d)) * 2 ^ surplus (n / d)

theorem roundHalfEven_bounds (num den : Nat) :
    num / den ≤ roundHalfEven num den ∧ roundHalfEven num den ≤ num / den + 1 := by
  unfold roundHalfEven
  dsimp only
  repeat' split
  all_goals omega

theorem roundHalfEven_scale (num den : Nat) {scale : Nat} (pos : 0 < scale) :
    roundHalfEven (num * scale) (den * scale) = roundHalfEven num den := by
  unfold roundHalfEven
  dsimp only
  have less {a b : Nat} : a * scale < b * scale ↔ a < b := Nat.mul_lt_mul_right pos
  rw [Nat.mul_div_mul_right _ _ pos, Nat.mul_mod_mul_right, ← Nat.mul_assoc]
  simp only [less]

theorem roundHalfEven_one (num : Nat) : roundHalfEven num 1 = num := by
  simp [roundHalfEven, Nat.mod_one]

theorem roundHalfEven_nearest (num : Nat) {den : Nat} (pos : 0 < den) (q : Nat) :
    (((roundHalfEven num den * den : Nat) : Int) - num).natAbs ≤
      (((q * den : Nat) : Int) - num).natAbs := by
  obtain ⟨above, below⟩ := roundHalfEven_near num den pos
  generalize roundHalfEven num den = r at *
  rcases Nat.lt_trichotomy q r with less | rfl | more
  · have gap : q * den + den ≤ r * den := by
      rw [← Nat.succ_mul]
      exact Nat.mul_le_mul_right den less
    omega
  · exact le_rfl
  · have gap : r * den + den ≤ q * den := by
      rw [← Nat.succ_mul]
      exact Nat.mul_le_mul_right den more
    omega

theorem lt_of_surplus (n : Nat) : n < 2 ^ (53 + surplus n) := by
  refine Nat.lt_of_lt_of_le Nat.lt_log2_self (Nat.pow_le_pow_right (by decide) ?_)
  unfold surplus
  omega

theorem le_of_surplus {n : Nat} (long : 0 < surplus n) : 2 ^ (52 + surplus n) ≤ n := by
  have nonzero : n ≠ 0 := by
    rintro rfl
    cases long
  refine Nat.le_trans (Nat.pow_le_pow_right (by decide) ?_) (Nat.log2_self_le nonzero)
  unfold surplus at long ⊢
  omega

theorem digits_quotient (n d : Nat) : roundHalfEven n (d * 2 ^ surplus (n / d)) ≤ 2 ^ 53 := by
  have below : n / (d * 2 ^ surplus (n / d)) < 2 ^ 53 := by
    rw [← Nat.div_div_eq_div_mul, Nat.div_lt_iff_lt_mul (Nat.two_pow_pos _), ← Nat.pow_add]
    exact lt_of_surplus _
  have := (roundHalfEven_bounds n (d * 2 ^ surplus (n / d))).2
  omega

theorem whole_quotient {n d : Nat} (long : 0 < surplus (n / d)) :
    2 ^ 52 ≤ roundHalfEven n (d * 2 ^ surplus (n / d)) := by
  refine Nat.le_trans ?_ (roundHalfEven_bounds n (d * 2 ^ surplus (n / d))).1
  rw [← Nat.div_div_eq_div_mul, Nat.le_div_iff_mul_le (Nat.two_pow_pos _), ← Nat.pow_add]
  exact le_of_surplus long

theorem roundedQuotient_nearest (n : Nat) {d : Nat} (pos : 0 < d) {c j : Nat}
    (digits : c < 2 ^ 53) :
    (((roundedQuotient n d * d : Nat) : Int) - n).natAbs ≤
      (((c * 2 ^ j * d : Nat) : Int) - n).natAbs := by
  have multiple (q : Nat) := roundHalfEven_nearest n (Nat.mul_pos pos (Nat.two_pow_pos
    (surplus (n / d)))) q
  simp only [Nat.mul_comm d, ← Nat.mul_assoc] at multiple
  rw [roundedQuotient, Nat.mul_comm d]
  by_cases fine : j < surplus (n / d)
  · -- A multiple of a smaller place is below the least magnitude with the last place of this one.
    have least : 2 ^ (52 + surplus (n / d)) * d ≤ n :=
      (Nat.le_div_iff_mul_le pos).mp (le_of_surplus (Nat.zero_lt_of_lt fine))
    have nearer := multiple (2 ^ 52)
    rw [← Nat.pow_add] at nearer
    have below : c * 2 ^ j * d ≤ 2 ^ (52 + surplus (n / d)) * d := by
      refine Nat.mul_le_mul_right d ?_
      calc c * 2 ^ j ≤ 2 ^ 53 * 2 ^ j := Nat.mul_le_mul_right _ digits.le
        _ = 2 ^ (53 + j) := (Nat.pow_add ..).symm
        _ ≤ 2 ^ (52 + surplus (n / d)) := Nat.pow_le_pow_right (by decide) (by omega)
    omega
  · have coarse : c * 2 ^ j = c * 2 ^ (j - surplus (n / d)) * 2 ^ surplus (n / d) := by
      rw [Nat.mul_assoc, ← Nat.pow_add, Nat.sub_add_cancel (by omega)]
    rw [coarse]
    exact multiple _

/-! ## Rounding a mantissa -/

theorem log2_scaled_quotient {a d : Nat} (some : 0 < a / d) (k : Nat) :
    (a * 2 ^ k / d).log2 = (a / d).log2 + k := by
  have pos : 0 < d := by
    apply Nat.pos_of_ne_zero
    rintro rfl
    rw [Nat.div_zero] at some
    cases some
  have least : 2 ^ ((a / d).log2 + k) * d ≤ a * 2 ^ k := by
    rw [Nat.pow_add, Nat.mul_right_comm]
    exact Nat.mul_le_mul_right _ ((Nat.le_div_iff_mul_le pos).mp (Nat.log2_self_le some.ne'))
  have most : a * 2 ^ k < 2 ^ ((a / d).log2 + k + 1) * d := by
    rw [Nat.add_right_comm, Nat.pow_add, Nat.mul_right_comm]
    exact Nat.mul_lt_mul_of_pos_right ((Nat.div_lt_iff_lt_mul pos).mp Nat.lt_log2_self)
      (Nat.two_pow_pos k)
  have scaled := (Nat.le_div_iff_mul_le pos).mpr least
  rw [Nat.log2_eq_iff ((Nat.two_pow_pos _).trans_le scaled).ne']
  exact ⟨scaled, (Nat.div_lt_iff_lt_mul pos).mpr most⟩

theorem targetExponent_quotient {a d : Nat} {e : Int} (least : -1074 ≤ e)
    (some : 0 < a / d ∨ e = -1074) :
    Format.binary64.targetExponent (totalExponent (a / d) e) =
      surplus (a * 2 ^ (e + 1074).toNat / d) - 1074 := by
  rw [targetExponent_eq, surplus, totalExponent]
  rcases some with some | rfl
  · rw [log2_scaled_quotient some]
    omega
  · rw [Int.add_left_neg, Int.toNat_zero, Nat.pow_zero, Nat.mul_one]
    omega

def ofMantissa (s : Sign) (m : Nat) (e : Int) : UnpackedFloat :=
  if h : m = 0 then .zero s else .finite s m e (Nat.pos_of_ne_zero h)

theorem ofMantissa_pos {s : Sign} {m : Nat} {e : Int} (pos : 0 < m) :
    ofMantissa s m e = .finite s m e pos := dif_neg pos.ne'

theorem units_ofMantissa (s : Sign) (m : Nat) (e : Int) :
    units (ofMantissa s m e) = s.apply (m * 2 ^ (e + 1074).toNat : Nat) := by
  rcases Nat.eq_zero_or_pos m with rfl | pos
  · rw [Nat.zero_mul]
    cases s <;> rfl
  · rw [ofMantissa_pos pos, units]

theorem isDouble_ofMantissa (s : Sign) {m : Nat} {e : Int} (digits : m < 2 ^ 53)
    (least : -1074 ≤ e) (most : e ≤ 971) (normal : 2 ^ 52 ≤ m ∨ e = -1074) :
    IsDouble (ofMantissa s m e) := by
  rcases Nat.eq_zero_or_pos m with rfl | pos
  · exact .zero s
  · rw [ofMantissa_pos pos]
    exact .finite pos digits least most normal

def shiftOf (m : Nat) (e : Int) : Nat :=
  (Format.binary64.targetExponent (totalExponent m e) - e).toNat

theorem roundWithAccuracy_eq (s : Sign) (a : Nat) {d : Nat} (pos : 0 < d) (e : Int) :
    roundWithAccuracy .binary64 s (a / d) e (accuracyOfFraction (a % d) d) =
      let r := roundHalfEven a (d * 2 ^ shiftOf (a / d) e)
      let t := e + shiftOf (a / d) e
      ofMantissa s (r / 2 ^ shiftOf r t) (t + shiftOf r t) := by
  -- The quotient is shifted again if rounding gave it one more digit.
  have first := ((represents_quotient a pos).shiftRight pos (shiftOf (a / d) e)).rounded
  have second (r k : Nat) := shift_mantissa (ExtendedMantissa.mk r false false) k
  unfold roundWithAccuracy ofMantissa
  simp only [shiftToTargetExponent, shiftToExponent]
  rw [← first]
  simp only [← second]
  rfl

theorem carry_parts (s : Sign) {r : Nat} {t : Int} (digits : r ≤ 2 ^ 53) (least : -1074 ≤ t)
    (normal : 2 ^ 52 ≤ r ∨ t = -1074) :
    ∃ (c : Nat) (q : Int), ofMantissa s (r / 2 ^ shiftOf r t) (t + shiftOf r t) = ofMantissa s c q ∧
      c < 2 ^ 53 ∧ -1074 ≤ q ∧ (2 ^ 52 ≤ c ∨ q = -1074) ∧
      c * 2 ^ (q + 1074).toNat = r * 2 ^ (t + 1074).toNat := by
  rcases Nat.lt_or_eq_of_le digits with short | rfl
  · have fits : shiftOf r t = 0 := by
      have length := log2_lt_of_lt (by decide) short
      rw [shiftOf, targetExponent_eq, totalExponent]
      omega
    refine ⟨r, t, ?_, short, least, normal, rfl⟩
    rw [fits, Nat.pow_zero, Nat.div_one, Int.natCast_zero, Int.add_zero]
  · have excess : shiftOf (2 ^ 53) t = 1 := by
      rw [shiftOf, targetExponent_eq, totalExponent, Nat.log2_two_pow]
      omega
    refine ⟨2 ^ 52, t + 1, ?_, by decide, by omega, .inl le_rfl, ?_⟩
    · rw [excess]
      rfl
    · have next : (t + 1 + 1074).toNat = (t + 1074).toNat + 1 := by omega
      rw [next, Nat.pow_succ]
      ring

theorem quotient_parts (s : Sign) {a d : Nat} {e : Int} (pos : 0 < d) (least : -1074 ≤ e)
    (normal : 2 ^ 52 ≤ a / d ∨ e = -1074) :
    ∃ (c : Nat) (q : Int),
      roundWithAccuracy .binary64 s (a / d) e (accuracyOfFraction (a % d) d) = ofMantissa s c q ∧
      c < 2 ^ 53 ∧ -1074 ≤ q ∧ (2 ^ 52 ≤ c ∨ q = -1074) ∧
      c * 2 ^ (q + 1074).toNat = roundedQuotient (a * 2 ^ (e + 1074).toNat) d := by
  have target := targetExponent_quotient least
    (normal.imp_left (Nat.lt_of_lt_of_le (Nat.two_pow_pos 52)))
  have fits : e + 1074 ≤ surplus (a * 2 ^ (e + 1074).toNat / d) := by
    rcases normal with whole | rfl
    · have some : 0 < a / d := Nat.lt_of_lt_of_le (Nat.two_pow_pos 52) whole
      have long : 52 ≤ (a / d).log2 := (Nat.le_log2 some.ne').mpr whole
      rw [surplus, log2_scaled_quotient some]
      omega
    · omega
  generalize size : a * 2 ^ (e + 1074).toNat = n at target fits ⊢
  have place : e + shiftOf (a / d) e = (surplus (n / d) : Int) - 1074 := by
    rw [shiftOf, target]
    omega
  have unit : 2 ^ shiftOf (a / d) e * 2 ^ (e + 1074).toNat = 2 ^ surplus (n / d) := by
    rw [← Nat.pow_add]
    congr 1
    omega
  have mantissa : roundHalfEven a (d * 2 ^ shiftOf (a / d) e) =
      roundHalfEven n (d * 2 ^ surplus (n / d)) := by
    rw [← roundHalfEven_scale _ _ (Nat.two_pow_pos (e + 1074).toNat), size, Nat.mul_assoc, unit]
  have normal' : 2 ^ 52 ≤ roundHalfEven n (d * 2 ^ surplus (n / d)) ∨
      (surplus (n / d) : Int) - 1074 = -1074 := by
    rcases Nat.eq_zero_or_pos (surplus (n / d)) with short | long
    · right
      omega
    · exact .inl (whole_quotient long)
  rw [roundWithAccuracy_eq s a pos]
  simp only [mantissa, place]
  obtain ⟨c, q, carried, digits, least', normal'', value⟩ :=
    carry_parts s (digits_quotient n d) (by omega) normal'
  refine ⟨c, q, carried, digits, least', normal'', value.trans ?_⟩
  rw [Int.sub_add_cancel, Int.toNat_natCast, roundedQuotient]

/-! ## The nearest double -/

/-- The form of the double nearest to a quotient of units, or of an infinity if all finite doubles
are on the same side of it. -/
inductive NearestQuotient (num : Int) (den : Nat) : UnpackedFloat → Prop where
  | finite {f : UnpackedFloat} (double : IsDouble f) (nearest : ∀ g, IsDouble g →
      (units f * den - num).natAbs ≤ (units g * den - num).natAbs) : NearestQuotient num den f
  | above (beyond : ∀ g, IsDouble g → units g * den < num) :
      NearestQuotient num den (.infinity .positive)
  | below (beyond : ∀ g, IsDouble g → num < units g * den) :
      NearestQuotient num den (.infinity .negative)

theorem natAbs_units {f : UnpackedFloat} (double : IsDouble f) :
    ∃ c e, c < 2 ^ 53 ∧ -1074 ≤ e ∧ e ≤ 971 ∧ (units f).natAbs = c * 2 ^ (e + 1074).toNat := by
  cases double with
  | zero s => exact ⟨0, 0, by decide, by decide, by decide, (Nat.zero_mul _).symm⟩
  | @finite s m e pos digits least most normal =>
    refine ⟨m, e, digits, least, most, ?_⟩
    rw [units, natAbs_apply, Int.natAbs_natCast]

theorem unpack_pack_infinity {s : Sign} {c : Nat} {q : Int} (pos : 0 < c) (large : 971 < q) :
    (Float.Model.pack (.finite s c q pos)).unpack = .infinity s := by
  have above : 2 ^ 11 ≤ (q + 1023 + 52).toNat + 1 := by omega
  have packed : UnpackedFloat.pack .binary64 (.finite s c q pos) = packedInfinity .binary64 s :=
    if_pos above
  change UnpackedFloat.unpack .binary64 (UnpackedFloat.pack .binary64 _) = _
  rw [packed]
  cases s <;> rfl

theorem nearest_quotient (s : Sign) {a d : Nat} {e : Int} (pos : 0 < d) (least : -1074 ≤ e)
    (normal : 2 ^ 52 ≤ a / d ∨ e = -1074) :
    NearestQuotient (s.apply (a * 2 ^ (e + 1074).toNat : Nat)) d
      (Float.Model.pack (roundWithAccuracy .binary64 s (a / d) e
        (accuracyOfFraction (a % d) d))).unpack := by
  obtain ⟨c, q, form, digits, least', normal', value⟩ := quotient_parts s pos least normal
  generalize a * 2 ^ (e + 1074).toNat = n at value ⊢
  have nearest (g : UnpackedFloat) (double : IsDouble g) :
      (((roundedQuotient n d * d : Nat) : Int) - n).natAbs ≤
        (((units g * d).natAbs : Int) - n).natAbs := by
    obtain ⟨k, e, short, -, -, size⟩ := natAbs_units double
    rw [Int.natAbs_mul, Int.natAbs_natCast, size]
    exact roundedQuotient_nearest n pos short
  rw [form]
  by_cases most : q ≤ 971
  · have double := isDouble_ofMantissa s digits least' most normal'
    have same : units (ofMantissa s c q) * d = s.apply (roundedQuotient n d * d : Nat) := by
      rw [units_ofMantissa, value]
      cases s with
      | positive => exact (Int.natCast_mul ..).symm
      | negative =>
        rw [Sign.apply, Sign.apply, Int.neg_mul, Int.natCast_mul (roundedQuotient n d)]
    rw [unpack_pack double]
    refine .finite double fun g other => ?_
    have closer := nearest g other
    rw [same]
    cases s <;> simp only [Sign.apply] <;> omega
  · have some : 0 < c :=
      Nat.lt_of_lt_of_le (Nat.two_pow_pos 52) (normal'.resolve_right (by omega))
    rw [ofMantissa_pos some, unpack_pack_infinity some (by omega)]
    -- What is rounded to the range beyond the doubles is beyond them itself.
    have far (g : UnpackedFloat) (double : IsDouble g) : (units g * d).natAbs < n := by
      obtain ⟨k, e', short, least, low, size⟩ := natAbs_units double
      have below := magnitude_lt short least normal' (by omega : e' < q)
      rw [value, ← size] at below
      have below' : (units g * d).natAbs < roundedQuotient n d * d := by
        rw [Int.natAbs_mul, Int.natAbs_natCast]
        exact Nat.mul_lt_mul_of_pos_right below pos
      have closer := nearest g double
      omega
    cases s with
    | positive =>
      refine .above fun g double => ?_
      have := far g double
      simp only [Sign.apply]
      omega
    | negative =>
      refine .below fun g double => ?_
      have := far g double
      simp only [Sign.apply]
      omega

end SolidScript.Proofs
