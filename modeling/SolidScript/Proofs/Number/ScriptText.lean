import Mathlib.Data.List.DropRight
import SolidScript.Proofs.Number.Decimal
import SolidScript.Proofs.Scanning.Layout

namespace SolidScript

inductive PlainDecimal : List Char → Prop where
  | whole {ds : List Char} (nonempty : ds ≠ []) (digits : ∀ d ∈ ds, d.isDigit = true) :
    PlainDecimal ds
  | pointed {ds fs : List Char} (nonempty : ds ≠ []) (digits : ∀ d ∈ ds, d.isDigit = true)
    (fraction : fs ≠ []) (places : ∀ d ∈ fs, d.isDigit = true) : PlainDecimal (ds ++ '.' :: fs)

def trimmed (ds fs : List Char) : List Char :=
  if fs.rdropWhile (· = '0') = [] then ds else ds ++ '.' :: fs.rdropWhile (· = '0')

namespace Proofs
open Number Lexical

/-! ## Plain decimals -/

theorem plainDecimal_toDigits (n : Nat) : PlainDecimal (Nat.toDigits 10 n) :=
  .whole Nat.toDigits_ne_nil (isDigit_toDigits n)

theorem spells_plainDecimal {cs : List Char} (decimal : PlainDecimal cs) :
    Spells cs (.number (String.ofList cs)) := by
  cases decimal with
  | whole nonempty digits => exact .whole nonempty digits
  | pointed nonempty digits _ places => exact .pointed nonempty digits places

theorem scan_plainDecimal {cs : List Char} (decimal : PlainDecimal cs) :
    scan (String.ofList cs) = .ok ⟨[⟨.number (String.ofList cs), .start⟩], place cs⟩ := by
  rw [scan, String.toList_ofList]
  exact splits_scanFrom (splits_spelled (spells_plainDecimal decimal) [])

theorem plainDecimal_ends {cs : List Char} (decimal : PlainDecimal cs) :
    (∃ c rest, cs = c :: rest ∧ c.isDigit = true) ∧
      ∃ rest c, cs = rest ++ [c] ∧ c.isDigit = true := by
  have first {ds : List Char} (nonempty : ds ≠ []) (digits : ∀ d ∈ ds, d.isDigit = true) :
      ∃ c rest, ds = c :: rest ∧ c.isDigit = true := by
    obtain ⟨c, rest, rfl⟩ := List.exists_cons_of_ne_nil nonempty
    exact ⟨c, rest, rfl, digits c List.mem_cons_self⟩
  have last {ds : List Char} (nonempty : ds ≠ []) (digits : ∀ d ∈ ds, d.isDigit = true) :
      ∃ rest c, ds = rest ++ [c] ∧ c.isDigit = true :=
    ⟨_, _, (List.dropLast_concat_getLast nonempty).symm, digits _ (List.getLast_mem nonempty)⟩
  cases decimal with
  | whole nonempty digits => exact ⟨first nonempty digits, last nonempty digits⟩
  | pointed nonempty digits fraction places =>
    obtain ⟨c, rest, rfl, digit⟩ := first nonempty digits
    obtain ⟨rest', c', rfl, digit'⟩ := last fraction places
    exact ⟨⟨c, _, List.cons_append, digit⟩, ⟨c :: rest ++ '.' :: rest', c', by simp, digit'⟩⟩

theorem plainDecimal_chars {cs : List Char} (decimal : PlainDecimal cs) :
    ∀ c ∈ cs, c.isDigit = true ∨ c = '.' := by
  cases decimal with
  | whole _ digits => exact fun c member => .inl (digits c member)
  | pointed _ digits _ places =>
    intro c member
    rcases List.mem_append.mp member with before | after
    · exact .inl (digits c before)
    · exact (List.mem_cons.mp after).elim .inr fun place => .inl (places c place)

theorem mem_signed {c : Char} (other : c ≠ '-') (negative : Bool) (cs : List Char) :
    c ∈ signed negative cs ↔ c ∈ cs := by
  cases negative with
  | false => rfl
  | true => exact List.mem_cons.trans (or_iff_right other)

theorem getLast?_signed (negative : Bool) {cs : List Char} (nonempty : cs ≠ []) :
    (signed negative cs).getLast? = cs.getLast? := by
  cases negative with
  | false => rfl
  | true => exact List.getLast?_cons_of_ne_nil nonempty

/-! ## Trailing zeros -/

theorem dropTrailing_point (front : List Char) {fs : List Char}
    (places : ∀ d ∈ fs, d.isDigit = true) :
    dropTrailing (front ++ '.' :: fs) = trimmed front fs := by
  unfold dropTrailing trimmed List.rdropWhile
  rw [List.reverse_append, List.reverse_cons, List.append_assoc, List.dropWhile_append]
  cases kept : fs.reverse.dropWhile (· = '0') with
  | nil => simp
  | cons c cs =>
    have digit : c.isDigit = true := by
      apply places
      rw [← List.mem_reverse]
      exact (List.dropWhile_sublist _).subset (by rw [kept]; exact List.mem_cons_self)
    have noPoint : c ≠ '.' := by
      rintro rfl
      cases digit
    simp [noPoint]

theorem dropTrailing_signed (negative : Bool) (ds : List Char) {fs : List Char}
    (places : ∀ d ∈ fs, d.isDigit = true) :
    dropTrailing (signed negative (ds ++ '.' :: fs)) = signed negative (trimmed ds fs) := by
  have before (cs : List Char) : signed negative (ds ++ cs) = signed negative ds ++ cs := by
    cases negative <;> rfl
  rw [before, dropTrailing_point _ places, trimmed, trimmed]
  split
  · rfl
  · exact (before _).symm

section
variable {ds fs : List Char} (digits : ∀ d ∈ ds, d.isDigit = true)
include digits

theorem plainDecimal_trimmed (nonempty : ds ≠ []) (places : ∀ d ∈ fs, d.isDigit = true) :
    PlainDecimal (trimmed ds fs) := by
  rw [trimmed]
  split
  · exact .whole nonempty digits
  · rename_i kept
    exact .pointed nonempty digits kept fun d member =>
      places d ((List.rdropWhile_prefix _ fs).subset member)

theorem trimmed_last (point : '.' ∈ trimmed ds fs) : (trimmed ds fs).getLast? ≠ some '0' := by
  rw [trimmed] at point ⊢
  split at point
  · exact absurd point (no_point_in_digits digits)
  · rename_i kept
    rw [if_neg kept, List.getLast?_append_cons, List.getLast?_cons_of_ne_nil kept,
      List.getLast?_eq_some_getLast kept]
    intro zero
    exact List.rdropWhile_last_not _ _ kept (decide_eq_true (Option.some.inj zero))

theorem numeralValue_trimmed :
    numeralValue (trimmed ds fs) = Nat.ofDigitChars 10 (ds ++ fs) 0 / 10 ^ fs.length := by
  obtain ⟨n, parts⟩ : ∃ n, fs.rdropWhile (· = '0') ++ List.replicate n '0' = fs := by
    have zeros : ∀ c ∈ fs.rtakeWhile (· = '0'), c = '0' := fun c member =>
      of_decide_eq_true (@List.mem_rtakeWhile_imp _ (· = '0') _ _ member)
    refine ⟨(fs.rtakeWhile (· = '0')).length, ?_⟩
    rw [← List.eq_replicate_of_mem zeros]
    exact List.rdropWhile_append_rtakeWhile
  have cut : numeralValue (trimmed ds fs) =
      Nat.ofDigitChars 10 (ds ++ fs.rdropWhile (· = '0')) 0 /
        10 ^ (fs.rdropWhile (· = '0')).length := by
    rw [trimmed]
    split
    · rename_i none
      simp [none, numeralValue_digits digits]
    · exact numeralValue_point digits _
  rw [cut]
  generalize fs.rdropWhile (· = '0') = kept at parts
  have shifted :
      Nat.ofDigitChars 10 (ds ++ fs) 0 = 10 ^ n * Nat.ofDigitChars 10 (ds ++ kept) 0 := by
    rw [← parts, ← List.append_assoc, Nat.ofDigitChars_append, Nat.ofDigitChars_replicate_zero]
  rw [shifted, ← parts, List.length_append, List.length_replicate, pow_add]
  push_cast
  field_simp

end

/-! ## Rounded decimals -/

structure SixPlaces (r : ℚ) (negative : Bool) (cs : List Char) : Prop where
  decimal : PlainDecimal cs
  tidy : '.' ∈ cs → cs.getLast? ≠ some '0'
  rounded : ∃ n : ℕ, numeralValue cs = n / 10 ^ 6 ∧
    NearestEven (r * 10 ^ 6) (withSign negative (n : ℤ))

theorem decimalValue_sixPlaces {r : ℚ} {negative : Bool} {cs : List Char}
    (written : SixPlaces r negative cs) :
    ∃ n : ℤ, decimalValue (signed negative cs) = n / 10 ^ 6 ∧ NearestEven (r * 10 ^ 6) n := by
  obtain ⟨n, numeral, nearest⟩ := written.rounded
  refine ⟨_, ?_, nearest⟩
  obtain ⟨⟨c, rest, rfl, digit⟩, -⟩ := plainDecimal_ends written.decimal
  rw [decimalValue_signed negative digit, numeral]
  cases negative <;> simp [withSign, neg_div]

theorem sixPlaces_integer (k : Int) :
    SixPlaces k (decide (k < 0)) (Nat.toDigits 10 k.natAbs) where
  decimal := plainDecimal_toDigits _
  tidy point := absurd point (no_point_in_digits (isDigit_toDigits _))
  rounded := by
    refine ⟨k.natAbs * 10 ^ 6, ?_, ?_⟩
    · rw [numeralValue_toDigits, Nat.cast_mul, Nat.cast_pow, Nat.cast_ofNat,
        mul_div_cancel_right₀ _ (by norm_num)]
    · rw [Nat.cast_mul, Nat.cast_pow, Nat.cast_ofNat, ← withSign_mul, withSign_natAbs]
      exact .of_places k 6

theorem sixPlaces_fixed {x : Float} {negative : Bool} {m : Nat} {q : Int}
    (parts : exact x = .finite negative m q) :
    ∃ cs, dropTrailing (fixedText 6 x) = signed negative cs ∧ SixPlaces (value x) negative cs := by
  obtain ⟨ds, fs, pointed, nonempty, digits, places, count, total⟩ :=
    @pointed_eq_append 6 (by decide) (toPlaces 6 m q)
  refine ⟨trimmed ds fs, ?_, plainDecimal_trimmed digits nonempty places, trimmed_last digits,
    toPlaces 6 m q, ?_, nearestEven_of_exact 6 parts⟩
  · rw [fixedText, parts]
    dsimp only
    rw [pointed, dropTrailing_signed _ _ places]
  · rw [numeralValue_trimmed digits, total, count]

theorem SixPlaces.unsigned {r : ℚ} (written : SixPlaces r true ['0']) :
    SixPlaces r false ['0'] := by
  obtain ⟨decimal, tidy, n, numeral, nearest⟩ := written
  have zero : n = 0 := by
    have quotient := (numeralValue_toDigits 0).symm.trans numeral
    rw [eq_comm, div_eq_iff (by norm_num), Nat.cast_zero, zero_mul] at quotient
    exact_mod_cast quotient
  subst zero
  exact ⟨decimal, tidy, 0, numeral, nearest⟩

/-! ## The text of a double -/

theorem scriptText_of_exact {x : Float} {negative : Bool} {m : Nat} {q : Int}
    (parts : exact x = .finite negative m q) :
    ∃ sign cs, scriptText x = signed sign cs ∧ SixPlaces (value x) sign cs := by
  unfold scriptText
  split
  · rename_i k whole
    rw [value_of_integer whole]
    exact ⟨_, _, rfl, sixPlaces_integer k⟩
  · obtain ⟨cs, text, written⟩ := sixPlaces_fixed parts
    dsimp only
    rw [text]
    split
    · rename_i zero
      cases negative with
      | false =>
        obtain ⟨⟨c, rest, rfl, digit⟩, -⟩ := plainDecimal_ends written.decimal
        cases zero
        cases digit
      | true =>
        have zero : cs = ['0'] := (List.cons.inj zero).2
        subst zero
        exact ⟨false, ['0'], rfl, written.unsigned⟩
    · exact ⟨negative, cs, rfl, written⟩

theorem scriptText_shape (x : Float) : ∃ negative cs,
    scriptText x = signed negative cs ∧
      (PlainDecimal cs ∨ cs = nanText ∨ cs = infiniteText false) := by
  cases parts : exact x with
  | nan =>
    refine ⟨false, _, ?_, .inr (.inl rfl)⟩
    simp only [scriptText, integer?, fixedText, parts]
    rfl
  | infinite negative =>
    refine ⟨negative, _, ?_, .inr (.inr rfl)⟩
    simp only [scriptText, integer?, fixedText, parts]
    cases negative <;> rfl
  | finite negative m q =>
    obtain ⟨sign, cs, text, written⟩ := scriptText_of_exact parts
    exact ⟨sign, cs, text, .inl written.decimal⟩

theorem scriptText_ne_minus_zero (x : Float) : scriptText x ≠ ['-', '0'] := by
  unfold scriptText
  split
  · rename_i k _
    unfold integerText signed
    split
    · rename_i negative
      intro same
      have size := congrArg (Nat.ofDigitChars 10 · 0) (List.cons.inj same).2
      rw [Nat.ofDigitChars_toDigits (by decide) (by decide)] at size
      have zero : k.natAbs = 0 := size
      have less : k < 0 := of_decide_eq_true negative
      omega
    · intro same
      have digit := isDigit_toDigits k.natAbs '-' (by rw [same]; exact List.mem_cons_self)
      cases digit
  · dsimp only
    split
    · decide
    · assumption

/-- The text of a finite double is one numeral, after a minus sign if need be. As a decimal it is
the value rounded to six places, half to even, and the value itself if that is whole. It has no
exponent, no point and no zero place at its end, and zero has no sign. -/
theorem scriptText_rounded_numeral {x : Float} (finite : x.isFinite = true) :
    (∃ negative numeral last, scriptText x = signed negative numeral ∧
      scan (String.ofList numeral) =
        .ok ⟨[⟨.number (String.ofList numeral), .start⟩], last⟩) ∧
    (∀ k : ℤ, value x = k → decimalValue (scriptText x) = k) ∧
    (∃ n : ℤ, decimalValue (scriptText x) = n / 10 ^ 6 ∧ NearestEven (value x * 10 ^ 6) n) ∧
    'e' ∉ scriptText x ∧ 'E' ∉ scriptText x ∧
    (scriptText x).getLast? ≠ some '.' ∧
    ('.' ∈ scriptText x → (scriptText x).getLast? ≠ some '0') ∧
    scriptText x ≠ ['-', '0'] := by
  obtain ⟨_, _, _, parts⟩ := exact_of_isFinite finite
  obtain ⟨negative, cs, text, written⟩ := scriptText_of_exact parts
  obtain ⟨n, rounded, nearest⟩ := decimalValue_sixPlaces written
  obtain ⟨-, rest, c, last, digit⟩ := plainDecimal_ends written.decimal
  have ending : (scriptText x).getLast? = some c := by
    rw [text, getLast?_signed negative (by simp [last]), last, List.getLast?_concat]
  have letters {c : Char} (letter : c.isDigit = false ∧ c ≠ '.' ∧ c ≠ '-') : c ∉ scriptText x := by
    rw [text, mem_signed letter.2.2]
    intro member
    rcases plainDecimal_chars written.decimal c member with digit | point
    · exact absurd (digit.symm.trans letter.1) (by decide)
    · exact letter.2.1 point
  refine ⟨⟨negative, cs, _, text, scan_plainDecimal written.decimal⟩, ?_,
    ⟨n, text ▸ rounded, nearest⟩, letters (by decide), letters (by decide), ?_, ?_,
    scriptText_ne_minus_zero x⟩
  · -- A whole value is its own rounding, and no other decimal is.
    intro k whole
    rw [whole] at nearest
    rw [text, rounded, nearest.unique (.of_places k 6), Int.cast_mul, Int.cast_pow, Int.cast_ofNat,
      mul_div_cancel_right₀ _ (by norm_num)]
  · rw [ending]
    rintro ⟨rfl⟩
    cases digit
  · rw [ending, text, mem_signed (by decide)]
    intro point
    have tidy := written.tidy point
    rwa [last, List.getLast?_concat] at tidy

theorem scriptText_half_place : (0.0078125 : Float).isFinite = true ∧
    scriptText 0.0078125 = "0.007812".toList ∧ NearestEven (value 0.0078125 * 10 ^ 6) 7812 := by
  have finite : (0.0078125 : Float).isFinite = true := by decide +kernel
  have text : scriptText 0.0078125 = "0.007812".toList := by decide +kernel
  obtain ⟨-, -, ⟨n, rounded, nearest⟩, -⟩ := scriptText_rounded_numeral finite
  have decimal : decimalValue "0.007812".toList = 7812 / 10 ^ 6 := by decide +kernel
  rw [text, decimal] at rounded
  have same : n = 7812 := by
    have : (n : ℚ) = 7812 := by linarith
    exact_mod_cast this
  exact ⟨finite, text, same ▸ nearest⟩

end Proofs

end SolidScript
