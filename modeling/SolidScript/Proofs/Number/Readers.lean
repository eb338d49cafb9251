import Mathlib.Computability.RegularExpressions
import SolidScript.Proofs.Parsing.Relayout
import SolidScript.Proofs.Template.Assignment

namespace SolidScript

/-! ## The pattern -/

namespace Numeral
open RegularExpression (char)

def digit : RegularExpression Char := ("0123456789".toList.map char).sum

/-- Digits with a point among or after them, digits without a point, or digits after a point. -/
def decimal : RegularExpression Char :=
  digit * digit.star * (char '.' + 1) * digit.star + char '.' * (digit * digit.star)

def signedDecimal : RegularExpression Char := (char '+' + char '-' + 1) * decimal

end Numeral

namespace Proofs
open Lexical Text Number Numeral RegularExpression

/-! ## The pattern and the numerals -/

theorem mem_sum_chars {letters cs : List Char} :
    cs ∈ (letters.map char).sum.matches' ↔ ∃ c ∈ letters, cs = [c] := by
  induction letters with
  | nil => simp
  | cons c letters ih =>
    have single : cs ∈ (char c).matches' ↔ cs = [c] := Iff.rfl
    rw [List.map_cons, List.sum_cons, matches'_add, Language.mem_add, ih, single]
    exact (List.exists_mem_cons_iff (cs = [·]) c letters).symm

theorem isDigit_iff_mem {c : Char} : c.isDigit = true ↔ c ∈ "0123456789".toList := by
  constructor
  · intro digit
    obtain ⟨low, high⟩ := digit_code digit
    have digits : ∀ n : Fin 58, 48 ≤ n.val → Char.ofNat n ∈ "0123456789".toList := by decide
    have letter := digits ⟨c.toNat, by omega⟩ low
    rwa [Char.ofNat_toNat] at letter
  · intro member
    exact List.all_eq_true.mp (rfl : "0123456789".toList.all Char.isDigit = true) c member

theorem mem_digit {cs : List Char} : cs ∈ digit.matches' ↔ ∃ c, cs = [c] ∧ c.isDigit = true := by
  rw [digit, mem_sum_chars]
  simp only [isDigit_iff_mem, and_comm]

theorem mem_digits {cs : List Char} :
    cs ∈ digit.star.matches' ↔ ∀ c ∈ cs, c.isDigit = true := by
  rw [matches'_star, Language.mem_kstar]
  constructor
  · rintro ⟨pieces, rfl, digits⟩ c member
    obtain ⟨piece, present, inside⟩ := List.mem_flatten.mp member
    obtain ⟨d, rfl, digit⟩ := mem_digit.mp (digits piece present)
    rwa [List.mem_singleton.mp inside]
  · intro digits
    refine ⟨cs.map ([·]), ?_, fun piece present => ?_⟩
    · rw [← List.flatMap_def, List.flatMap_singleton']
    obtain ⟨c, member, rfl⟩ := List.mem_map.mp present
    exact mem_digit.mpr ⟨c, rfl, digits c member⟩

theorem mem_someDigits {cs : List Char} :
    cs ∈ (digit * digit.star).matches' ↔ cs ≠ [] ∧ ∀ c ∈ cs, c.isDigit = true := by
  rw [matches'_mul, Language.mem_mul]
  constructor
  · rintro ⟨first, single, rest, digits, rfl⟩
    obtain ⟨c, rfl, digit⟩ := mem_digit.mp single
    exact ⟨by simp, List.forall_mem_cons.mpr ⟨digit, mem_digits.mp digits⟩⟩
  · rintro ⟨nonempty, digits⟩
    obtain ⟨c, rest, rfl⟩ := List.exists_cons_of_ne_nil nonempty
    rw [List.forall_mem_cons] at digits
    exact ⟨[c], mem_digit.mpr ⟨c, rfl, digits.1⟩, rest, mem_digits.mpr digits.2, rfl⟩

theorem mem_decimal {cs : List Char} :
    cs ∈ decimal.matches' ↔ Spells cs (.number (String.ofList cs)) := by
  rw [decimal, matches'_add, Language.mem_add, matches'_mul, matches'_mul, Language.mem_mul]
  constructor
  · rintro (⟨front, front_matches, fs, places, rfl⟩ | fraction)
    · obtain ⟨ds, digits, point, optional, rfl⟩ := Language.mem_mul.mp front_matches
      obtain ⟨nonempty, digits⟩ := mem_someDigits.mp digits
      have places := mem_digits.mp places
      rcases optional with dot | none
      · obtain rfl : point = ['.'] := dot
        rw [List.append_assoc]
        exact .pointed nonempty digits places
      · obtain rfl : point = [] := none
        rw [List.append_nil]
        refine .whole (by simp [nonempty]) fun d member => ?_
        exact (List.mem_append.mp member).elim (digits d) (places d)
    · obtain ⟨point, dot, fs, places, rfl⟩ := Language.mem_mul.mp fraction
      obtain rfl : point = ['.'] := dot
      obtain ⟨nonempty, places⟩ := mem_someDigits.mp places
      exact .fraction nonempty places
  · intro spells
    generalize String.ofList cs = t at spells
    cases spells with
    | whole nonempty digits =>
      left
      rw [← List.append_nil cs]
      refine ⟨cs, ?_, [], mem_digits.mpr (by simp), rfl⟩
      rw [← List.append_nil cs]
      exact ⟨cs, mem_someDigits.mpr ⟨nonempty, digits⟩, [], .inr rfl, rfl⟩
    | @pointed ds fs nonempty digits places =>
      left
      rw [List.append_cons]
      exact ⟨_, ⟨ds, mem_someDigits.mpr ⟨nonempty, digits⟩, ['.'], .inl rfl, rfl⟩, fs,
        mem_digits.mpr places, rfl⟩
    | fraction nonempty places =>
      right
      exact ⟨['.'], rfl, _, mem_someDigits.mpr ⟨nonempty, places⟩, rfl⟩

/-! ## The scanner -/

theorem scan_number_iff {s : String} :
    (∃ finish, scan s = .ok ⟨[⟨.number s, .start⟩], finish⟩) ↔ Spells s.toList (.number s) := by
  constructor
  · rintro ⟨finish, scanned⟩
    have splits := (@scanFrom_eq_ok_iff [] _ _).mp scanned
    exact spells_of_splits splits _ (List.mem_singleton_self _)
  · intro spells
    exact ⟨_, splits_scanFrom (splits_spelled spells [])⟩

theorem mem_decimal_of_token {source : String} {stream : TokenStream}
    (scanned : scan source = .ok stream) {numeral : String} {p : Position}
    (token : ⟨.number numeral, p⟩ ∈ stream.tokens) : numeral.toList ∈ decimal.matches' := by
  have splits := (@scanFrom_eq_ok_iff [] _ _).mp scanned
  have spells : Spells numeral.toList (.number numeral) := spells_of_splits splits _ token
  rw [mem_decimal, String.ofList_toList]
  exact spells

/-! ## The grammar of decimals -/

def digitValue (d : Char) : Nat := d.toNat - '0'.toNat

theorem digit?_eq {c : Char} (ascii : c.toNat < 128) :
    digit? c = if c.isDigit then some (digitValue c) else none := by
  have all : ∀ n : Fin 128, digit? (Char.ofNat n) =
      if (Char.ofNat n).isDigit then some (digitValue (Char.ofNat n)) else none := by
    decide +kernel
  have same := all ⟨c.toNat, ascii⟩
  rwa [Char.ofNat_toNat] at same

theorem ascii_of_digit {c : Char} (digit : c.isDigit = true) : c.toNat < 128 := by
  have := digit_code digit
  omega

theorem spanDigits_eq {cs : List Char} (ascii : ∀ c ∈ cs, c.toNat < 128) :
    spanDigits cs = ((cs.takeWhile Char.isDigit).map digitValue, cs.dropWhile Char.isDigit) := by
  induction cs with
  | nil => rfl
  | cons c cs ih =>
    rw [List.forall_mem_cons] at ascii
    rw [spanDigits, digit?_eq ascii.1, ih ascii.2]
    cases digit : c.isDigit with
    | true =>
      rw [List.takeWhile_cons_of_pos digit, List.dropWhile_cons_of_pos digit]
      rfl
    | false =>
      have other : ¬ c.isDigit = true := by simp [digit]
      rw [List.takeWhile_cons_of_neg other, List.dropWhile_cons_of_neg other]
      rfl

section
variable {ds fs : List Char} (digits : ∀ d ∈ ds, d.isDigit = true)
include digits

theorem spanParts?_whole (nonempty : ds ≠ []) :
    spanParts? ds = some (ds.map digitValue, [], []) := by
  have ascii : ∀ d ∈ ds, d.toNat < 128 := fun d member => ascii_of_digit (digits d member)
  rw [spanParts?, spanDigits_eq ascii, List.takeWhile_eq_self_iff.mpr digits,
    List.dropWhile_eq_nil_iff.mpr digits]
  simp [nonempty]

theorem spanParts?_point (places : ∀ d ∈ fs, d.isDigit = true) (digit : ds ≠ [] ∨ fs ≠ []) :
    spanParts? (ds ++ '.' :: fs) = some (ds.map digitValue, fs.map digitValue, []) := by
  have asciiBefore : ∀ d ∈ ds, d.toNat < 128 := fun d member => ascii_of_digit (digits d member)
  have asciiAfter : ∀ d ∈ fs, d.toNat < 128 := fun d member => ascii_of_digit (places d member)
  have ascii : ∀ c ∈ ds ++ '.' :: fs, c.toNat < 128 := by
    intro c member
    rcases List.mem_append.mp member with before | rest
    · exact asciiBefore c before
    · rcases List.mem_cons.mp rest with rfl | after
      · decide
      · exact asciiAfter c after
  have noDigit : Char.isDigit '.' = false := by decide
  rw [spanParts?, spanDigits_eq ascii, List.takeWhile_append_of_pos digits,
    List.dropWhile_append_of_pos digits]
  simp only [List.takeWhile_cons, List.dropWhile_cons, noDigit, Bool.false_eq_true, if_false,
    List.append_nil, spanDigits_eq asciiAfter, List.takeWhile_eq_self_iff.mpr places,
    List.dropWhile_eq_nil_iff.mpr places]
  rcases digit with before | after
  · simp [before]
  · simp [after]

end

theorem spells_of_spanParts? {cs : List Char} (ascii : ∀ c ∈ cs, c.toNat < 128)
    {whole fraction : List Nat} (parts : spanParts? cs = some (whole, fraction, [])) :
    Spells cs (.number (String.ofList cs)) := by
  have same := List.takeWhile_append_dropWhile (p := Char.isDigit) (l := cs)
  have digits : ∀ d ∈ cs.takeWhile Char.isDigit, d.isDigit = true := fun _ => List.mem_takeWhile_imp
  rw [spanParts?, spanDigits_eq ascii] at parts
  generalize cs.takeWhile Char.isDigit = ds at *
  generalize cs.dropWhile Char.isDigit = after at *
  subst same
  split at parts
  · -- A point follows the first digits.
    rename_i whole' rest split
    obtain ⟨rfl, rfl⟩ := Prod.mk.inj split
    have asciiRest : ∀ c ∈ rest, c.toNat < 128 := fun c member => ascii c (by simp [member])
    rw [spanDigits_eq asciiRest] at parts
    dsimp only at parts
    split at parts
    · cases parts
    · rename_i digit
      simp only [Option.some.injEq, Prod.mk.injEq, List.dropWhile_eq_nil_iff] at parts
      obtain ⟨-, -, places⟩ := parts
      rw [List.takeWhile_eq_self_iff.mpr places] at digit
      cases ds with
      | nil => exact .fraction (by simpa using digit) places
      | cons d ds => exact .pointed (List.cons_ne_nil d ds) digits places
  · -- The digits are not followed by a point, so nothing may follow them.
    split at parts
    · cases parts
    · rename_i split digit
      obtain ⟨rfl, rfl⟩ := Prod.mk.inj split
      simp only [Option.some.injEq, Prod.mk.injEq] at parts
      obtain ⟨-, -, rfl⟩ := parts
      rw [List.append_nil]
      exact .whole (by simpa using digit) digits

section
variable {cs : List Char} {numeral : String} (spells : Spells cs (.number numeral))
include spells

theorem numeral_chars : ∀ c ∈ cs, c ∈ "0123456789.".toList := by
  have letter {c : Char} (digit : c.isDigit = true) : c ∈ "0123456789.".toList :=
    List.mem_append_left ['.'] (isDigit_iff_mem.mp digit)
  intro c member
  cases spells with
  | whole _ digits => exact letter (digits c member)
  | pointed _ digits places =>
    rcases List.mem_append.mp member with before | rest
    · exact letter (digits c before)
    · rcases List.mem_cons.mp rest with rfl | after
      · decide
      · exact letter (places c after)
  | fraction _ places =>
    rcases List.mem_cons.mp member with rfl | after
    · decide
    · exact letter (places c after)

theorem numeral_all {P : Char → Prop} [DecidablePred P]
    (all : "0123456789.".toList.all (fun c => P c) = true) : ∀ c ∈ cs, P c := fun c member =>
  of_decide_eq_true (List.all_eq_true.mp all c (numeral_chars spells c member))

theorem spanSign_numeral : spanSign cs = (false, cs) := by
  have noSign := numeral_all spells (P := fun c => c ≠ '-' ∧ c ≠ '+') (by decide)
  unfold spanSign
  split
  · exact absurd rfl (noSign '-' List.mem_cons_self).1
  · exact absurd rfl (noSign '+' List.mem_cons_self).2
  · rfl

theorem spanParts?_numeral : ∃ whole fraction, spanParts? cs = some (whole, fraction, []) ∧
    ofParts whole fraction 0 = ofNumeral cs := by
  have point {ds : List Char} (digits : ∀ d ∈ ds, d.isDigit = true) (fs : List Char) :
      ofParts (ds.map digitValue) (fs.map digitValue) 0 = ofNumeral (ds ++ '.' :: fs) := by
    have before := before_point digits
    rw [ofNumeral, List.takeWhile_append_of_pos before, List.dropWhile_append_of_pos before,
      List.takeWhile_cons_of_neg (by decide), List.dropWhile_cons_of_neg (by decide),
      List.append_nil]
    rfl
  cases spells with
  | whole nonempty digits =>
    have before := before_point digits
    refine ⟨_, _, spanParts?_whole digits nonempty, ?_⟩
    rw [ofNumeral, List.takeWhile_eq_self_iff.mpr before, List.dropWhile_eq_nil_iff.mpr before]
    rfl
  | pointed nonempty digits places =>
    exact ⟨_, _, spanParts?_point digits places (.inl nonempty), point digits _⟩
  | @fraction fs nonempty places =>
    have none : ∀ d ∈ [], Char.isDigit d = true := by simp
    exact ⟨_, _, spanParts?_point none places (.inr nonempty), point none fs⟩

theorem ofDecimal?_numeral : ofDecimal? cs = some (ofNumeral cs) := by
  obtain ⟨whole, fraction, parts, value⟩ := spanParts?_numeral spells
  rw [ofDecimal?, spanSign_numeral spells, ← value]
  simp only [parts]
  rfl

theorem ofDecimal?_sign (negative : Bool) :
    ofDecimal? ((if negative then '-' else '+') :: cs) =
      some (applySign negative (ofNumeral cs)) := by
  obtain ⟨whole, fraction, parts, value⟩ := spanParts?_numeral spells
  have sign : spanSign ((if negative then '-' else '+') :: cs) = (negative, cs) := by
    cases negative <;> rfl
  rw [ofDecimal?, sign, ← value]
  simp only [parts]

end

theorem spanSign_append (cs : List Char) :
    ∃ sign ∈ (char '+' + char '-' + 1).matches', sign ++ (spanSign cs).2 = cs := by
  unfold spanSign
  split
  · exact ⟨['-'], .inl (.inr rfl), rfl⟩
  · exact ⟨['+'], .inl (.inl rfl), rfl⟩
  · exact ⟨[], .inr rfl, rfl⟩

theorem mem_signedDecimal {cs : List Char} (ascii : ∀ c ∈ cs, c.toNat < 128) :
    cs ∈ signedDecimal.matches' ↔ (ofDecimal? cs).isSome = true := by
  rw [signedDecimal, matches'_mul, Language.mem_mul]
  constructor
  · rintro ⟨sign, optional, rest, pattern, rfl⟩
    have spells := mem_decimal.mp pattern
    rcases optional with (plus | minus) | none
    · obtain rfl : sign = ['+'] := plus
      exact Option.isSome_of_eq_some (ofDecimal?_sign spells false)
    · obtain rfl : sign = ['-'] := minus
      exact Option.isSome_of_eq_some (ofDecimal?_sign spells true)
    · obtain rfl : sign = [] := none
      exact Option.isSome_of_eq_some (ofDecimal?_numeral spells)
  · intro isNumber
    obtain ⟨sign, optional, whole⟩ := spanSign_append cs
    unfold ofDecimal? at isNumber
    generalize spanSign cs = split at isNumber whole
    obtain ⟨negative, magnitude⟩ := split
    subst whole
    have ascii' : ∀ c ∈ magnitude, c.toNat < 128 := fun c member =>
      ascii c (List.mem_append_right sign member)
    dsimp only at isNumber
    split at isNumber
    · rename_i parts
      exact ⟨sign, optional, _, mem_decimal.mpr (spells_of_spanParts? ascii' parts), rfl⟩
    · cases isNumber

/-! ## Conversion -/

theorem trimBy_eq_self {p : Char → Bool} {cs : List Char} (none : ∀ c ∈ cs, p c = false) :
    trimBy p cs = cs := by
  have kept {cs : List Char} (none : ∀ c ∈ cs, p c = false) : cs.dropWhile p = cs := by
    cases cs with
    | nil => rfl
    | cons c cs => exact List.dropWhile_cons_of_neg (by simp [none c List.mem_cons_self])
  rw [trimBy, kept none, kept fun c member => none c (List.mem_reverse.mp member),
    List.reverse_reverse]

theorem dropUnderscores?_eq_self {cs : List Char} (none : '_' ∉ cs) (afterDigit : Bool) :
    dropUnderscores? afterDigit cs = some cs := by
  fun_induction dropUnderscores? afterDigit cs with
  | case1 => rfl
  | case2 | case3 | case4 => exact absurd List.mem_cons_self none
  | case5 afterDigit c cs _ _ ih =>
    rw [ih fun later => none (List.mem_cons_of_mem c later), Option.map_some]

section
variable {cs : List Char} {numeral : String} (spells : Spells cs (.number numeral))
include spells

theorem named?_numeral : named? cs = none := by
  have letters := numeral_all spells (P := fun c => c.toLower ≠ 'i' ∧ c.toLower ≠ 'n') (by decide)
  obtain ⟨c, rest, rfl⟩ := List.exists_cons_of_ne_nil (spells_ne_nil spells)
  obtain ⟨notI, notN⟩ := letters c List.mem_cons_self
  unfold named?
  split
  · rename_i name
    exact absurd (List.cons.inj (String.ofList_injective name)).1 notI
  · rename_i name
    exact absurd (List.cons.inj (String.ofList_injective name)).1 notI
  · rename_i name
    exact absurd (List.cons.inj (String.ofList_injective name)).1 notN
  · rfl

theorem ofText?_numeral : ofText? cs = some (ofNumeral cs) := by
  obtain ⟨whole, fraction, parts, value⟩ := spanParts?_numeral spells
  have noMargin := numeral_all spells (P := (isMargin · = false)) (by decide)
  have noUnderscore : '_' ∉ cs := fun member => absurd (numeral_chars spells _ member) (by decide)
  rw [ofText?, trimBy_eq_self noMargin, dropUnderscores?_eq_self noUnderscore, ← value]
  change ofWhole? cs = _
  rw [ofWhole?, spanSign_numeral spells]
  simp only [named?_numeral spells, parts]
  rfl

end

/-! ## Numbers in a program -/

theorem fieldNumber_numeral {cs : List Char} {numeral : String}
    (spells : Spells cs (.number numeral)) : fieldNumber cs = ofNumeral cs := by
  rw [fieldNumber, ofDecimal?_numeral spells, Option.getD_some]

theorem fieldNumber_minus {cs : List Char} {numeral : String}
    (spells : Spells cs (.number numeral)) : fieldNumber ('-' :: cs) = -ofNumeral cs :=
  congrArg (Option.getD · nan) (ofDecimal?_sign spells true)

theorem parseProgram_assignment {name s source : String} (assignable : Assignable name)
    (spells : Spells s.toList (.number s)) (negative : Bool)
    (text : source.toList =
      name.toList ++ ' ' :: '=' :: ' ' :: (signed negative s.toList ++ [';'])) :
    parseProgram source =
      .ok [.assign name (if negative then .negate (.ofNumeral s) else .ofNumeral s)] := by
  have gapless : Gapless s.toList :=
    numeral_all spells (P := fun c => isBlank c = false ∧ c ≠ '/') (by decide)
  obtain ⟨stream, splits, derived⟩ := signed_derived negative spells (.number s)
  rw [parseProgram_eq_ok_iff, text]
  exact assignment_readsAt assignable (gapless_signed negative gapless) splits derived []

/-- Of ASCII texts, the scanner reads as one number exactly those that match the pattern of metadata
fields without its sign, and both readers give them the same value. After a minus sign the field has
the value of the expression with that sign, if it is finite. And what the scanner reads as a number
can always be converted. -/
theorem number_readers_agree {s : String} (ascii : ∀ c ∈ s.toList, c.toNat < 128) :
    ((∃ finish, scan s = .ok ⟨[⟨.number s, .start⟩], finish⟩) ↔ s.toList ∈ decimal.matches') ∧
    (s.toList ∈ signedDecimal.matches' ↔ (ofDecimal? s.toList).isSome = true) ∧
    (s.toList ∈ decimal.matches' →
      ofNumeral s.toList = fieldNumber s.toList ∧
      ((fieldNumber ('-' :: s.toList)).isFinite = true →
        Denotes (.negate (.ofNumeral s)) (fieldNumber ('-' :: s.toList))) ∧
      ∀ name, Assignable name →
        parseProgram (name ++ " = " ++ s ++ ";") = .ok [.assign name (.ofNumeral s)] ∧
        parseProgram (name ++ " = -" ++ s ++ ";") = .ok [.assign name (.negate (.ofNumeral s))]) ∧
    ∀ source stream, scan source = .ok stream →
      ∀ numeral p, ⟨.number numeral, p⟩ ∈ stream.tokens →
        numeral.toList ∈ decimal.matches' ∧
          ofText? numeral.toList = some (ofNumeral numeral.toList) := by
  have pattern : s.toList ∈ decimal.matches' ↔ Spells s.toList (.number s) := by
    rw [mem_decimal, String.ofList_toList]
  refine ⟨scan_number_iff.trans pattern.symm, mem_signedDecimal ascii, fun found => ?_,
    fun source stream scanned numeral p token => ?_⟩
  · have spells := pattern.mp found
    refine ⟨(fieldNumber_numeral spells).symm, fun finite => ?_, fun name assignable => ⟨?_, ?_⟩⟩
    · rw [fieldNumber_minus spells] at finite ⊢
      exact denotes_negate (isFinite_of_neg finite)
    · exact parseProgram_assignment assignable spells false (by simp [signed])
    · exact parseProgram_assignment assignable spells true (by simp [signed])
  · have found := mem_decimal_of_token scanned token
    exact ⟨found, ofText?_numeral (mem_decimal.mp found)⟩

theorem readers_of_trailing_point :
    (∀ c ∈ "12.".toList, c.toNat < 128) ∧ (∀ c ∈ "1.2.".toList, c.toNat < 128) ∧
      "12.".toList ∈ decimal.matches' ∧ "1.2.".toList ∉ decimal.matches' ∧ Assignable "w" ∧
      (fieldNumber "-12.".toList).isFinite = true ∧
      (∃ finish, scan "12." = .ok ⟨[⟨.number "12.", .start⟩], finish⟩) ∧
      (¬ ∃ finish, scan "1.2." = .ok ⟨[⟨.number "1.2.", .start⟩], finish⟩) ∧
      ofNumeral "12.".toList = fieldNumber "12.".toList ∧
      parseProgram "w = -12.;" = .ok [.assign "w" (.negate (.ofNumeral "12."))] ∧
      Denotes (.negate (.ofNumeral "12.")) (fieldNumber "-12.".toList) := by
  have ascii : ∀ c ∈ "12.".toList, c.toNat < 128 := by simp
  have ascii' : ∀ c ∈ "1.2.".toList, c.toNat < 128 := by simp
  have found : "12.".toList ∈ decimal.matches' := by decide +kernel
  have other : "1.2.".toList ∉ decimal.matches' := by decide +kernel
  have assignable : Assignable "w" :=
    ⟨.identifier (by decide) (List.all_eq_true.mp rfl), by decide⟩
  have finite : (fieldNumber "-12.".toList).isFinite = true := by decide +kernel
  obtain ⟨scanned, -, reads, -⟩ := number_readers_agree ascii
  obtain ⟨scanned', -⟩ := number_readers_agree ascii'
  obtain ⟨value, denotes, parses⟩ := reads found
  exact ⟨ascii, ascii', found, other, assignable, finite, scanned.mpr found, mt scanned'.mp other,
    value, (parses "w" assignable).2, denotes finite⟩

end Proofs

end SolidScript
