import SolidScript.Evaluation.Expression
import SolidScript.Proofs.Metadata
import SolidScript.Proofs.Number.ScriptText
import SolidScript.Proofs.Parsing.Layout

namespace SolidScript.Proofs
open Lexical Text Grammar

theorem gapless_of_digits {cs : List Char} (digits : ∀ c ∈ cs, c.isDigit = true) : Gapless cs := by
  intro c member
  have code := digit_code (digits c member)
  refine ⟨not_blank_of_code (by omega), ?_⟩
  rintro rfl
  exact absurd code.1 (by decide)

theorem gapless_append {cs ds : List Char} (first : Gapless cs) (second : Gapless ds) :
    Gapless (cs ++ ds) := by
  intro c member
  exact (List.mem_append.mp member).elim (first c) (second c)

theorem gapless_cons {c : Char} {cs : List Char} (first : isBlank c = false ∧ c ≠ '/')
    (others : Gapless cs) : Gapless (c :: cs) :=
  List.forall_mem_cons.mpr ⟨first, others⟩

theorem gapless_signed (negative : Bool) {cs : List Char} (gapless : Gapless cs) :
    Gapless (Number.signed negative cs) := by
  unfold Number.signed
  split
  · exact gapless_cons (by decide) gapless
  · exact gapless

theorem gapless_plainDecimal {cs : List Char} (decimal : PlainDecimal cs) : Gapless cs := by
  cases decimal with
  | whole _ digits => exact gapless_of_digits digits
  | pointed _ digits _ places =>
    exact gapless_append (gapless_of_digits digits)
      (gapless_cons (by decide) (gapless_of_digits places))

theorem gapless_scriptText (x : Float) : Gapless (Number.scriptText x) := by
  obtain ⟨negative, cs, same, shape⟩ := scriptText_shape x
  rw [same]
  apply gapless_signed
  rcases shape with decimal | rfl | rfl
  · exact gapless_plainDecimal decimal
  · simp [Gapless, Number.nanText]
    decide
  · simp [Gapless, Number.infiniteText]
    decide

theorem signed_derived (negative : Bool) {cs : List Char} {l : Lexeme} (spells : Spells cs l)
    {e : Expr} (value : ∀ p, Primary [⟨l, p⟩] e) :
    ∃ stream, Splits [] (Number.signed negative cs) stream ∧
      Unary stream.tokens (if negative then .negate e else e) := by
  have last := splits_spelled spells
  cases negative with
  | false => exact ⟨_, last [], .primary (value _)⟩
  | true =>
    have sign := @Splits.lexeme [] [] ['-'] cs (.symbol .minus) _ (.nil _)
      (@lexemeAt_plainSymbol .minus (by decide) cs) (last _)
    exact ⟨_, sign, .minus _ (.primary (value _))⟩

theorem scriptText_derived (x : Float) :
    ∃ stream e, Splits [] (Number.scriptText x) stream ∧ Unary stream.tokens e := by
  -- A number that is infinite or none has a name.
  obtain ⟨negative, cs, same, shape⟩ := scriptText_shape x
  obtain ⟨l, e, spells, value⟩ : ∃ l e, Spells cs l ∧ ∀ p, Primary [⟨l, p⟩] e := by
    rcases shape with decimal | rfl | rfl
    · exact ⟨_, _, spells_plainDecimal decimal, .number _⟩
    · exact ⟨.identifier "nan", .var "nan", .identifier (by decide) (List.all_eq_true.mp rfl),
        fun p => .var p (by decide) (by decide)⟩
    · exact ⟨.identifier "inf", .var "inf", .identifier (by decide) (List.all_eq_true.mp rfl),
        fun p => .var p (by decide) (by decide)⟩
  obtain ⟨stream, splits, derived⟩ := signed_derived negative spells value
  exact ⟨stream, _, same ▸ splits, derived⟩

/-- The text of a number is one numeral with its value, or a minus sign and the numeral of its
opposite. -/
def ReadsBack (x : Float) : Prop :=
  ∃ stream numeral, scan (String.ofList (Number.scriptText x)) = .ok stream ∧
    ((stream.tokens.map Token.lexeme = [.number numeral] ∧
      Number.ofNumeral numeral.toList = x) ∨
    (stream.tokens.map Token.lexeme = [.symbol .minus, .number numeral] ∧
      -Number.ofNumeral numeral.toList = x))

theorem isFinite_of_neg {x : Float} (finite : (-x).isFinite = true) : x.isFinite = true := by
  have opposite : (-x).isFinite = (Float.Model.pack x.toModel.unpack.neg).unpack.isFinite := rfl
  rw [opposite] at finite
  change x.toModel.unpack.isFinite = true
  cases unpacked : x.toModel.unpack with
  | notANumber =>
    rw [unpacked] at finite
    exact absurd finite (by decide +kernel)
  | infinity sign =>
    rw [unpacked] at finite
    cases sign <;> exact absurd finite (by decide +kernel)
  | zero sign => rfl
  | finite sign significand exponent positive => rfl

def Denotes (e : Expr) (x : Float) : Prop := ∀ scope : Scope, e.eval scope = .ok (.number x)

theorem denotes_number (x : Float) : Denotes (.number x) x := by
  intro scope
  rw [Expr.eval]

theorem denotes_negate {x : Float} (finite : x.isFinite = true) :
    Denotes (.negate (.number x)) (-x) := by
  intro scope
  simp [Expr.eval, Value.asNumber, Value.toNumber?, finite]

theorem readsBack_derived {x : Float} (finite : x.isFinite = true) (readable : ReadsBack x) :
    ∃ stream e, Splits [] (Number.scriptText x) stream ∧ Unary stream.tokens e ∧ Denotes e x := by
  obtain ⟨stream, numeral, scanned, shape⟩ := readable
  rw [scan, String.toList_ofList] at scanned
  have splits : Splits [] (Number.scriptText x) stream := (@scanFrom_eq_ok_iff [] _ _).mp scanned
  rcases shape with ⟨lexemes, value⟩ | ⟨lexemes, value⟩
  · obtain ⟨⟨l, p⟩, tokens, rfl⟩ := List.map_eq_singleton_iff.mp lexemes
    subst value
    refine ⟨stream, _, splits, ?_, denotes_number _⟩
    rw [tokens]
    exact .primary (.number numeral p)
  · obtain ⟨⟨l, p⟩, rest, tokens, rfl, lexemes⟩ := List.map_eq_cons_iff.mp lexemes
    obtain ⟨⟨l, q⟩, rfl, rfl⟩ := List.map_eq_singleton_iff.mp lexemes
    subst value
    refine ⟨stream, _, splits, ?_, denotes_negate (isFinite_of_neg finite)⟩
    rw [tokens]
    exact .minus p (.primary (.number numeral q))

def assignmentLine (entry : String × Float) : List Char :=
  entry.1.toList ++ ' ' :: '=' :: ' ' :: (Number.scriptText entry.2 ++ [';'])

/-- A name that an assignment can give a value. -/
def Assignable (name : String) : Prop := Spells name.toList (.identifier name) ∧ name ≠ "for"

theorem name_start {name : String} (named : Spells name.toList (.identifier name)) :
    ∃ c cs, name.toList = c :: cs ∧ isNameStart c = true := by
  cases letters : name.toList with
  | nil => exact absurd letters (spells_ne_nil named)
  | cons c cs =>
    rw [letters] at named
    rcases spells_cases named with ⟨_, number⟩ | ⟨start, _⟩ | ⟨_, _, _, symbol⟩
    · cases number
    · exact ⟨c, cs, rfl, start⟩
    · cases symbol

theorem scanFrom_key {name : String} (named : Spells name.toList (.identifier name))
    (before later : List Char) :
    ∃ p q, scanFrom (place before) (name.toList ++ ' ' :: '=' :: ' ' :: later) =
      (scanFrom (place (before ++ (name.toList ++ [' ', '=', ' ']))) later).map
        (.prepend [.identifier name p, .symbol .equals q]) := by
  have space : isBlank ' ' = true := by decide
  have equals : LexemeAt ['='] (.symbol .equals) (' ' :: later) :=
    @lexemeAt_plainSymbol .equals (by decide) _
  have sign (p : Position) := @scanFrom_lexeme p _ _ _ equals
  simp only [List.cons_append, List.nil_append] at sign
  refine ⟨place before, ((place before).after name.toList).next ' ', ?_⟩
  rw [scanFrom_lexeme (lexemeAt_blank named space _), scanFrom_blank space, sign,
    scanFrom_blank space, place_append, Position.after_append]
  simp only [Position.after_cons, Position.after_nil]
  cases scanFrom _ later <;> rfl

theorem assignment_readsAt {name : String} {text : List Char} {stream : TokenStream} {e : Expr}
    (assignable : Assignable name) (gapless : Gapless text) (splits : Splits [] text stream)
    (derived : Unary stream.tokens e) (before : List Char) :
    ReadsAt before (name.toList ++ ' ' :: '=' :: ' ' :: (text ++ [';'])) [.assign name e] := by
  obtain ⟨move, moved⟩ := splits_relocate splits (before ++ (name.toList ++ [' ', '=', ' ']))
  obtain ⟨p, q, scanned⟩ := scanFrom_key assignable.1 before (text ++ [';'])
  rw [scanFrom_semicolon moved gapless, scanFrom] at scanned
  refine ⟨_, scanFrom_eq_ok_iff.mp scanned, ?_⟩
  have value : Sum (stream.relocate move).tokens e := .product (.unary (derived.relocate move))
  have statement := Statement.assign p q (stream.relocate move).finish assignable.2 value
  simpa [TokenStream.prepend] using Statements.cons statement .nil

theorem assignmentLine_reads {name : String} {x : Float} (assignable : Assignable name)
    (finite : x.isFinite = true) (readable : ReadsBack x) :
    ∃ e, Denotes e x ∧ ∀ before, ReadsAt before (assignmentLine (name, x)) [.assign name e] := by
  obtain ⟨stream, e, splits, derived, denotes⟩ := readsBack_derived finite readable
  exact ⟨e, denotes, assignment_readsAt assignable (gapless_scriptText x) splits derived⟩

theorem assignmentLine_silent {name : String} (named : Spells name.toList (.identifier name))
    (x : Float) (m : Metadata) : m.read (assignmentLine (name, x)) = .ok m := by
  have blankNewline : isBlank '\n' = true := by decide
  have oneLine : '\n' ∉ assignmentLine (name, x) := by
    intro member
    simp [assignmentLine] at member
    rcases member with letter | digit
    · rw [spells_not_blank named _ letter] at blankNewline
      contradiction
    · rw [(gapless_scriptText x _ digit).1] at blankNewline
      contradiction
  obtain ⟨c, cs, letters, start⟩ := name_start named
  have noBlank : isBlank c = false := nameChar_not_blank (by simp [isNameChar, start])
  have noSlash : c ≠ '/' := by
    rintro rfl
    exact absurd start (by decide)
  rw [read_of_one m oneLine, assignmentLine, letters, List.cons_append]
  obtain ⟨rest, trimmed⟩ := trim_cons_of_not_blank noBlank
    (cs ++ ' ' :: '=' :: ' ' :: (Number.scriptText x ++ [';']))
  have noMark : dropStart? Directive.mark (c :: rest) = none := by
    simp [Directive.mark, dropStart?, Ne.symm noSlash]
  simp only [Metadata.readLine, Directive.ofLine, trimmed, noMark]
  rfl

theorem read_onLines {lines : List (List Char)}
    (silent : ∀ line ∈ lines, ∀ m : Metadata, m.read line = .ok m) (m : Metadata)
    (last : List Char) : m.read (onLines lines last) = m.read last := by
  induction lines with
  | nil => rfl
  | cons line lines ih =>
    rw [List.forall_mem_cons] at silent
    rw [onLines, List.foldr_cons, read_newline, silent.1 m]
    exact ih silent.2

end SolidScript.Proofs
