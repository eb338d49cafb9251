import Mathlib.Data.List.Induction
import SolidScript.Token.Scan

/-!
# The lexical structure of scripts

A script is gaps and lexemes in turn. Which texts are gaps or lexemes is said here without a
scanner: a lexeme is the longest one at its place, a line comment ends before a newline or the end,
a block comment ends with the first mark that can end it. Places are counted in the text before.
-/

namespace SolidScript.Lexical
open Text

inductive Spells : List Char → Lexeme → Prop where
  | whole {ds : List Char} (nonempty : ds ≠ []) (digits : ∀ d ∈ ds, d.isDigit = true) :
    Spells ds (.number (String.ofList ds))
  | pointed {ds fs : List Char} (nonempty : ds ≠ []) (digits : ∀ d ∈ ds, d.isDigit = true)
    (places : ∀ d ∈ fs, d.isDigit = true) :
    Spells (ds ++ '.' :: fs) (.number (String.ofList (ds ++ '.' :: fs)))
  | fraction {fs : List Char} (nonempty : fs ≠ []) (places : ∀ d ∈ fs, d.isDigit = true) :
    Spells ('.' :: fs) (.number (String.ofList ('.' :: fs)))
  | identifier {c : Char} {cs : List Char} (start : isNameStart c = true)
    (name : ∀ d ∈ cs, isNameChar d = true) :
    Spells (c :: cs) (.identifier (String.ofList (c :: cs)))
  | symbol (s : Symbol) : Spells [s.char] (.symbol s)

def OpensComment (text : List Char) : Prop := ['/', '/'] <+: text ∨ ['/', '*'] <+: text

structure LexemeAt (spelling : List Char) (lexeme : Lexeme) (rest : List Char) : Prop where
  spells : Spells spelling lexeme
  longest : ∀ other l, Spells other l → other <+: spelling ++ rest → other.length ≤ spelling.length
  noComment : ¬ OpensComment (spelling ++ rest)

def endMark : List Char := ['*', '/']

/-- One piece of a gap, with what follows it in the script. -/
inductive Piece : List Char → List Char → Prop where
  | blank {c : Char} (isBlank : isBlank c = true) (rest : List Char) : Piece [c] rest
  | line {body rest : List Char} (oneLine : '\n' ∉ body) (ended : ∀ c ∈ rest.head?, c = '\n') :
    Piece ('/' :: '/' :: body) rest
  | block {body : List Char} (first : ¬ endMark <:+: body ++ ['*']) (rest : List Char) :
    Piece ('/' :: '*' :: body ++ endMark) rest

inductive Gap : List Char → List Char → Prop where
  | nil (rest : List Char) : Gap [] rest
  | cons {piece gap rest : List Char} (first : Piece piece (gap ++ rest)) (others : Gap gap rest) :
    Gap (piece ++ gap) rest

def place (before : List Char) : Position :=
  ⟨1 + before.count '\n', 1 + (before.reverse.takeWhile (· ≠ '\n')).length⟩

/-- The tokens and the end of a text that splits into gaps and lexemes. -/
inductive Splits : (before text : List Char) → TokenStream → Prop where
  | finish {before gap : List Char} (last : Gap gap []) :
    Splits before gap ⟨[], place (before ++ gap)⟩
  | lexeme {before gap spelling rest : List Char} {lexeme : Lexeme} {stream : TokenStream}
    (skipped : Gap gap (spelling ++ rest)) (read : LexemeAt spelling lexeme rest)
    (others : Splits (before ++ gap ++ spelling) rest stream) :
    Splits before (gap ++ (spelling ++ rest))
      ⟨⟨lexeme, place (before ++ gap)⟩ :: stream.tokens, stream.finish⟩

/-- The first fault of a text that does not split: a character that starts neither a gap nor a
lexeme, or a block comment that is not ended. -/
inductive Fails : (before text : List Char) → ScanError → Prop where
  | stray {before gap rest : List Char} {c : Char} (skipped : Gap gap (c :: rest))
    (noBlank : isBlank c = false) (noComment : ¬ OpensComment (c :: rest))
    (noLexeme : ∀ spelling l, Spells spelling l → ¬ spelling <+: c :: rest) :
    Fails before (gap ++ c :: rest) (.strayCharacter c (place (before ++ gap)))
  | openComment {before gap rest : List Char} (skipped : Gap gap ('/' :: '*' :: rest))
    (unended : ¬ endMark <:+: rest) :
    Fails before (gap ++ '/' :: '*' :: rest) (.openComment (place (before ++ gap)))
  | lexeme {before gap spelling rest : List Char} {lexeme : Lexeme} {e : ScanError}
    (skipped : Gap gap (spelling ++ rest)) (read : LexemeAt spelling lexeme rest)
    (others : Fails (before ++ gap ++ spelling) rest e) :
    Fails before (gap ++ (spelling ++ rest)) e

end SolidScript.Lexical
