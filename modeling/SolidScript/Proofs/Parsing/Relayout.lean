import Mathlib.Logic.Function.Basic
import SolidScript.Proofs.Parsing.Layout

namespace SolidScript

namespace Lexical
open Text

/-- A gap that is complete in itself: its line comments have their newline, and its block comments
their end mark. -/
inductive ClosedGap : List Char → Prop where
  | nil : ClosedGap []
  | blank {c : Char} {gap : List Char} (isBlank : isBlank c = true) (others : ClosedGap gap) :
    ClosedGap (c :: gap)
  | line {body gap : List Char} (oneLine : '\n' ∉ body) (others : ClosedGap gap) :
    ClosedGap ('/' :: '/' :: body ++ '\n' :: gap)
  | block {body gap : List Char} (unended : ¬ endMark <:+: body) (others : ClosedGap gap) :
    ClosedGap ('/' :: '*' :: body ++ endMark ++ gap)

/-- The text writes the words in order, each with a gap after it that starts with a blank; after the
last word there may be none. -/
inductive LaidOut : List Lexeme → List Char → Prop where
  | nil : LaidOut [] []
  | last (word : Lexeme) : LaidOut [word] word.text.toList
  | word {words : List Lexeme} {gap rest : List Char} (word : Lexeme) (closed : ClosedGap gap)
    (apart : ∃ c ∈ gap.head?, isBlank c = true) (others : LaidOut words rest) :
    LaidOut (word :: words) (word.text.toList ++ (gap ++ rest))

end Lexical

def TokenStream.places (stream : TokenStream) : List Position :=
  stream.tokens.map Token.position ++ [stream.finish]

def Position.Before (p q : Position) : Prop :=
  p.line < q.line ∨ p.line = q.line ∧ p.column < q.column

def SourceError.relocate (move : Position → Position) : SourceError → SourceError
  | .scan e => .scan (e.relocate move)
  | .parse e => .parse (e.relocate move)

namespace Proofs
open Lexical Text

/-! ## Gaps and words -/

theorem gap_of_closed {gap : List Char} (closed : ClosedGap gap) (rest : List Char) :
    Gap gap rest := by
  induction closed with
  | nil => exact .nil rest
  | blank blank others ih => exact .cons (.blank blank _) ih
  | @line body gap oneLine others ih =>
    refine .cons (.line oneLine fun c next => ?_) (.cons (.blank (by decide) _) ih)
    cases next
    rfl
  | @block body gap unended others ih =>
    refine .cons (.block (fun early => unended ?_) _) ih
    rcases List.infix_concat_iff.mp early with ending | inside
    · obtain ⟨start, same⟩ := ending
      have same : start ++ ['*'] ++ ['/'] = body ++ ['*'] := by simpa [endMark] using same
      cases (List.append_inj' same rfl).2
    · exact inside

theorem toList_text {spelling : List Char} {l : Lexeme} (spells : Spells spelling l) :
    l.text.toList = spelling := by
  cases spells with
  | whole | pointed | fraction | identifier => exact String.toList_ofList
  | symbol s => exact String.toList_singleton s.char

theorem spells_of_splits {before text : List Char} {stream : TokenStream}
    (splits : Splits before text stream) :
    ∀ t ∈ stream.tokens, Spells t.lexeme.text.toList t.lexeme := by
  induction splits with
  | finish => simp
  | lexeme skipped read others ih =>
    rw [List.forall_mem_cons]
    refine ⟨?_, ih⟩
    rw [toList_text read.spells]
    exact read.spells

theorem scanFrom_laidOut {words : List Lexeme} {text : List Char} (laid : LaidOut words text)
    (spelled : ∀ l ∈ words, Spells l.text.toList l) (p : Position) :
    ∃ stream, scanFrom p text = .ok stream ∧ stream.tokens.map Token.lexeme = words := by
  induction laid generalizing p with
  | nil => exact ⟨⟨[], p⟩, by rw [scanFrom], rfl⟩
  | last word =>
    have read := @scanFrom_lexeme p _ _ _ (lexemeAt_spelled (spelled word List.mem_cons_self))
    rw [List.append_nil, scanFrom] at read
    exact ⟨_, read, rfl⟩
  | @word words gap rest word closed apart others ih =>
    rw [List.forall_mem_cons] at spelled
    obtain ⟨w, next, blank⟩ := apart
    obtain ⟨later, rfl⟩ := List.head?_eq_some_iff.mp next
    have read := lexemeAt_blank spelled.1 blank (later ++ rest)
    obtain ⟨stream, scanned, same⟩ := ih spelled.2 ((p.after word.text.toList).after (w :: later))
    rw [List.cons_append, scanFrom_lexeme read, ← List.cons_append,
      scanFrom_skip (gap_of_closed closed rest), scanned]
    exact ⟨_, rfl, congrArg (word :: ·) same⟩

/-! ## Places -/

theorem position_before_next (p : Position) (c : Char) : p.Before (p.next c) := by
  by_cases newline : c = '\n'
  · exact .inl (by simp [Position.next, newline])
  · exact .inr (by simp [Position.next, newline])

theorem position_before_trans {p q r : Position} (first : p.Before q) (second : q.Before r) :
    p.Before r := by
  unfold Position.Before at *
  omega

theorem position_before_ne {p q : Position} (first : p.Before q) : p ≠ q := by
  rintro rfl
  unfold Position.Before at first
  omega

theorem position_before_after (p : Position) {cs : List Char} (nonempty : cs ≠ []) :
    p.Before (p.after cs) := by
  induction cs generalizing p with
  | nil => exact absurd rfl nonempty
  | cons c cs ih =>
    cases cs with
    | nil => exact position_before_next p c
    | cons d ds => exact position_before_trans (position_before_next p c) (ih (p.next c) (by simp))

theorem place_grows (before gap : List Char) :
    place (before ++ gap) = place before ∨ (place before).Before (place (before ++ gap)) := by
  cases gap with
  | nil => exact .inl (by rw [List.append_nil])
  | cons c cs =>
    rw [place_append]
    exact .inr (position_before_after _ (by simp))

theorem places_ordered {before text : List Char} {stream : TokenStream}
    (splits : Splits before text stream) :
    (∀ q ∈ stream.places, q = place before ∨ (place before).Before q) ∧
      stream.places.Pairwise Position.Before := by
  induction splits with
  | @finish before gap last =>
    refine ⟨fun q member => ?_, List.pairwise_singleton _ _⟩
    rw [List.mem_singleton.mp member]
    exact place_grows before gap
  | @lexeme before gap spelling rest l stream skipped read others ih =>
    obtain ⟨from_end, ordered⟩ := ih
    have onward : (place (before ++ gap)).Before (place (before ++ gap ++ spelling)) := by
      rw [place_append (before ++ gap)]
      exact position_before_after _ (spells_ne_nil read.spells)
    have later : ∀ q ∈ stream.places, (place (before ++ gap)).Before q := by
      intro q member
      rcases from_end q member with rfl | after
      · exact onward
      · exact position_before_trans onward after
    refine ⟨fun q member => ?_, .cons later ordered⟩
    rcases List.mem_cons.mp member with rfl | member
    · exact place_grows before gap
    · rcases place_grows before gap with same | grows
      · exact .inr (same ▸ later q member)
      · exact .inr (position_before_trans grows (later q member))

theorem exists_move {ps qs : List Position} (distinct : ps.Nodup) (same : ps.length = qs.length) :
    ∃ move : Position → Position, ps.map move = qs := by
  induction ps generalizing qs with
  | nil => exact ⟨id, (List.eq_nil_of_length_eq_zero same.symm).symm⟩
  | cons p ps ih =>
    cases qs with
    | nil => cases same
    | cons q qs =>
      rw [List.nodup_cons] at distinct
      obtain ⟨move, moved⟩ := ih distinct.2 (Nat.succ.inj same)
      refine ⟨Function.update move p q, ?_⟩
      have others : ps.map (Function.update move p q) = ps.map move :=
        List.map_congr_left fun r member => Function.update_of_ne (by grind) q move
      rw [List.map_cons, Function.update_self, others, moved]

theorem tokens_eq_of {ts us : List Token} (lexemes : ts.map Token.lexeme = us.map Token.lexeme)
    (places : ts.map Token.position = us.map Token.position) : ts = us := by
  induction ts generalizing us with
  | nil => exact (List.map_eq_nil_iff.mp lexemes.symm).symm
  | cons t ts ih =>
    cases us with
    | nil => cases lexemes
    | cons u us =>
      obtain ⟨l, p⟩ := t
      obtain ⟨l', p'⟩ := u
      obtain ⟨rfl, lexemes'⟩ := List.cons.inj lexemes
      obtain ⟨rfl, places'⟩ := List.cons.inj places
      rw [ih lexemes' places']

theorem exists_relocation {before text : List Char} {stream stream' : TokenStream}
    (splits : Splits before text stream)
    (same : stream'.tokens.map Token.lexeme = stream.tokens.map Token.lexeme) :
    ∃ move, stream' = stream.relocate move := by
  -- No two tokens of one stream stand at the same place.
  have distinct : stream.places.Nodup := (places_ordered splits).2.imp position_before_ne
  have length : stream.places.length = stream'.places.length := by
    have words := congrArg List.length same
    simp only [List.length_map] at words
    simp [TokenStream.places, words]
  obtain ⟨move, moved⟩ := exists_move distinct length
  simp only [TokenStream.places, List.map_append, List.map_map] at moved
  obtain ⟨tokens, finish⟩ := List.append_inj' moved rfl
  refine ⟨move, ?_⟩
  obtain ⟨ts', finish'⟩ := stream'
  have words : ts' = stream.tokens.map (Token.relocate move) := by
    refine tokens_eq_of ?_ ?_
    · rw [same, List.map_map]
      rfl
    · rw [← tokens, List.map_map]
      rfl
  rw [TokenStream.relocate, words, (List.cons.inj finish).1]

/-! ## Programs -/

theorem parse_relocate (move : Position → Position) (stream : TokenStream) :
    (stream.relocate move).parse =
      (stream.parse.map (Stmt.relocateAll move)).mapError (.relocate move) := by
  simp only [TokenStream.parse, TokenStream.relocate, parseStatements_moved]
  cases parseStatements stream.tokens with
  | ok program => rfl
  | error fault => exact congrArg Except.error (toError_relocate move stream.finish fault)

/-- However the words of a script are laid out anew, they are read as before: the same tokens at
other places, and the same program or the same fault, but for the places. -/
theorem relaid_script_reads_alike {source : String} {stream : TokenStream} {lead text : List Char}
    (scanned : scan source = .ok stream) (closed : ClosedGap lead)
    (laid : LaidOut (stream.tokens.map Token.lexeme) text) :
    ∃ move, scan (String.ofList (lead ++ text)) = .ok (stream.relocate move) ∧
      parseProgram (String.ofList (lead ++ text)) =
        ((parseProgram source).map (Stmt.relocateAll move)).mapError (.relocate move) := by
  have splits : Splits [] source.toList stream := scanFrom_eq_ok_iff.mp scanned
  have spelled : ∀ l ∈ stream.tokens.map Token.lexeme, Spells l.text.toList l := by
    intro l member
    obtain ⟨t, present, rfl⟩ := List.mem_map.mp member
    exact spells_of_splits splits t present
  obtain ⟨stream', scanned', same⟩ := scanFrom_laidOut laid spelled (Position.start.after lead)
  obtain ⟨move, rfl⟩ := exists_relocation splits same
  have relaid : scan (String.ofList (lead ++ text)) = .ok (stream.relocate move) := by
    rw [scan, String.toList_ofList, scanFrom_skip (gap_of_closed closed text), scanned']
  refine ⟨move, relaid, ?_⟩
  rw [parseProgram, parseProgram, relaid, scanned]
  refine (congrArg (Except.mapError SourceError.parse) (parse_relocate move stream)).trans ?_
  change _ = Except.mapError _ (Except.map _ (stream.parse.mapError SourceError.parse))
  cases stream.parse <;> rfl

def shortHalf : String := "x=a/b;"

def wideHalf : String := " x = a /*/*/ / // by\nb ;"

def halfTokens : List Token :=
  [.identifier "x" ⟨1, 1⟩, .symbol .equals ⟨1, 2⟩, .identifier "a" ⟨1, 3⟩, .symbol .slash ⟨1, 4⟩,
    .identifier "b" ⟨1, 5⟩, .symbol .semicolon ⟨1, 6⟩]

theorem wideHalf_reads_alike :
    ∃ move, scan wideHalf = .ok (TokenStream.relocate move ⟨halfTokens, ⟨1, 7⟩⟩) ∧
      parseProgram wideHalf =
        ((parseProgram shortHalf).map (Stmt.relocateAll move)).mapError (.relocate move) := by
  have scanned : scan shortHalf = .ok ⟨halfTokens, ⟨1, 7⟩⟩ := by decide +kernel
  have blank : isBlank ' ' = true := by decide
  have space : ClosedGap [' '] := .blank blank .nil
  have comment : ClosedGap [' ', '/', '*', '/', '*', '/', ' '] :=
    .blank blank (@ClosedGap.block ['/'] [' '] (by decide) space)
  have line : ClosedGap [' ', '/', '/', ' ', 'b', 'y', '\n'] :=
    .blank blank (@ClosedGap.line [' ', 'b', 'y'] [] (by decide) .nil)
  obtain ⟨text, laid, written⟩ : ∃ text, LaidOut (halfTokens.map Token.lexeme) text ∧
      String.ofList ([' '] ++ text) = wideHalf :=
    ⟨_, .word _ space ⟨' ', rfl, blank⟩ (.word _ space ⟨' ', rfl, blank⟩
      (.word _ comment ⟨' ', rfl, blank⟩ (.word _ line ⟨' ', rfl, blank⟩
      (.word _ space ⟨' ', rfl, blank⟩ (.last _))))), by decide +kernel⟩
  have relaid := relaid_script_reads_alike scanned space laid
  rwa [written] at relaid

end Proofs

end SolidScript
