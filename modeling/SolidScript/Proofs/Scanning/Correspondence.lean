import SolidScript.Proofs.Scanning.Front

namespace SolidScript.Proofs
open Lexical Text

theorem place_append_singleton (before : List Char) (c : Char) :
    place (before ++ [c]) = (place before).next c := by
  by_cases newline : c = '\n'
  · subst newline
    simp [place, Position.next, Nat.add_assoc]
  · simp [place, Position.next, newline, Nat.add_assoc]

theorem place_append (before cs : List Char) :
    place (before ++ cs) = (place before).after cs := by
  induction cs generalizing before with
  | nil => simp
  | cons c cs ih =>
    rw [List.append_cons, ih, place_append_singleton]
    rfl

theorem scanFrom_gap {p : Position} {c : Char} {cs skipped rest : List Char}
    (answer : front c cs = .gap skipped rest) :
    scanFrom p (c :: cs) = scanFrom (p.after skipped) rest := by
  rw [scanFrom]
  split <;> simp_all

theorem scanFrom_word {p : Position} {c : Char} {cs spelling rest : List Char} {l : Lexeme}
    (answer : front c cs = .lexeme l spelling rest) :
    scanFrom p (c :: cs) = (scanFrom (p.after spelling) rest).map fun stream =>
      { stream with tokens := ⟨l, p⟩ :: stream.tokens } := by
  rw [scanFrom]
  split <;> simp_all

theorem scanFrom_lexeme {p : Position} {spelling rest : List Char} {l : Lexeme}
    (read : LexemeAt spelling l rest) :
    scanFrom p (spelling ++ rest) = (scanFrom (p.after spelling) rest).map fun stream =>
      { stream with tokens := ⟨l, p⟩ :: stream.tokens } := by
  cases text : spelling ++ rest with
  | nil => exact absurd (List.append_eq_nil_iff.mp text).1 (spells_ne_nil read.spells)
  | cons c cs => exact scanFrom_word (front_of_lexeme read text)

theorem scanFrom_openComment {p : Position} {c : Char} {rest : List Char}
    (answer : front c rest = .openComment) :
    scanFrom p (c :: rest) = .error (.openComment p) := by
  rw [scanFrom]
  split <;> simp_all

theorem scanFrom_stray {p : Position} {c : Char} {rest : List Char}
    (answer : front c rest = .stray) :
    scanFrom p (c :: rest) = .error (.strayCharacter c p) := by
  rw [scanFrom]
  split <;> simp_all

theorem scanFrom_blanks (p : Position) (cs : List Char) :
    scanFrom (p.after (cs.takeWhile isBlank)) (cs.dropWhile isBlank) = scanFrom p cs := by
  cases cs with
  | nil => rfl
  | cons c cs =>
    by_cases blank : isBlank c = true
    · have answer : front c cs = .gap (c :: cs.takeWhile isBlank) (cs.dropWhile isBlank) := by
        simp [front, blank]
      rw [scanFrom_gap answer, List.takeWhile_cons_of_pos blank, List.dropWhile_cons_of_pos blank]
    · rw [List.takeWhile_cons_of_neg blank, List.dropWhile_cons_of_neg blank]
      rfl

theorem scanFrom_blank {c : Char} (blank : isBlank c = true) (p : Position) (cs : List Char) :
    scanFrom p (c :: cs) = scanFrom (p.next c) cs := by
  have answer : front c cs = .gap (c :: cs.takeWhile isBlank) (cs.dropWhile isBlank) := by
    simp [front, blank]
  rw [scanFrom_gap answer, Position.after_cons, scanFrom_blanks]

theorem scanFrom_piece {piece rest : List Char} (one : Piece piece rest) (p : Position) :
    scanFrom p (piece ++ rest) = scanFrom (p.after piece) rest := by
  cases one with
  | blank blank => exact scanFrom_blank blank p rest
  | @line body _ oneLine ended =>
    obtain ⟨taken, left⟩ := takeWhile_line oneLine ended
    refine scanFrom_gap ?_
    simp only [front, slash_not_blank, Bool.false_eq_true, if_false, if_true]
    simp only [ne_eq, decide_not] at taken left
    simp [taken, left]
  | @block body first =>
    have ended := spanComment?_of_first first rest
    rw [List.append_assoc] at ended
    refine scanFrom_gap ?_
    simp only [front, slash_not_blank, Bool.false_eq_true, if_false, if_true]
    simp [ended]

theorem scanFrom_skip {gap rest : List Char} (skipped : Gap gap rest) (p : Position) :
    scanFrom p (gap ++ rest) = scanFrom (p.after gap) rest := by
  induction skipped generalizing p with
  | nil => rfl
  | cons piece others ih => rw [List.append_assoc, scanFrom_piece piece, ih, Position.after_append]

def Describes (before text : List Char) : Except ScanError TokenStream → Prop
  | .ok stream => Splits before text stream
  | .error e => Fails before text e

theorem describes_skip {before gap rest : List Char} (skipped : Gap gap rest)
    {result : Except ScanError TokenStream} (later : Describes (before ++ gap) rest result) :
    Describes before (gap ++ rest) result := by
  cases result with
  | ok stream =>
    cases later with
    | @finish _ gap' last =>
      rw [List.append_assoc]
      exact .finish (gap_append (by simpa using skipped) last)
    | @lexeme _ gap' _ _ _ _ skipped' read others =>
      rw [List.append_assoc] at others ⊢
      rw [← List.append_assoc]
      exact .lexeme (gap_append skipped skipped') read (by simpa using others)
  | error e =>
    cases later with
    | stray skipped' noBlank noComment noLexeme =>
      rw [List.append_assoc, ← List.append_assoc]
      exact .stray (gap_append skipped skipped') noBlank noComment noLexeme
    | openComment skipped' unended =>
      rw [List.append_assoc, ← List.append_assoc]
      exact .openComment (gap_append skipped skipped') unended
    | lexeme skipped' read others =>
      rw [← List.append_assoc]
      exact .lexeme (gap_append skipped skipped') read (by simpa using others)

theorem describes_lexeme {before spelling rest : List Char} {l : Lexeme}
    (read : LexemeAt spelling l rest) {result : Except ScanError TokenStream}
    (later : Describes (before ++ spelling) rest result) :
    Describes before (spelling ++ rest) (result.map fun stream =>
      { stream with tokens := ⟨l, place before⟩ :: stream.tokens }) := by
  have noGap : Gap [] (spelling ++ rest) := .nil _
  rw [← List.append_nil before] at later
  cases result with
  | ok stream =>
    have split := Splits.lexeme noGap read later
    rwa [List.append_nil] at split
  | error e => exact Fails.lexeme noGap read later

theorem scanFrom_describes (before text : List Char) :
    Describes before text (scanFrom (place before) text) := by
  cases text with
  | nil =>
    rw [scanFrom]
    have split := @Splits.finish before [] (.nil [])
    rwa [List.append_nil] at split
  | cons c cs =>
    have stands := front_stands c cs
    generalize answer : front c cs = found at stands
    generalize whole : c :: cs = text at stands
    cases stands with
    | @gap skipped rest nonempty gap =>
      have shorter := front_shorter (congrArg Front.parts? answer)
      rw [← whole, scanFrom_gap answer, ← place_append, whole]
      exact describes_skip gap (scanFrom_describes (before ++ skipped) rest)
    | @lexeme spelling rest l read =>
      have shorter := front_shorter (congrArg Front.parts? answer)
      rw [scanFrom_lexeme read, ← place_append]
      exact describes_lexeme read (scanFrom_describes (before ++ spelling) rest)
    | openComment unended =>
      rw [scanFrom_openComment (front_of_openComment unended)]
      have fails := @Fails.openComment before [] _ (.nil _) unended
      rwa [List.append_nil] at fails
    | stray noBlank noComment noLexeme =>
      rw [scanFrom_stray (front_of_stray noBlank noComment noLexeme)]
      have fails := @Fails.stray before [] _ _ (.nil _) noBlank noComment noLexeme
      rwa [List.append_nil] at fails
termination_by text.length
decreasing_by all_goals exact shorter

theorem splits_scanFrom {before text : List Char} {stream : TokenStream}
    (splits : Splits before text stream) : scanFrom (place before) text = .ok stream := by
  induction splits with
  | @finish before gap last =>
    have skip := scanFrom_skip last (place before)
    rw [List.append_nil] at skip
    rw [skip, scanFrom, place_append]
  | lexeme skipped read others ih =>
    rw [scanFrom_skip skipped, ← place_append, scanFrom_lexeme read, ← place_append, ih]
    rfl

theorem fails_scanFrom {before text : List Char} {e : ScanError} (fails : Fails before text e) :
    scanFrom (place before) text = .error e := by
  induction fails with
  | stray skipped noBlank noComment noLexeme =>
    rw [scanFrom_skip skipped, ← place_append,
      scanFrom_stray (front_of_stray noBlank noComment noLexeme)]
  | openComment skipped unended =>
    rw [scanFrom_skip skipped, ← place_append,
      scanFrom_openComment (front_of_openComment unended)]
  | lexeme skipped read others ih =>
    rw [scanFrom_skip skipped, ← place_append, scanFrom_lexeme read, ← place_append, ih]
    rfl

theorem scanFrom_eq_ok_iff {before text : List Char} {stream : TokenStream} :
    scanFrom (place before) text = .ok stream ↔ Splits before text stream := by
  refine ⟨fun result => ?_, splits_scanFrom⟩
  have describes := scanFrom_describes before text
  rwa [result] at describes

theorem scanFrom_eq_error_iff {before text : List Char} {e : ScanError} :
    scanFrom (place before) text = .error e ↔ Fails before text e := by
  refine ⟨fun result => ?_, fails_scanFrom⟩
  have describes := scanFrom_describes before text
  rwa [result] at describes

/-- Scanning gives the lexemes of a script with their places exactly when the script splits into
gaps and longest lexemes, and otherwise exactly the first fault. -/
theorem scan_decides_lexical_structure (source : String) :
    (∀ stream, scan source = .ok stream ↔ Splits [] source.toList stream) ∧
    (∀ e, scan source = .error e ↔ Fails [] source.toList e) :=
  ⟨fun _ => @scanFrom_eq_ok_iff [] _ _, fun _ => @scanFrom_eq_error_iff [] _ _⟩

end SolidScript.Proofs
