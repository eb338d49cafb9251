import SolidScript.Proofs.Parsing.Layout

namespace SolidScript

/-- The place of `p` if its text starts on the line below a text. -/
def Position.below (above : String) (p : Position) : Position :=
  ⟨p.line + (1 + above.toList.count '\n'), p.column⟩

namespace Proofs
open Lexical Text Grammar

theorem below_next (above : String) (p : Position) (c : Char) :
    (p.next c).below above = (p.below above).next c := by
  by_cases newline : c = '\n'
  · simp only [Position.next, newline, if_true, Position.below, Nat.add_right_comm]
  · simp only [Position.next, newline, if_false, Position.below]

theorem below_after (above : String) (p : Position) (cs : List Char) :
    (p.after cs).below above = (p.below above).after cs := by
  induction cs generalizing p with
  | nil => rfl
  | cons c cs ih => rw [Position.after_cons, Position.after_cons, ih, below_next]

theorem place_below (above : String) :
    place (above.toList ++ ['\n']) = Position.start.below above := by
  simp only [place, List.count_append, List.reverse_append, Position.start, Position.below]
  simp [Nat.add_comm]

theorem scan_below {above : String} {stream : TokenStream} (scanned : scan above = .ok stream)
    (source : String) :
    scan (above ++ "\n" ++ source) =
      (((scan source).map (.relocate (.below above))).mapError (.relocate (.below above))).map
        (.prepend stream.tokens) := by
  have text : (above ++ "\n" ++ source).toList = above.toList ++ '\n' :: source.toList := by
    simp
  have splits : Splits [] above.toList stream := scanFrom_eq_ok_iff.mp scanned
  have moves (cs : List Char) : (Position.start.after cs).below above =
      (place (above.toList ++ ['\n'])).after cs := by
    rw [below_after, place_below]
  rw [scan, text]
  refine (scanFrom_newline splits source.toList).trans ?_
  rw [List.nil_append, scanFrom_relocate source.toList moves]
  rfl

theorem parseProgram_below {above source : String} {program program' : Program}
    (parsed : parseProgram above = .ok program) (parsed' : parseProgram source = .ok program') :
    parseProgram (above ++ "\n" ++ source) =
      .ok (program ++ Stmt.relocateAll (.below above) program') := by
  obtain ⟨stream, splits, derived⟩ := parseProgram_eq_ok_iff.mp parsed
  obtain ⟨stream', splits', derived'⟩ := parseProgram_eq_ok_iff.mp parsed'
  have scanned : scan above = .ok stream := splits_scanFrom splits
  have scanned' : scan source = .ok stream' := splits_scanFrom splits'
  have both := scan_below scanned source
  rw [scanned'] at both
  exact parseProgram_eq_ok_iff.mpr
    ⟨_, scanFrom_eq_ok_iff.mp both, derived.append (statements_moved (.below above) derived')⟩

/-- A script below another one that can be scanned gives its own tokens after those of the other, or
its own fault, all of it further down by the lines of the other. If both are programs, then so are
the two together, with the statements of the one after those of the other. -/
theorem scripts_compose_across_newline {above : String} {stream : TokenStream}
    (scanned : scan above = .ok stream) (source : String) :
    (match scan source with
      | .ok stream' => scan (above ++ "\n" ++ source) =
        .ok ⟨stream.tokens ++ stream'.tokens.map (.relocate (.below above)),
          stream'.finish.below above⟩
      | .error e => scan (above ++ "\n" ++ source) = .error (e.relocate (.below above))) ∧
    ∀ program program', parseProgram above = .ok program → parseProgram source = .ok program' →
      parseProgram (above ++ "\n" ++ source) =
        .ok (program ++ Stmt.relocateAll (.below above) program') := by
  refine ⟨?_, fun program program' => parseProgram_below⟩
  have both := scan_below scanned source
  cases result : scan source with
  | ok stream' =>
    rw [result] at both
    exact both
  | error e =>
    rw [result] at both
    exact both

def sideLine : String := "// side\nb = a; // of the box"

def boxLine : String := "cube(b);"

theorem sideLine_scanned : scan sideLine =
    .ok ⟨[.identifier "b" ⟨2, 1⟩, .symbol .equals ⟨2, 3⟩, .identifier "a" ⟨2, 5⟩,
      .symbol .semicolon ⟨2, 6⟩], ⟨2, 21⟩⟩ := by
  decide +kernel

theorem boxLine_scanned : scan boxLine =
    .ok ⟨[.identifier "cube" ⟨1, 1⟩, .symbol .leftParen ⟨1, 5⟩, .identifier "b" ⟨1, 6⟩,
      .symbol .rightParen ⟨1, 7⟩, .symbol .semicolon ⟨1, 8⟩], ⟨1, 9⟩⟩ := by
  decide +kernel

/-- The comment at the end of the upper script does not swallow the call, which stands on the third
line of the whole. -/
theorem sideLine_above_boxLine :
    parseProgram (sideLine ++ "\n" ++ boxLine) =
      .ok [.assign "b" (.var "a"), .call ⟨"cube", [.var "b"], [], ⟨3, 1⟩⟩ none] := by
  have name (word : String) (p : Position) (noTruth : word ≠ "true") (noFalsity : word ≠ "false") :
      Sum [.identifier word p] (.var word) :=
    .product (.unary (.primary (.var p noTruth noFalsity)))
  have plain : "b" ≠ "for" := by decide
  have assigned := Statements.cons
    (.assign ⟨2, 1⟩ ⟨2, 3⟩ ⟨2, 6⟩ plain (name "a" ⟨2, 5⟩ (by decide) (by decide))) .nil
  have invocation := Invocation.call "cube" ⟨1, 1⟩ ⟨1, 5⟩ ⟨1, 7⟩
    (.some (.one (.positional (name "b" ⟨1, 6⟩ (by decide) (by decide)))))
    (@Collects.mk [.positional (.var "b")] [.var "b"] [] rfl rfl fun _ => rfl)
  have called := Statements.cons (.call ⟨1, 8⟩ (by decide) invocation) .nil
  exact (scripts_compose_across_newline sideLine_scanned boxLine).2 _ _
    (parseProgram_eq_ok_iff.mpr ⟨_, scanFrom_eq_ok_iff.mp sideLine_scanned, assigned⟩)
    (parseProgram_eq_ok_iff.mpr ⟨_, scanFrom_eq_ok_iff.mp boxLine_scanned, called⟩)

end Proofs

end SolidScript
