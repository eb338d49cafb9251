import SolidScript.Proofs.Parsing.Completeness

namespace SolidScript.Proofs
open Grammar

theorem parseStatements_eq_ok_iff {ts : List Token} {program : Program} :
    parseStatements ts = .ok program ↔ Statements ts program :=
  ⟨parseStatements_sound ts, parseStatements_complete⟩

theorem statements_unique {ts : List Token} {program other : Program}
    (derived : Statements ts program) (derived' : Statements ts other) : program = other := by
  rw [← parseStatements_eq_ok_iff] at derived derived'
  rw [derived, Except.ok.injEq] at derived'
  exact derived'

theorem parse_eq_ok_iff {stream : TokenStream} {program : Program} :
    stream.parse = .ok program ↔ Statements stream.tokens program := by
  rw [TokenStream.parse, mapError_eq_ok, parseStatements_eq_ok_iff]

/-- Parsing decides the grammar, and no token stream derives two programs. -/
theorem parse_decides_grammar (stream : TokenStream) :
    (∀ program, stream.parse = .ok program ↔ Statements stream.tokens program) ∧
      ∀ program other, Statements stream.tokens program → Statements stream.tokens other →
        program = other :=
  ⟨fun _ => parse_eq_ok_iff, fun _ _ => statements_unique⟩

end SolidScript.Proofs
