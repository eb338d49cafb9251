import SolidScript.Proofs.Parsing.Correspondence
import SolidScript.Proofs.Parsing.Relocation

namespace SolidScript

variable (move : Position → Position)

def Fault.relocate (fault : Fault) : Fault :=
  { fault with rest := fault.rest.map (Token.relocate move) }

def ParseError.relocate (e : ParseError) : ParseError := { e with position := move e.position }

namespace Proofs
open Grammar

variable {α β γ δ : Type}

def movedOutcome (f : α → β) : Except Fault (α × List Token) → Except Fault (β × List Token)
  | .ok (a, rest) => .ok (f a, rest.map (Token.relocate move))
  | .error fault => .error (fault.relocate move)

theorem movedOutcome_bind {o : Except Fault (α × List Token)}
    {g : α × List Token → Except Fault (γ × List Token)} {f : α → β} {h : γ → δ}
    {g' : β × List Token → Except Fault (δ × List Token)}
    (later : ∀ a rest, o = .ok (a, rest) →
      g' (f a, rest.map (Token.relocate move)) = movedOutcome move h (g (a, rest))) :
    (movedOutcome move f o >>= g') = movedOutcome move h (o >>= g) := by
  cases o with
  | error fault => rfl
  | ok read => exact later read.1 read.2 rfl

/-! ## Single tokens -/

def movedAhead (read : α × List Token) : α × List Token :=
  (read.1, read.2.map (Token.relocate move))

theorem ahead_takeSymbol?_moved (s : Symbol) (ts : List Token) :
    ahead (takeSymbol? s (ts.map (Token.relocate move))) =
      (ahead (takeSymbol? s ts)).map (movedAhead move) := by
  cases ts with
  | nil => rfl
  | cons t ts =>
    obtain ⟨lexeme, p⟩ := t
    by_cases same : lexeme = .symbol s
    · subst same
      rw [ahead_takeSymbol?_self]
      exact ahead_takeSymbol?_self s (move p) _
    · have other : (Token.mk lexeme p).lexeme ≠ .symbol s := same
      rw [ahead_takeSymbol?_of_ne other]
      exact ahead_takeSymbol?_of_ne other _

theorem outcome_takeSymbol_moved (s : Symbol) (ts : List Token) :
    outcome (takeSymbol s (ts.map (Token.relocate move))) =
      movedOutcome move id (outcome (takeSymbol s ts)) := by
  rw [outcome_takeSymbol, outcome_takeSymbol, ahead_takeSymbol?_moved]
  cases ahead (takeSymbol? s ts) <;> rfl

theorem takeSymbol_last_moved (f : α → β) (s : Symbol) (ts : List Token) (a : α) :
    (outcome (takeSymbol s (ts.map (Token.relocate move))) >>= fun read => pure (f a, read.2)) =
      movedOutcome move f (outcome (takeSymbol s ts) >>= fun read => pure (a, read.2)) := by
  rw [outcome_takeSymbol_moved]
  exact movedOutcome_bind move fun _ _ _ => rfl

theorem outcome_takeIdentifier_moved (ts : List Token) :
    outcome (takeIdentifier (ts.map (Token.relocate move))) =
      movedOutcome move (Prod.map id move) (outcome (takeIdentifier ts)) := by
  match ts with
  | [] | ⟨.identifier _, _⟩ :: _ | ⟨.symbol _, _⟩ :: _ | ⟨.number _, _⟩ :: _ => rfl

theorem ahead_takeKey?_moved (ts : List Token) :
    ahead (takeKey? (ts.map (Token.relocate move))) =
      (ahead (takeKey? ts)).map (movedAhead move) := by
  rw [ahead_takeKey?, ahead_takeKey?]
  match ts with
  | [] | ⟨.symbol _, _⟩ :: _ | ⟨.number _, _⟩ :: _ => rfl
  | ⟨.identifier name, p⟩ :: ts =>
    change (ahead (takeSymbol? .equals (ts.map (Token.relocate move))) >>= _) =
      Option.map _ (ahead (takeSymbol? .equals ts) >>= _)
    rw [ahead_takeSymbol?_moved]
    cases ahead (takeSymbol? .equals ts) <;> rfl

theorem ahead_takeFor?_moved (ts : List Token) :
    ahead (takeFor? (ts.map (Token.relocate move))) =
      (ahead (takeFor? ts)).map (movedAhead move) := by
  match ts with
  | [] | ⟨.symbol _, _⟩ :: _ | ⟨.number _, _⟩ :: _ => rfl
  | ⟨.identifier name, p⟩ :: ts =>
    by_cases loop : name = "for"
    · subst loop
      rfl
    · rw [ahead_takeFor?_identifier loop]
      exact ahead_takeFor?_identifier loop (move p) _

theorem length_lt_of_ahead {n : Nat} {r : Option (Parsed α n)} {a : α} {rest : List Token}
    (read : ahead r = some (a, rest)) : rest.length < n := by
  obtain ⟨parsed, -, same⟩ := Option.map_eq_some_iff.mp read
  cases same
  exact parsed.fits

/-! ## Expressions -/

mutual

theorem parsePrimary_moved (ts : List Token) :
    outcome (parsePrimary (ts.map (Token.relocate move))) =
      movedOutcome move id (outcome (parsePrimary ts)) := by
  match ts with
  | [] =>
    rw [List.map_nil, parsePrimary]
    rfl
  | ⟨.number numeral, p⟩ :: ts =>
    rw [outcome_parsePrimary_number]
    exact outcome_parsePrimary_number numeral (move p) _
  | ⟨.identifier name, p⟩ :: ts =>
    rw [outcome_parsePrimary_identifier]
    exact outcome_parsePrimary_identifier name (move p) _
  | ⟨.symbol .leftParen, p⟩ :: ts =>
    rw [outcome_parsePrimary_paren]
    refine (outcome_parsePrimary_paren (move p) _).trans ?_
    rw [parseSum_moved ts]
    exact movedOutcome_bind move fun e rest _ => takeSymbol_last_moved move id .rightParen rest e
  | ⟨.symbol .leftBracket, p⟩ :: ts =>
    rw [outcome_parsePrimary_bracket]
    refine (outcome_parsePrimary_bracket (move p) _).trans ?_
    rw [ahead_takeSymbol?_moved]
    cases ahead (takeSymbol? .rightBracket ts) with
    | some read => rfl
    | none =>
      dsimp only [Option.map_none]
      rw [parseItems_moved ts]
      exact movedOutcome_bind move fun items rest _ =>
        takeSymbol_last_moved move id .rightBracket rest (Expr.array items)
  | ⟨.symbol .rightParen, p⟩ :: ts | ⟨.symbol .leftBrace, p⟩ :: ts
  | ⟨.symbol .rightBrace, p⟩ :: ts | ⟨.symbol .rightBracket, p⟩ :: ts
  | ⟨.symbol .comma, p⟩ :: ts | ⟨.symbol .colon, p⟩ :: ts | ⟨.symbol .semicolon, p⟩ :: ts
  | ⟨.symbol .equals, p⟩ :: ts | ⟨.symbol .plus, p⟩ :: ts | ⟨.symbol .minus, p⟩ :: ts
  | ⟨.symbol .star, p⟩ :: ts | ⟨.symbol .slash, p⟩ :: ts =>
    rw [List.map_cons, parsePrimary, parsePrimary]
    rfl
termination_by (ts.length, 0)

theorem parseItems_moved (ts : List Token) :
    outcome (parseItems (ts.map (Token.relocate move))) =
      movedOutcome move id (outcome (parseItems ts)) := by
  rw [outcome_parseItems, outcome_parseItems, parseSum_moved ts]
  refine movedOutcome_bind move fun item rest first => ?_
  have shorter := length_lt_of_outcome first
  dsimp only
  rw [ahead_takeSymbol?_moved]
  cases comma : ahead (takeSymbol? .comma rest) with
  | none => rfl
  | some read =>
    have shorter' := length_lt_of_ahead comma
    dsimp only [Option.map_some, movedAhead]
    rw [parseItems_moved read.2]
    exact movedOutcome_bind move fun _ _ _ => rfl
termination_by (ts.length, 4)

theorem parseUnary_moved (ts : List Token) :
    outcome (parseUnary (ts.map (Token.relocate move))) =
      movedOutcome move id (outcome (parseUnary ts)) := by
  rw [outcome_parseUnary, outcome_parseUnary, ahead_takeSymbol?_moved]
  cases minus : ahead (takeSymbol? .minus ts) with
  | none => exact parsePrimary_moved ts
  | some read =>
    have shorter := length_lt_of_ahead minus
    dsimp only [Option.map_some, movedAhead]
    rw [parseUnary_moved read.2]
    exact movedOutcome_bind move fun _ _ _ => rfl
termination_by (ts.length, 1)

theorem parseProduct_moved (ts : List Token) :
    outcome (parseProduct (ts.map (Token.relocate move))) =
      movedOutcome move id (outcome (parseProduct ts)) := by
  rw [outcome_parseProduct, outcome_parseProduct, parseUnary_moved ts]
  refine movedOutcome_bind move fun left rest first => ?_
  have shorter := length_lt_of_outcome first
  exact parseFactors_moved left rest
termination_by (ts.length, 2)

theorem parseFactors_moved (left : Expr) (ts : List Token) :
    outcome (parseFactors left (ts.map (Token.relocate move))) =
      movedOutcome move id (outcome (parseFactors left ts)) := by
  match ts with
  | [] =>
    rw [List.map_nil, outcome_parseFactors_nil]
    rfl
  | ⟨lexeme, p⟩ :: ts =>
    rw [List.map_cons, outcome_parseFactors_cons, outcome_parseFactors_cons]
    dsimp only [Token.relocate]
    cases productOperator? lexeme with
    | none => rfl
    | some op =>
      dsimp only
      refine (congrArg (· >>= _) (parseUnary_moved ts)).trans ?_
      refine movedOutcome_bind move fun right rest first => ?_
      have shorter := length_lt_of_outcome first
      exact parseFactors_moved _ rest
termination_by (ts.length, 0)

theorem parseSum_moved (ts : List Token) :
    outcome (parseSum (ts.map (Token.relocate move))) =
      movedOutcome move id (outcome (parseSum ts)) := by
  rw [outcome_parseSum, outcome_parseSum, parseProduct_moved ts]
  refine movedOutcome_bind move fun left rest first => ?_
  have shorter := length_lt_of_outcome first
  exact parseTerms_moved left rest
termination_by (ts.length, 3)

theorem parseTerms_moved (left : Expr) (ts : List Token) :
    outcome (parseTerms left (ts.map (Token.relocate move))) =
      movedOutcome move id (outcome (parseTerms left ts)) := by
  match ts with
  | [] =>
    rw [List.map_nil, outcome_parseTerms_nil]
    rfl
  | ⟨lexeme, p⟩ :: ts =>
    rw [List.map_cons, outcome_parseTerms_cons, outcome_parseTerms_cons]
    dsimp only [Token.relocate]
    cases sumOperator? lexeme with
    | none => rfl
    | some op =>
      dsimp only
      refine (congrArg (· >>= _) (parseProduct_moved ts)).trans ?_
      refine movedOutcome_bind move fun right rest first => ?_
      have shorter := length_lt_of_outcome first
      exact parseTerms_moved _ rest
termination_by (ts.length, 0)

end

/-! ## Calls -/

theorem parseArgument_moved (ts : List Token) :
    outcome (parseArgument (ts.map (Token.relocate move))) =
      movedOutcome move id (outcome (parseArgument ts)) := by
  rw [outcome_parseArgument, outcome_parseArgument, ahead_takeKey?_moved]
  cases ahead (takeKey? ts) with
  | none =>
    dsimp only [Option.map_none]
    rw [parseSum_moved]
    exact movedOutcome_bind move fun _ _ _ => rfl
  | some read =>
    dsimp only [Option.map_some, movedAhead]
    rw [parseSum_moved]
    exact movedOutcome_bind move fun _ _ _ => rfl

theorem parseArgumentList_moved (ts : List Token) :
    outcome (parseArgumentList (ts.map (Token.relocate move))) =
      movedOutcome move id (outcome (parseArgumentList ts)) := by
  rw [outcome_parseArgumentList, outcome_parseArgumentList, parseArgument_moved]
  refine movedOutcome_bind move fun argument rest first => ?_
  have shorter := length_lt_of_outcome first
  dsimp only
  rw [ahead_takeSymbol?_moved]
  cases comma : ahead (takeSymbol? .comma rest) with
  | none => rfl
  | some read =>
    have shorter' := length_lt_of_ahead comma
    dsimp only [Option.map_some, movedAhead]
    rw [parseArgumentList_moved read.2]
    exact movedOutcome_bind move fun _ _ _ => rfl
termination_by ts.length

theorem parseArguments_moved (ts : List Token) :
    outcome (parseArguments (ts.map (Token.relocate move))) =
      movedOutcome move id (outcome (parseArguments ts)) := by
  rw [outcome_parseArguments, outcome_parseArguments, ahead_takeSymbol?_moved]
  cases ahead (takeSymbol? .rightParen ts) with
  | some read => rfl
  | none =>
    dsimp only [Option.map_none]
    rw [parseArgumentList_moved]
    exact movedOutcome_bind move fun arguments rest _ =>
      takeSymbol_last_moved move id .rightParen rest arguments

theorem parseHead_moved (ts : List Token) :
    outcome (parseHead (ts.map (Token.relocate move))) =
      movedOutcome move (Head.relocate move) (outcome (parseHead ts)) := by
  rw [outcome_parseHead, outcome_parseHead, outcome_takeIdentifier_moved]
  refine movedOutcome_bind move fun name rest _ => ?_
  dsimp only [Prod.map_fst]
  rw [outcome_takeSymbol_moved]
  refine movedOutcome_bind move fun _ rest _ => ?_
  dsimp only
  rw [parseArguments_moved]
  exact movedOutcome_bind move fun _ _ _ => rfl

/-! ## Statements -/

theorem parseRange_moved (counter : String) (ts : List Token) :
    outcome (parseRange counter (ts.map (Token.relocate move))) =
      movedOutcome move id (outcome (parseRange counter ts)) := by
  rw [outcome_parseRange, outcome_parseRange, outcome_takeSymbol_moved]
  refine movedOutcome_bind move fun _ rest _ => ?_
  dsimp only
  rw [parseSum_moved]
  refine movedOutcome_bind move fun start rest _ => ?_
  dsimp only
  rw [outcome_takeSymbol_moved]
  refine movedOutcome_bind move fun _ rest _ => ?_
  dsimp only
  rw [parseSum_moved]
  refine movedOutcome_bind move fun second rest _ => ?_
  dsimp only
  rw [ahead_takeSymbol?_moved]
  cases ahead (takeSymbol? .colon rest) with
  | none => exact takeSymbol_last_moved move id .rightBracket rest _
  | some read =>
    dsimp only [Option.map_some, movedAhead]
    rw [parseSum_moved]
    exact movedOutcome_bind move fun third rest _ =>
      takeSymbol_last_moved move id .rightBracket rest _

theorem parseLoopHead_moved (ts : List Token) :
    outcome (parseLoopHead (ts.map (Token.relocate move))) =
      movedOutcome move id (outcome (parseLoopHead ts)) := by
  rw [outcome_parseLoopHead, outcome_parseLoopHead, outcome_takeSymbol_moved]
  refine movedOutcome_bind move fun _ rest _ => ?_
  dsimp only
  rw [outcome_takeIdentifier_moved]
  refine movedOutcome_bind move fun counter rest _ => ?_
  dsimp only [Prod.map_fst, id]
  rw [outcome_takeSymbol_moved]
  refine movedOutcome_bind move fun _ rest _ => ?_
  dsimp only
  rw [parseRange_moved]
  exact movedOutcome_bind move fun head rest _ =>
    takeSymbol_last_moved move id .rightParen rest head

mutual

theorem parseStatement_moved (ts : List Token) :
    outcome (parseStatement (ts.map (Token.relocate move))) =
      movedOutcome move (Stmt.relocate move) (outcome (parseStatement ts)) := by
  rw [outcome_parseStatement, outcome_parseStatement, ahead_takeFor?_moved]
  cases loop : ahead (takeFor? ts) with
  | some read =>
    have shorter := length_lt_of_ahead loop
    dsimp only [Option.map_some, movedAhead]
    rw [parseLoopHead_moved]
    refine movedOutcome_bind move fun head rest first => ?_
    have shorter' := length_lt_of_outcome first
    dsimp only [id]
    rw [parseBlock_moved rest]
    refine movedOutcome_bind move fun body rest _ => ?_
    simp only [movedOutcome, Stmt.relocate, pure, Except.pure]
  | none =>
    dsimp only [Option.map_none]
    rw [ahead_takeKey?_moved]
    cases ahead (takeKey? ts) with
    | some read =>
      dsimp only [Option.map_some, movedAhead]
      rw [parseSum_moved]
      refine movedOutcome_bind move fun value rest _ => ?_
      have ended := takeSymbol_last_moved move (Stmt.relocate move) .semicolon rest
        (.assign read.1 value)
      rwa [Stmt.relocate] at ended
    | none =>
      dsimp only [Option.map_none]
      rw [parseHead_moved]
      refine movedOutcome_bind move fun head rest first => ?_
      have shorter := length_lt_of_outcome first
      dsimp only
      rw [parseCallEnd_moved rest]
      refine movedOutcome_bind move fun block rest _ => ?_
      cases block <;> simp only [movedOutcome, Stmt.relocate, pure, Except.pure, Option.map]
termination_by (ts.length, 0)

theorem parseCallEnd_moved (ts : List Token) :
    outcome (parseCallEnd (ts.map (Token.relocate move))) =
      movedOutcome move (Option.map (Stmt.relocateAll move)) (outcome (parseCallEnd ts)) := by
  rw [outcome_parseCallEnd, outcome_parseCallEnd, ahead_takeSymbol?_moved]
  cases brace : ahead (takeSymbol? .leftBrace ts) with
  | none =>
    dsimp only [Option.map_none]
    rw [outcome_takeSymbol_moved]
    exact movedOutcome_bind move fun _ _ _ => rfl
  | some read =>
    have shorter := length_lt_of_ahead brace
    dsimp only [Option.map_some, movedAhead]
    rw [parseBlockRest_moved read.2]
    refine movedOutcome_bind move fun block rest _ => ?_
    dsimp only
    rw [ahead_takeSymbol?_moved]
    cases ahead (takeSymbol? .semicolon rest) <;> rfl
termination_by (ts.length, 0)

theorem parseBlock_moved (ts : List Token) :
    outcome (parseBlock (ts.map (Token.relocate move))) =
      movedOutcome move (Stmt.relocateAll move) (outcome (parseBlock ts)) := by
  rw [outcome_parseBlock, outcome_parseBlock, outcome_takeSymbol_moved]
  refine movedOutcome_bind move fun _ rest first => ?_
  have shorter := length_lt_of_outcome first
  exact parseBlockRest_moved rest
termination_by (ts.length, 0)

theorem parseBlockRest_moved (ts : List Token) :
    outcome (parseBlockRest (ts.map (Token.relocate move))) =
      movedOutcome move (Stmt.relocateAll move) (outcome (parseBlockRest ts)) := by
  rw [outcome_parseBlockRest, outcome_parseBlockRest, ahead_takeSymbol?_moved]
  cases ahead (takeSymbol? .rightBrace ts) with
  | some read =>
    simp only [Option.map_some, movedAhead, movedOutcome, Stmt.relocateAll]
  | none =>
    dsimp only [Option.map_none]
    by_cases finished : ts = []
    · rw [if_pos finished, if_pos (List.map_eq_nil_iff.mpr finished)]
      rfl
    · rw [if_neg finished, if_neg (mt List.map_eq_nil_iff.mp finished), parseStatement_moved ts]
      refine movedOutcome_bind move fun statement rest first => ?_
      have shorter := length_lt_of_outcome first
      dsimp only
      rw [parseBlockRest_moved rest]
      refine movedOutcome_bind move fun statements rest _ => ?_
      simp only [movedOutcome, Stmt.relocateAll, pure, Except.pure]
termination_by (ts.length, 1)

end

/-! ## Programs -/

theorem parseStatements_moved (ts : List Token) :
    parseStatements (ts.map (Token.relocate move)) =
      ((parseStatements ts).map (Stmt.relocateAll move)).mapError (Fault.relocate move) := by
  match ts with
  | [] =>
    rw [List.map_nil, parseStatements]
    simp [Stmt.relocateAll, Except.map, Except.mapError, pure, Except.pure]
  | t :: ts =>
    have first := parseStatement_moved move (t :: ts)
    rw [List.map_cons] at first
    rw [List.map_cons, parseStatements_cons, parseStatements_cons, first]
    cases read : outcome (parseStatement (t :: ts)) with
    | error fault => rfl
    | ok pair =>
      have shorter : pair.2.length < ts.length + 1 := length_lt_of_outcome read
      dsimp only [movedOutcome, ok_bind]
      rw [parseStatements_moved pair.2]
      cases parseStatements pair.2 with
      | error fault => rfl
      | ok statements =>
        simp [Except.map, Except.mapError, pure, Except.pure, Stmt.relocateAll]
termination_by ts.length

theorem statements_moved {ts : List Token} {program : Program} (derived : Statements ts program) :
    Statements (ts.map (Token.relocate move)) (Stmt.relocateAll move program) := by
  rw [← parseStatements_eq_ok_iff] at derived ⊢
  rw [parseStatements_moved, derived]
  rfl

theorem toError_relocate (finish : Position) (fault : Fault) :
    Fault.toError (move finish) (fault.relocate move) =
      (fault.toError finish).relocate move := by
  obtain ⟨expected, rest⟩ := fault
  cases rest <;> rfl

end Proofs

end SolidScript
