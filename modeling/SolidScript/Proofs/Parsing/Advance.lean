import SolidScript.Proofs.Parsing.Arrival
import SolidScript.Proofs.Parsing.FirstFault

namespace SolidScript.Proofs
open Grammar

variable {α : Type} {tokens : List Token} {trail : Trail}

/-! ## Expressions -/

theorem moved_of_fewer {p q : Nat} (fewer : (tokens.drop q).length < (tokens.drop p).length) :
    p < q := by
  rw [List.length_drop, List.length_drop] at fewer
  omega

theorem moved_of_outcome {p : Parse α (tokens.drop trail.position)} {a : α} {trail₁ : Trail}
    (read : outcome p = .ok (a, tokens.drop trail₁.position)) :
    trail.position < trail₁.position :=
  moved_of_fewer (length_lt_of_outcome read)

theorem left_lt {trail₁ : Trail} (within : trail₁.Within tokens.length)
    (moved : trail.position < trail₁.position) :
    tokens.length - trail₁.position < tokens.length - trail.position :=
  Nat.sub_lt_sub_left (Nat.lt_of_lt_of_le moved within.position_le) moved

theorem atom_arrives (within : trail.Within tokens.length)
    (noParen : ahead (takeSymbol? .leftParen (tokens.drop trail.position)) = none)
    (noBracket : ahead (takeSymbol? .leftBracket (tokens.drop trail.position)) = none) :
    Arrives tokens (fun _ => Walk.atom) trail
      (outcome (parsePrimary (tokens.drop trail.position))) := by
  obtain ⟨trail₁, seen, within₁, same⟩ := lookAt_sees within
  rw [← same] at seen noParen noBracket ⊢
  refine .after seen ?_
  match front : tokens.drop trail₁.position with
  | [] =>
    rw [parsePrimary]
    exact fail_arrives within₁ _ front
  | ⟨.number numeral, p⟩ :: rest =>
    obtain ⟨stepped, within₂, tail⟩ := step_walks within₁ front
    rw [outcome_parsePrimary_number, tail]
    exact .after stepped (.pure within₂ _)
  | ⟨.identifier name, p⟩ :: rest =>
    obtain ⟨stepped, within₂, tail⟩ := step_walks within₁ front
    rw [outcome_parsePrimary_identifier, tail]
    exact .after stepped (.pure within₂ _)
  | ⟨.symbol s, p⟩ :: rest =>
    rw [front] at noParen noBracket
    rw [outcome_parsePrimary_symbol]
    · exact fail_arrives within₁ _ front
    · rintro rfl
      rw [ahead_takeSymbol?_self] at noParen
      cases noParen
    · rintro rfl
      rw [ahead_takeSymbol?_self] at noBracket
      cases noBracket

theorem operation_arrives {operator? : Lexeme → Option Operator} {first second : Operator}
    (chooses : Chooses operator? first second) (left : Expr) (within : trail.Within tokens.length)
    {operand : Nat → Walk Expr} {next : Expr → Nat → Walk Expr} (readOperand : Reader Expr)
    (readNext : Expr → Reader Expr)
    (operand_arrives : ∀ trail₁, trail₁.Within tokens.length → trail.position < trail₁.position →
      Arrives tokens operand trail₁ (readOperand (tokens.drop trail₁.position)))
    (shortens : Shortens readOperand)
    (next_arrives : ∀ e trail₁, trail₁.Within tokens.length → trail.position < trail₁.position →
      Arrives tokens (next e) trail₁ (readNext e (tokens.drop trail₁.position))) :
    Arrives tokens (fun fuel => do
      let start ← Walk.here
      match ← Walk.operatorAhead first second with
      | some op =>
        Walk.consumeSymbol op.symbol
        let right ← operand fuel
        Walk.endRound start
        next (.binary op left right) fuel
      | none => return left) trail
      (match (tokens.drop trail.position).head?.bind fun t => operator? t.lexeme with
      | none => .ok (left, tokens.drop trail.position)
      | some op => do
        let (right, rest) ← readOperand (tokens.drop trail.position).tail
        readNext (.binary op left right) rest) := by
  refine .after rfl ?_
  obtain ⟨trail₁, seen, within₁, same⟩ := operatorAhead_sees chooses within
  refine .after seen ?_
  cases found : (tokens.drop trail.position).head?.bind fun t => operator? t.lexeme with
  | none =>
    rw [← same]
    exact .pure within₁ left
  | some op =>
    obtain ⟨p, front⟩ := chooses.front found
    rw [← same] at front
    obtain ⟨trail₂, consumed, within₂, moved, tail⟩ := consumeSymbol_some within₁ front
    rw [same] at moved tail
    refine .after consumed ?_
    dsimp only
    rw [tail]
    refine (operand_arrives trail₂ within₂ moved).bind fun right trail₃ within₃ read => ?_
    have round := Nat.lt_trans moved (moved_of_fewer (shortens _ _ _ read))
    exact .after rfl (next_arrives _ _ (within₃.endRound round) round)

-- By induction on the tokens that are left. Some rules begin with another one that stands at the
-- same place, so the measure adds the level of the rule: the rule it begins with has a lower one.

mutual

theorem sum_arrives {trail : Trail} (within : trail.Within tokens.length) :
    Arrives tokens Walk.sum trail (outcome (parseSum (tokens.drop trail.position))) := by
  refine .of_less ?_
  simp only [Walk.sum]
  rw [outcome_parseSum]
  refine (product_arrives within).bind fun first trail₁ within₁ read => ?_
  have shorter := left_lt within₁ (moved_of_outcome read)
  exact terms_arrives first within₁
termination_by 6 * (tokens.length - trail.position) + 4

theorem terms_arrives {trail : Trail} (left : Expr) (within : trail.Within tokens.length) :
    Arrives tokens (Walk.terms left) trail
      (outcome (parseTerms left (tokens.drop trail.position))) := by
  refine .of_less ?_
  simp only [Walk.terms]
  rw [outcome_parseTerms]
  refine operation_arrives sumOperator?_chooses left within (fun ts => outcome (parseProduct ts))
    (fun e ts => outcome (parseTerms e ts)) (fun trail₁ within₁ moved => ?_)
    (shortens_outcome parseProduct) (fun e trail₁ within₁ moved => ?_)
  · have shorter := left_lt within₁ moved
    exact product_arrives within₁
  · have shorter := left_lt within₁ moved
    exact terms_arrives e within₁
termination_by 6 * (tokens.length - trail.position)

theorem product_arrives {trail : Trail} (within : trail.Within tokens.length) :
    Arrives tokens Walk.product trail (outcome (parseProduct (tokens.drop trail.position))) := by
  refine .of_less ?_
  simp only [Walk.product]
  rw [outcome_parseProduct]
  refine (unary_arrives within).bind fun first trail₁ within₁ read => ?_
  have shorter := left_lt within₁ (moved_of_outcome read)
  exact factors_arrives first within₁
termination_by 6 * (tokens.length - trail.position) + 3

theorem factors_arrives {trail : Trail} (left : Expr) (within : trail.Within tokens.length) :
    Arrives tokens (Walk.factors left) trail
      (outcome (parseFactors left (tokens.drop trail.position))) := by
  refine .of_less ?_
  simp only [Walk.factors]
  rw [outcome_parseFactors]
  refine operation_arrives productOperator?_chooses left within (fun ts => outcome (parseUnary ts))
    (fun e ts => outcome (parseFactors e ts)) (fun trail₁ within₁ moved => ?_)
    (shortens_outcome parseUnary) (fun e trail₁ within₁ moved => ?_)
  · have shorter := left_lt within₁ moved
    exact unary_arrives within₁
  · have shorter := left_lt within₁ moved
    exact factors_arrives e within₁
termination_by 6 * (tokens.length - trail.position)

theorem unary_arrives {trail : Trail} (within : trail.Within tokens.length) :
    Arrives tokens Walk.unary trail (outcome (parseUnary (tokens.drop trail.position))) := by
  refine .of_less ?_
  simp only [Walk.unary]
  rw [outcome_parseUnary]
  cases minus : ahead (takeSymbol? .minus (tokens.drop trail.position)) with
  | none =>
    obtain ⟨trail₁, seen, within₁, same⟩ := matchSymbol_none within minus
    rw [← same]
    exact .no seen (primary_arrives within₁)
  | some read =>
    obtain ⟨trail₁, taken, within₁, moved, rfl⟩ := matchSymbol_some within minus
    have shorter := left_lt within₁ moved
    refine .yes taken ((unary_arrives within₁).bind fun e trail₂ within₂ _ => ?_)
    exact .pure within₂ _
termination_by 6 * (tokens.length - trail.position) + 2

theorem primary_arrives {trail : Trail} (within : trail.Within tokens.length) :
    Arrives tokens Walk.primary trail (outcome (parsePrimary (tokens.drop trail.position))) := by
  refine .of_less ?_
  simp only [Walk.primary]
  cases paren : ahead (takeSymbol? .leftParen (tokens.drop trail.position)) with
  | some read =>
    obtain ⟨trail₁, taken, within₁, moved, rfl⟩ := matchSymbol_some within paren
    obtain ⟨p, front⟩ := ahead_takeSymbol?_eq_some_iff.mp paren
    have shorter := left_lt within₁ moved
    rw [front, outcome_parsePrimary_paren]
    exact .yes taken ((sum_arrives within₁).bind fun e trail₂ within₂ _ =>
      (consumeSymbol_arrives .rightParen within₂).bind fun _ trail₃ within₃ _ => .pure within₃ e)
  | none =>
    obtain ⟨trail₁, seen, within₁, same⟩ := matchSymbol_none within paren
    refine .no seen ?_
    obtain ⟨trail₂, seen', within₂, same'⟩ := isSymbol_sees .leftBracket within₁
    rw [← same, ← same'] at paren ⊢
    rw [← same'] at seen'
    cases bracket : ahead (takeSymbol? .leftBracket (tokens.drop trail₂.position)) with
    | some read =>
      rw [bracket] at seen'
      rw [outcome_parsePrimary_array bracket]
      exact .yes seen' (array_arrives within₂)
    | none =>
      rw [bracket] at seen'
      exact .no seen' (atom_arrives within₂ paren bracket)
termination_by 6 * (tokens.length - trail.position) + 1

theorem array_arrives {trail : Trail} (within : trail.Within tokens.length) :
    Arrives tokens Walk.array trail (readArray (tokens.drop trail.position)) := by
  refine .of_less ?_
  simp only [Walk.array]
  rw [readArray]
  refine (consumeSymbol_arrives .leftBracket within).bind fun _ trail₁ within₁ read => ?_
  have shorter := left_lt within₁ (moved_of_outcome read)
  dsimp only
  cases bracket : ahead (takeSymbol? .rightBracket (tokens.drop trail₁.position)) with
  | some read =>
    obtain ⟨trail₂, taken, within₂, moved, rfl⟩ := matchSymbol_some within₁ bracket
    exact .yes taken (.pure within₂ _)
  | none =>
    obtain ⟨trail₂, seen, within₂, same⟩ := matchSymbol_none within₁ bracket
    rw [← same] at shorter ⊢
    exact .no seen ((items_arrives within₂).bind fun items trail₃ within₃ _ =>
      (consumeSymbol_arrives .rightBracket within₃).bind fun _ trail₄ within₄ _ =>
        .pure within₄ _)
termination_by 6 * (tokens.length - trail.position)

theorem items_arrives {trail : Trail} (within : trail.Within tokens.length) :
    Arrives tokens Walk.items trail (outcome (parseItems (tokens.drop trail.position))) := by
  refine .of_less ?_
  simp only [Walk.items]
  rw [outcome_parseItems_more]
  refine (sum_arrives within).bind fun first trail₁ within₁ read => ?_
  have shorter := left_lt within₁ (moved_of_outcome read)
  exact (moreItems_arrives within₁).bind fun others trail₂ within₂ _ => .pure within₂ _
termination_by 6 * (tokens.length - trail.position) + 5

theorem moreItems_arrives {trail : Trail} (within : trail.Within tokens.length) :
    Arrives tokens Walk.moreItems trail (readMoreItems (tokens.drop trail.position)) := by
  refine .of_less ?_
  simp only [Walk.moreItems]
  rw [readMoreItems]
  refine .after rfl ?_
  cases comma : ahead (takeSymbol? .comma (tokens.drop trail.position)) with
  | none =>
    obtain ⟨trail₁, seen, within₁, same⟩ := matchSymbol_none within comma
    rw [← same]
    exact .no seen (.pure within₁ [])
  | some read =>
    obtain ⟨trail₁, taken, within₁, moved, rfl⟩ := matchSymbol_some within comma
    have shorter := left_lt within₁ moved
    dsimp only
    rw [outcome_parseItems_more]
    refine .yes taken ((sum_arrives within₁).bind fun item trail₂ within₂ read => ?_)
    have round := Nat.lt_trans moved (moved_of_outcome read)
    have shorter' := left_lt within₂ round
    refine .after rfl ?_
    exact (moreItems_arrives (within₂.endRound round)).bind fun others trail₃ within₃ _ =>
      .pure within₃ _
termination_by 6 * (tokens.length - trail.position)

end

/-! ## Calls -/

theorem consumeKey_arrives (within : trail.Within tokens.length) :
    Arrives tokens (fun _ => Walk.consumeKey) trail (readKey (tokens.drop trail.position)) :=
  (consumeIdentifier_arrives within).bind fun _ _ within₁ _ =>
    (consumeSymbol_arrives .equals within₁).bind fun _ _ within₂ _ => .pure within₂ _

theorem argument_arrives (within : trail.Within tokens.length) :
    Arrives tokens Walk.argument trail (outcome (parseArgument (tokens.drop trail.position))) := by
  obtain ⟨trail₁, seen, within₁, same⟩ := isKey_sees within
  rw [← same] at seen ⊢
  unfold Walk.argument
  rw [outcome_parseArgument]
  cases key : ahead (takeKey? (tokens.drop trail₁.position)) with
  | none =>
    rw [key] at seen
    exact .no seen ((sum_arrives within₁).bind fun e trail₂ within₂ _ => .pure within₂ _)
  | some read =>
    rw [key] at seen
    have named := consumeKey_arrives within₁
    rw [readKey_of_ahead key] at named
    obtain ⟨trail₂, walked, within₂, tail⟩ := named.of_ok
    dsimp only
    rw [tail]
    exact .yes seen (.after walked
      ((sum_arrives within₂).bind fun e trail₃ within₃ _ => .pure within₃ _))

theorem argumentList_arrives {trail : Trail} (within : trail.Within tokens.length) :
    Arrives tokens Walk.argumentList trail
      (outcome (parseArgumentList (tokens.drop trail.position))) := by
  refine .of_less ?_
  simp only [Walk.argumentList]
  rw [outcome_parseArgumentList]
  refine .after rfl ((argument_arrives within).bind fun first trail₁ within₁ read => ?_)
  have moved := moved_of_outcome read
  dsimp only
  cases comma : ahead (takeSymbol? .comma (tokens.drop trail₁.position)) with
  | none =>
    obtain ⟨trail₂, seen, within₂, same⟩ := matchSymbol_none within₁ comma
    rw [← same] at moved ⊢
    refine .after seen (.after rfl ?_)
    simp only [Bool.false_eq_true, if_false]
    exact .pure (within₂.endRound moved) _
  | some read =>
    obtain ⟨trail₂, taken, within₂, further, rfl⟩ := matchSymbol_some within₁ comma
    have round := Nat.lt_trans moved further
    have shorter := left_lt within₂ round
    refine .after taken (.after rfl ?_)
    simp only [if_true]
    exact (argumentList_arrives (within₂.endRound round)).bind fun others trail₃ within₃ _ =>
      .pure within₃ _
termination_by tokens.length - trail.position

theorem arguments_arrives (within : trail.Within tokens.length) :
    Arrives tokens Walk.arguments trail (readCallArguments (tokens.drop trail.position)) := by
  obtain ⟨trail₁, seen, within₁, same⟩ := isSymbol_sees .rightParen within
  rw [← same] at seen ⊢
  unfold Walk.arguments
  rw [readCallArguments]
  cases close : ahead (takeSymbol? .rightParen (tokens.drop trail₁.position)) with
  | none =>
    rw [close] at seen
    exact .no seen (argumentList_arrives within₁)
  | some read =>
    rw [close] at seen
    exact .yes seen (.pure within₁ [])

theorem head_arrives (within : trail.Within tokens.length) :
    Arrives tokens Walk.head trail (outcome (parseHead (tokens.drop trail.position))) := by
  obtain ⟨trail₁, seen, within₁, same⟩ := lookAt_sees within
  unfold Walk.head
  rw [outcome_parseHead_closed, ← same]
  exact .after seen ((consumeIdentifier_arrives within₁).bind fun _ _ within₂ _ =>
    (consumeSymbol_arrives .leftParen within₂).bind fun _ _ within₃ _ =>
    (arguments_arrives within₃).bind fun _ _ within₄ _ =>
    (consumeSymbol_arrives .rightParen within₄).bind fun _ _ within₅ _ => .pure within₅ _)

/-! ## Statements -/

theorem assignment_arrives (within : trail.Within tokens.length) :
    Arrives tokens Walk.assignment trail (readAssignment (tokens.drop trail.position)) :=
  (consumeKey_arrives within).bind fun _ _ within₁ _ =>
    (sum_arrives within₁).bind fun _ _ within₂ _ =>
    (consumeSymbol_arrives .semicolon within₂).bind fun _ _ within₃ _ => .pure within₃ _

theorem range_arrives (counter : String) (within : trail.Within tokens.length) :
    Arrives tokens (Walk.range counter) trail
      (outcome (parseRange counter (tokens.drop trail.position))) := by
  unfold Walk.range
  rw [outcome_parseRange]
  refine (consumeSymbol_arrives .leftBracket within).bind fun _ _ within₁ _ =>
    (sum_arrives within₁).bind fun start _ within₂ _ =>
    (consumeSymbol_arrives .colon within₂).bind fun _ _ within₃ _ =>
    (sum_arrives within₃).bind fun second trail₄ within₄ _ => ?_
  dsimp only
  cases colon : ahead (takeSymbol? .colon (tokens.drop trail₄.position)) with
  | none =>
    obtain ⟨trail₅, seen, within₅, same⟩ := matchSymbol_none within₄ colon
    rw [← same]
    exact .no seen ((consumeSymbol_arrives .rightBracket within₅).bind fun _ _ within₆ _ =>
      .pure within₆ _)
  | some read =>
    obtain ⟨trail₅, taken, within₅, -, rfl⟩ := matchSymbol_some within₄ colon
    exact .yes taken ((sum_arrives within₅).bind fun third _ within₆ _ =>
      (consumeSymbol_arrives .rightBracket within₆).bind fun _ _ within₇ _ => .pure within₇ _)

theorem loopHead_arrives (within : trail.Within tokens.length) :
    Arrives tokens Walk.loopHead trail (outcome (parseLoopHead (tokens.drop trail.position))) := by
  unfold Walk.loopHead
  rw [outcome_parseLoopHead]
  exact (consumeSymbol_arrives .leftParen within).bind fun _ _ within₁ _ =>
    (consumeIdentifier_arrives within₁).bind fun _ _ within₂ _ =>
    (consumeSymbol_arrives .equals within₂).bind fun _ _ within₃ _ =>
    (range_arrives _ within₃).bind fun _ _ within₄ _ =>
    (consumeSymbol_arrives .rightParen within₄).bind fun _ _ within₅ _ => .pure within₅ _

theorem callEnd_arrives (block : Option (List Stmt)) (within : trail.Within tokens.length) :
    Arrives tokens (fun _ => Walk.callEnd block) trail
      (readCallEnd block (tokens.drop trail.position)) := by
  cases block with
  | none => exact consumeSymbol_arrives .semicolon within
  | some body =>
    rw [readCallEnd]
    cases semicolon : ahead (takeSymbol? .semicolon (tokens.drop trail.position)) with
    | none =>
      obtain ⟨trail₁, seen, within₁, same⟩ := matchSymbol_none within semicolon
      rw [← same]
      exact .after seen (.pure within₁ ())
    | some read =>
      obtain ⟨trail₁, taken, within₁, -, rfl⟩ := matchSymbol_some within semicolon
      exact .after taken (.pure within₁ ())

mutual

theorem statement_arrives {trail : Trail} (within : trail.Within tokens.length) :
    Arrives tokens Walk.statement trail
      (outcome (parseStatement (tokens.drop trail.position))) := by
  obtain ⟨trail₁, seen, within₁, same⟩ := isFor_sees within
  rw [← same] at seen ⊢
  refine .of_less ?_
  simp only [Walk.statement]
  cases isFor : ahead (takeFor? (tokens.drop trail₁.position)) with
  | some read =>
    rw [isFor] at seen
    rw [outcome_parseStatement_for isFor]
    exact .yes seen (loop_arrives within₁)
  | none =>
    rw [isFor] at seen
    refine .no seen ?_
    obtain ⟨trail₂, seen', within₂, same'⟩ := isKey_sees within₁
    rw [← same'] at seen' isFor ⊢
    cases key : ahead (takeKey? (tokens.drop trail₂.position)) with
    | some read =>
      rw [key] at seen'
      rw [outcome_parseStatement_key isFor key]
      exact .yes seen' (assignment_arrives within₂)
    | none =>
      rw [key] at seen'
      rw [outcome_parseStatement_other isFor key]
      exact .no seen' ((invocation_arrives within₂).bind fun call trail₃ within₃ _ =>
        (callEnd_arrives call.2 within₃).bind fun _ trail₄ within₄ _ => .pure within₄ _)
termination_by 6 * (tokens.length - trail.position) + 1

theorem loop_arrives {trail : Trail} (within : trail.Within tokens.length) :
    Arrives tokens Walk.loop trail (readLoop (tokens.drop trail.position)) := by
  refine .of_less ?_
  simp only [Walk.loop]
  rw [readLoop]
  refine (consumeFor_arrives within).bind fun _ trail₁ within₁ read => ?_
  refine (loopHead_arrives within₁).bind fun head trail₂ within₂ read' => ?_
  have moved := moved_of_fewer (shortens_readFor _ _ _ read)
  have shorter := left_lt within₂ (Nat.lt_trans moved (moved_of_outcome read'))
  exact (block_arrives within₂).bind fun body trail₃ within₃ _ => .pure within₃ _
termination_by 6 * (tokens.length - trail.position)

theorem block_arrives {trail : Trail} (within : trail.Within tokens.length) :
    Arrives tokens Walk.block trail (outcome (parseBlock (tokens.drop trail.position))) := by
  refine .of_less ?_
  simp only [Walk.block]
  rw [outcome_parseBlock]
  refine (consumeSymbol_arrives .leftBrace within).bind fun _ trail₁ within₁ read => ?_
  have shorter := left_lt within₁ (moved_of_outcome read)
  exact blockRest_arrives within₁
termination_by 6 * (tokens.length - trail.position)

theorem blockRest_arrives {trail : Trail} (within : trail.Within tokens.length) :
    Arrives tokens Walk.blockRest trail
      (outcome (parseBlockRest (tokens.drop trail.position))) := by
  refine .of_less ?_
  simp only [Walk.blockRest]
  rw [outcome_parseBlockRest]
  refine .after rfl ?_
  cases close : ahead (takeSymbol? .rightBrace (tokens.drop trail.position)) with
  | some read =>
    obtain ⟨trail₁, taken, within₁, -, rfl⟩ := matchSymbol_some within close
    exact .yes taken (.pure within₁ [])
  | none =>
    obtain ⟨trail₁, seen, within₁, same⟩ := matchSymbol_none within close
    refine .no seen ?_
    obtain ⟨trail₂, seen', within₂, same'⟩ := isEnd_sees within₁
    rw [← same'] at seen' same
    rw [← same]
    dsimp only
    by_cases ended : tokens.drop trail₂.position = []
    · rw [ended] at seen'
      rw [if_pos ended]
      obtain ⟨trail₃, seen'', within₃, same''⟩ := lookAt_sees within₂
      exact .yes seen' (.after seen'' (fail_arrives within₃ _ (same''.symm ▸ ended)))
    · rw [if_neg ended]
      rw [show (tokens.drop trail₂.position).head?.isNone = false by simpa using ended] at seen'
      refine .no seen' ((statement_arrives within₂).bind fun first trail₃ within₃ read => ?_)
      have round := moved_of_outcome read
      have shorter := left_lt within₃ (same ▸ round)
      exact .after rfl ((blockRest_arrives (within₃.endRound round)).bind
        fun others trail₄ within₄ _ => .pure within₄ _)
termination_by 6 * (tokens.length - trail.position) + 2

theorem invocation_arrives {trail : Trail} (within : trail.Within tokens.length) :
    Arrives tokens Walk.invocation trail (readInvocation (tokens.drop trail.position)) := by
  refine .of_less ?_
  simp only [Walk.invocation]
  rw [readInvocation]
  refine (head_arrives within).bind fun head trail₁ within₁ read => ?_
  have shorter := left_lt within₁ (moved_of_outcome read)
  obtain ⟨trail₂, seen, within₂, same⟩ := isSymbol_sees .leftBrace within₁
  rw [← same] at seen shorter ⊢
  dsimp only
  cases brace : ahead (takeSymbol? .leftBrace (tokens.drop trail₂.position)) with
  | none =>
    rw [brace] at seen
    exact .no seen (.pure within₂ _)
  | some read =>
    rw [brace] at seen
    exact .yes seen ((block_arrives within₂).bind fun body trail₃ within₃ _ => .pure within₃ _)
termination_by 6 * (tokens.length - trail.position)

end

theorem program_arrives {trail : Trail} (within : trail.Within tokens.length) :
    Arrives tokens Walk.program trail (readProgram (tokens.drop trail.position)) := by
  refine .of_less ?_
  simp only [Walk.program]
  refine .after rfl ?_
  obtain ⟨trail₁, seen, within₁, same⟩ := isEnd_sees within
  rw [← same] at seen ⊢
  match front : tokens.drop trail₁.position with
  | [] =>
    have ended := Arrives.pure within₁ ([] : Program)
    rw [front] at seen ended
    rw [readProgram_nil]
    exact .yes seen ended
  | t :: rest =>
    rw [front] at seen
    rw [readProgram_cons, ← front]
    refine .no seen ((statement_arrives within₁).bind fun first trail₂ within₂ read => ?_)
    have round := moved_of_outcome read
    have shorter := left_lt within₂ (same ▸ round)
    exact .after rfl ((program_arrives (within₂.endRound round)).bind
      fun others trail₃ within₃ _ => .pure within₃ _)
termination_by tokens.length - trail.position

/-! ## Rules -/

theorem rule_arrives (rule : Rule) (within : trail.Within tokens.length) :
    Arrives tokens rule.walk trail (rule.read (tokens.drop trail.position)) := by
  cases rule with
  | statement => exact statement_arrives within
  | assignment => exact assignment_arrives within
  | loop => exact loop_arrives within
  | block => exact block_arrives within
  | invocation => exact invocation_arrives within
  | arguments => exact arguments_arrives within
  | expression => exact sum_arrives within
  | product => exact product_arrives within
  | unary => exact unary_arrives within
  | primary => exact primary_arrives within
  | array => exact array_arrives within

theorem moved_of_read {rule : Rule} {tree : rule.Tree} {i : Nat} (before : i ≤ tokens.length)
    (read : rule.read (tokens.drop i) = .ok (tree, tokens.drop trail.position)) :
    i < trail.position ∨ rule = .arguments ∧ i = trail.position := by
  by_cases arguments : rule = .arguments
  · subst arguments
    have fewer := readCallArguments_le read
    rw [List.length_drop, List.length_drop] at fewer
    have moved : i ≤ trail.position := by omega
    exact (Nat.lt_or_eq_of_le moved).imp_right fun still => ⟨rfl, still⟩
  · exact .inl (moved_of_fewer (rule.shortens_read arguments _ _ _ read))

/-- Walked from any position up to the end, each rule comes to an end with what the parser reads. It
has looked at nothing beyond the end, and each round that its loops completed has read a token. If
it succeeds, it stands further on than it began, and not beyond the end; a list of arguments may be
empty. So a walk over the whole script ends, and gives what parsing gives. -/
theorem rules_end_and_advance (stream : TokenStream) :
    (∀ (rule : Rule) (i : Nat), i ≤ stream.tokens.length → ∃ result trail,
      Walk.Ends rule.walk stream.tokens (.starting i) result trail ∧
      trail.Within stream.tokens.length ∧
      rule.read (stream.tokens.drop i) =
        result.map (fun tree => (tree, stream.tokens.drop trail.position)) ∧
      ∀ tree, result = .ok tree →
        i < trail.position ∨ rule = .arguments ∧ i = trail.position) ∧
    ∃ result trail, Walk.Ends Walk.program stream.tokens (.starting 0) result trail ∧
      trail.Within stream.tokens.length ∧
      stream.parse = result.mapError (Fault.toError stream.finish) ∧
      ∀ program, result = .ok program → trail.position = stream.tokens.length := by
  constructor
  · intro rule i before
    obtain ⟨result, trail, walked, within, same⟩ :=
      rule_arrives rule (Trail.within_starting before)
    refine ⟨result, trail, walked, within, same, ?_⟩
    rintro tree rfl
    exact moved_of_read before same
  · obtain ⟨result, trail, walked, within, same⟩ : Arrives stream.tokens Walk.program _ _ :=
      program_arrives (Trail.within_starting (Nat.zero_le _))
    obtain ⟨same, ended⟩ := readProgram_eq_map_iff.mp same
    refine ⟨result, trail, walked, within, ?_, fun program succeeds => ?_⟩
    · exact congrArg (Except.mapError (Fault.toError stream.finish)) same
    · exact Nat.le_antisymm within.position_le (List.drop_eq_nil_iff.mp (ended program succeeds))

theorem openUnion_block_read :
    Rule.read .block (openUnion.tokens.drop 3) = .error ⟨.closingBrace, []⟩ := by
  have value := Sum.product (.unary (.primary (.number "1" ⟨1, 15⟩)))
  have inner := Statement.assign ⟨1, 11⟩ ⟨1, 13⟩ ⟨1, 16⟩ (show "x" ≠ "for" by decide) value
  refine (outcome_parseBlock _).trans ?_
  exact parseBlockRest_statements (.cons inner .nil)

theorem openUnion_block_ends : 3 ≤ openUnion.tokens.length ∧ ∃ trail,
    Walk.Ends (Rule.walk .block) openUnion.tokens (.starting 3) (.error ⟨.closingBrace, []⟩) trail ∧
      trail.Within 8 := by
  have before : 3 ≤ openUnion.tokens.length := by decide
  obtain ⟨result, trail, walked, within, same, -⟩ :=
    (rules_end_and_advance openUnion).1 .block 3 before
  rw [openUnion_block_read] at same
  cases result with
  | error fault =>
    cases same
    exact ⟨before, trail, walked, within⟩
  | ok body => cases same

end SolidScript.Proofs
