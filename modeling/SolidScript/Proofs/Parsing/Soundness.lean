import SolidScript.Proofs.Bindings
import SolidScript.Proofs.Parsing.Grammar
import SolidScript.Proofs.Parsing.Outcome

namespace SolidScript.Proofs
open Grammar

theorem length_lt_of_outcome {α : Type} {n : Nat} {p : Except Fault (Parsed α n)} {a : α}
    {rest : List Token} (read : outcome p = .ok (a, rest)) : rest.length < n := by
  obtain ⟨parsed, -, same⟩ := map_eq_ok.mp read
  cases same
  exact parsed.fits

theorem primary_ofName (name : String) (p : Position) :
    Primary [.identifier name p] (.ofName name) := by
  unfold Expr.ofName
  split
  · exact .truth p
  · exact .falsity p
  · rename_i noTruth noFalsity
    exact .var p noTruth noFalsity

theorem sumOperator?_eq_some {lexeme : Lexeme} {op : Operator} (found : sumOperator? lexeme = some op) :
    lexeme = .symbol op.symbol ∧ (op = .add ∨ op = .sub) := by
  unfold sumOperator? at found
  split at found <;> cases found <;> simp [Operator.symbol]

theorem productOperator?_eq_some {lexeme : Lexeme} {op : Operator}
    (found : productOperator? lexeme = some op) :
    lexeme = .symbol op.symbol ∧ (op = .mul ∨ op = .div) := by
  unfold productOperator? at found
  split at found <;> cases found <;> simp [Operator.symbol]

/-! ## Expressions -/

mutual

theorem parsePrimary_sound (ts : List Token) {e : Expr} {rest : List Token}
    (read : outcome (parsePrimary ts) = .ok (e, rest)) :
    ∃ used, ts = used ++ rest ∧ Primary used e := by
  match ts with
  | [] => rw [parsePrimary] at read; cases read
  | ⟨.number numeral, p⟩ :: ts =>
    rw [outcome_parsePrimary_number] at read
    cases read
    exact ⟨[_], rfl, .number numeral p⟩
  | ⟨.identifier name, p⟩ :: ts =>
    rw [outcome_parsePrimary_identifier] at read
    cases read
    exact ⟨[_], rfl, primary_ofName name p⟩
  | ⟨.symbol .leftParen, p⟩ :: ts =>
    simp only [outcome_parsePrimary_paren, bind_eq_ok, Prod.exists, outcome_takeSymbol_eq_ok_iff,
      pure_eq_ok, Prod.mk.injEq] at read
    obtain ⟨e, rest, first, -, rest, ⟨q, rfl⟩, rfl, rfl⟩ := read
    obtain ⟨used, rfl, derived⟩ := parseSum_sound ts first
    exact ⟨_, by simp, .paren p q derived⟩
  | ⟨.symbol .leftBracket, p⟩ :: ts =>
    rw [outcome_parsePrimary_bracket] at read
    cases empty : ahead (takeSymbol? .rightBracket ts) with
    | some pair =>
      obtain ⟨q, rfl⟩ := ahead_takeSymbol?_eq_some_iff.mp empty
      rw [empty] at read
      cases read
      exact ⟨_, by simp, .emptyArray p q⟩
    | none =>
      simp only [empty, bind_eq_ok, Prod.exists, outcome_takeSymbol_eq_ok_iff, pure_eq_ok,
        Prod.mk.injEq] at read
      obtain ⟨items, rest, first, -, rest, ⟨q, rfl⟩, rfl, rfl⟩ := read
      obtain ⟨used, rfl, derived⟩ := parseItems_sound ts first
      exact ⟨_, by simp, .array p q derived⟩
  | ⟨.symbol .rightParen, p⟩ :: ts | ⟨.symbol .leftBrace, p⟩ :: ts
  | ⟨.symbol .rightBrace, p⟩ :: ts | ⟨.symbol .rightBracket, p⟩ :: ts
  | ⟨.symbol .comma, p⟩ :: ts | ⟨.symbol .colon, p⟩ :: ts | ⟨.symbol .semicolon, p⟩ :: ts
  | ⟨.symbol .equals, p⟩ :: ts | ⟨.symbol .plus, p⟩ :: ts | ⟨.symbol .minus, p⟩ :: ts
  | ⟨.symbol .star, p⟩ :: ts | ⟨.symbol .slash, p⟩ :: ts => rw [parsePrimary] at read; cases read
termination_by (ts.length, 0)

theorem parseItems_sound (ts : List Token) {items : List Expr} {rest : List Token}
    (read : outcome (parseItems ts) = .ok (items, rest)) :
    ∃ used, ts = used ++ rest ∧ Items used items := by
  rw [outcome_parseItems] at read
  simp only [bind_eq_ok, Prod.exists] at read
  obtain ⟨item, rest₁, first, read⟩ := read
  obtain ⟨used, same, derived⟩ := parseSum_sound ts first
  have shorter := length_lt_of_outcome first
  cases comma : ahead (takeSymbol? .comma rest₁) with
  | none =>
    rw [comma] at read
    cases read
    exact ⟨used, same, .one derived⟩
  | some pair =>
    obtain ⟨p, rfl⟩ := ahead_takeSymbol?_eq_some_iff.mp comma
    simp only [comma, bind_eq_ok, Prod.exists, pure_eq_ok, Prod.mk.injEq] at read
    obtain ⟨others, rest, more, rfl, rfl⟩ := read
    rw [List.length_cons] at shorter
    obtain ⟨used', same', derived'⟩ := parseItems_sound pair.2 more
    exact ⟨_, by simp [same, same'], .more p derived derived'⟩
termination_by (ts.length, 4)

theorem parseUnary_sound (ts : List Token) {e : Expr} {rest : List Token}
    (read : outcome (parseUnary ts) = .ok (e, rest)) :
    ∃ used, ts = used ++ rest ∧ Unary used e := by
  rw [outcome_parseUnary] at read
  cases minus : ahead (takeSymbol? .minus ts) with
  | none =>
    rw [minus] at read
    obtain ⟨used, same, derived⟩ := parsePrimary_sound ts read
    exact ⟨used, same, .primary derived⟩
  | some pair =>
    obtain ⟨p, rfl⟩ := ahead_takeSymbol?_eq_some_iff.mp minus
    simp only [minus, bind_eq_ok, Prod.exists, pure_eq_ok, Prod.mk.injEq] at read
    obtain ⟨operand, rest, more, rfl, rfl⟩ := read
    obtain ⟨used, same, derived⟩ := parseUnary_sound pair.2 more
    exact ⟨_, by simp [same], .minus p derived⟩
termination_by (ts.length, 1)

theorem parseProduct_sound (ts : List Token) {e : Expr} {rest : List Token}
    (read : outcome (parseProduct ts) = .ok (e, rest)) :
    ∃ used, ts = used ++ rest ∧ Product used e := by
  simp only [outcome_parseProduct, bind_eq_ok, Prod.exists] at read
  obtain ⟨left, rest₁, first, read⟩ := read
  obtain ⟨used, same, derived⟩ := parseUnary_sound ts first
  have shorter := length_lt_of_outcome first
  obtain ⟨used', same', derived'⟩ := parseFactors_sound rest₁ (.unary derived) read
  exact ⟨used ++ used', by simp [same, same'], derived'⟩
termination_by (ts.length, 2)

theorem parseFactors_sound (ts : List Token) {before : List Token} {left e : Expr}
    {rest : List Token} (done : Product before left)
    (read : outcome (parseFactors left ts) = .ok (e, rest)) :
    ∃ used, ts = used ++ rest ∧ Product (before ++ used) e := by
  match ts with
  | [] =>
    rw [outcome_parseFactors_nil] at read
    cases read
    exact ⟨[], rfl, by simpa using done⟩
  | ⟨lexeme, p⟩ :: ts =>
    rw [outcome_parseFactors_cons] at read
    cases operator : productOperator? lexeme with
    | none =>
      rw [operator] at read
      cases read
      exact ⟨[], rfl, by simpa using done⟩
    | some op =>
      simp only [operator, bind_eq_ok, Prod.exists] at read
      obtain ⟨right, rest₁, first, read⟩ := read
      obtain ⟨used, same, derived⟩ := parseUnary_sound ts first
      have shorter := length_lt_of_outcome first
      obtain ⟨rfl, level⟩ := productOperator?_eq_some operator
      obtain ⟨used', same', derived'⟩ := parseFactors_sound rest₁ (.more p level done derived) read
      exact ⟨.symbol op.symbol p :: used ++ used', by simp [same, same'], by simpa using derived'⟩
termination_by (ts.length, 0)

theorem parseSum_sound (ts : List Token) {e : Expr} {rest : List Token}
    (read : outcome (parseSum ts) = .ok (e, rest)) :
    ∃ used, ts = used ++ rest ∧ Sum used e := by
  simp only [outcome_parseSum, bind_eq_ok, Prod.exists] at read
  obtain ⟨left, rest₁, first, read⟩ := read
  obtain ⟨used, same, derived⟩ := parseProduct_sound ts first
  have shorter := length_lt_of_outcome first
  obtain ⟨used', same', derived'⟩ := parseTerms_sound rest₁ (.product derived) read
  exact ⟨used ++ used', by simp [same, same'], derived'⟩
termination_by (ts.length, 3)

theorem parseTerms_sound (ts : List Token) {before : List Token} {left e : Expr}
    {rest : List Token} (done : Sum before left)
    (read : outcome (parseTerms left ts) = .ok (e, rest)) :
    ∃ used, ts = used ++ rest ∧ Sum (before ++ used) e := by
  match ts with
  | [] =>
    rw [outcome_parseTerms_nil] at read
    cases read
    exact ⟨[], rfl, by simpa using done⟩
  | ⟨lexeme, p⟩ :: ts =>
    rw [outcome_parseTerms_cons] at read
    cases operator : sumOperator? lexeme with
    | none =>
      rw [operator] at read
      cases read
      exact ⟨[], rfl, by simpa using done⟩
    | some op =>
      simp only [operator, bind_eq_ok, Prod.exists] at read
      obtain ⟨right, rest₁, first, read⟩ := read
      obtain ⟨used, same, derived⟩ := parseProduct_sound ts first
      have shorter := length_lt_of_outcome first
      obtain ⟨rfl, level⟩ := sumOperator?_eq_some operator
      obtain ⟨used', same', derived'⟩ := parseTerms_sound rest₁ (.more p level done derived) read
      exact ⟨.symbol op.symbol p :: used ++ used', by simp [same, same'], by simpa using derived'⟩
termination_by (ts.length, 0)

end

/-! ## Calls -/

theorem collects_ofArguments (name : String) (arguments : List Argument) (p : Position) :
    Collects arguments (Head.ofArguments name arguments p).positional
      (Head.ofArguments name arguments p).named where
  inOrder := by
    rw [Head.ofArguments]
    congr 1
  firstPlace := by
    rw [← Bindings.keys_ofPairs, Head.ofArguments]
    congr 3
  lastValue key := by
    rw [← Bindings.get?_ofPairs, Head.ofArguments]
    congr 3

theorem parseArgument_sound {ts : List Token} {argument : Argument} {rest : List Token}
    (read : outcome (parseArgument ts) = .ok (argument, rest)) :
    ∃ used, ts = used ++ rest ∧ Arg used argument := by
  rw [outcome_parseArgument] at read
  cases named : ahead (takeKey? ts) with
  | none =>
    simp only [named, bind_eq_ok, Prod.exists, pure_eq_ok, Prod.mk.injEq] at read
    obtain ⟨e, rest, first, rfl, rfl⟩ := read
    obtain ⟨used, same, derived⟩ := parseSum_sound ts first
    exact ⟨used, same, .positional derived⟩
  | some pair =>
    obtain ⟨p, q, rfl⟩ := ahead_takeKey?_eq_some_iff.mp named
    simp only [named, bind_eq_ok, Prod.exists, pure_eq_ok, Prod.mk.injEq] at read
    obtain ⟨e, rest, first, rfl, rfl⟩ := read
    obtain ⟨used, same, derived⟩ := parseSum_sound pair.2 first
    exact ⟨_, by simp [same], .named pair.1 p q derived⟩

theorem parseArgumentList_sound (ts : List Token) {arguments : List Argument} {rest : List Token}
    (read : outcome (parseArgumentList ts) = .ok (arguments, rest)) :
    ∃ used, ts = used ++ rest ∧ ArgList used arguments := by
  rw [outcome_parseArgumentList] at read
  simp only [bind_eq_ok, Prod.exists] at read
  obtain ⟨argument, rest₁, first, read⟩ := read
  obtain ⟨used, same, derived⟩ := parseArgument_sound first
  have shorter := length_lt_of_outcome first
  cases comma : ahead (takeSymbol? .comma rest₁) with
  | none =>
    rw [comma] at read
    cases read
    exact ⟨used, same, .one derived⟩
  | some pair =>
    obtain ⟨p, rfl⟩ := ahead_takeSymbol?_eq_some_iff.mp comma
    simp only [comma, bind_eq_ok, Prod.exists, pure_eq_ok, Prod.mk.injEq] at read
    obtain ⟨others, rest, more, rfl, rfl⟩ := read
    rw [List.length_cons] at shorter
    obtain ⟨used', same', derived'⟩ := parseArgumentList_sound pair.2 more
    exact ⟨_, by simp [same, same'], .more p derived derived'⟩
termination_by ts.length

theorem parseArguments_sound {ts : List Token} {arguments : List Argument} {rest : List Token}
    (read : outcome (parseArguments ts) = .ok (arguments, rest)) :
    ∃ used p, ts = used ++ .symbol .rightParen p :: rest ∧ Args used arguments := by
  rw [outcome_parseArguments] at read
  cases empty : ahead (takeSymbol? .rightParen ts) with
  | some pair =>
    obtain ⟨p, rfl⟩ := ahead_takeSymbol?_eq_some_iff.mp empty
    rw [empty] at read
    cases read
    exact ⟨[], p, rfl, .none⟩
  | none =>
    simp only [empty, bind_eq_ok, Prod.exists, outcome_takeSymbol_eq_ok_iff, pure_eq_ok,
      Prod.mk.injEq] at read
    obtain ⟨arguments, rest, first, -, rest, ⟨p, rfl⟩, rfl, rfl⟩ := read
    obtain ⟨used, same, derived⟩ := parseArgumentList_sound ts first
    exact ⟨used, p, same, .some derived⟩

theorem parseHead_sound {ts : List Token} {head : Head} {rest : List Token}
    (read : outcome (parseHead ts) = .ok (head, rest)) :
    ∃ used, ts = used ++ rest ∧ Invocation used head := by
  simp only [outcome_parseHead, bind_eq_ok, Prod.exists, outcome_takeIdentifier_eq_ok_iff,
    outcome_takeSymbol_eq_ok_iff, pure_eq_ok, Prod.mk.injEq] at read
  obtain ⟨name, p, rest₁, rfl, -, rest₂, ⟨q, rfl⟩, arguments, rest, inner, rfl, rfl⟩ := read
  obtain ⟨used, r, rfl, derived⟩ := parseArguments_sound inner
  exact ⟨_, by simp, .call name p q r derived (collects_ofArguments name arguments p)⟩

/-! ## Statements -/

theorem parseRange_sound {counter : String} {ts : List Token} {head : LoopHead} {rest : List Token}
    (read : outcome (parseRange counter ts) = .ok (head, rest)) :
    head.counter = counter ∧
      ∃ used, ts = used ++ rest ∧ Range used head.start head.step head.finish := by
  simp only [outcome_parseRange, bind_eq_ok, Prod.exists, outcome_takeSymbol_eq_ok_iff] at read
  obtain ⟨-, rest₁, ⟨p, rfl⟩, start, rest₂, first, -, rest₃, ⟨q, rfl⟩, second, rest₄, next, read⟩ :=
    read
  obtain ⟨as, rfl, derived⟩ := parseSum_sound rest₁ first
  obtain ⟨bs, rfl, derived'⟩ := parseSum_sound rest₃ next
  cases more : ahead (takeSymbol? .colon rest₄) with
  | none =>
    simp only [more, bind_eq_ok, Prod.exists, outcome_takeSymbol_eq_ok_iff, pure_eq_ok,
      Prod.mk.injEq] at read
    obtain ⟨-, rest, ⟨r, rfl⟩, rfl, rfl⟩ := read
    exact ⟨rfl, _, by simp, .two p q r derived derived'⟩
  | some pair =>
    obtain ⟨r, rfl⟩ := ahead_takeSymbol?_eq_some_iff.mp more
    simp only [more, bind_eq_ok, Prod.exists, outcome_takeSymbol_eq_ok_iff, pure_eq_ok,
      Prod.mk.injEq] at read
    obtain ⟨third, rest₅, last, -, rest, ⟨s, rfl⟩, rfl, rfl⟩ := read
    obtain ⟨cs, same, derived''⟩ := parseSum_sound pair.2 last
    exact ⟨rfl, _, by simp [same], .three p q r s derived derived' derived''⟩

theorem parseLoopHead_sound {ts : List Token} {head : LoopHead} {rest : List Token}
    (read : outcome (parseLoopHead ts) = .ok (head, rest)) :
    ∃ used q r s t, ts = .symbol .leftParen q :: .identifier head.counter r :: .symbol .equals s ::
      used ++ .symbol .rightParen t :: rest ∧ Range used head.start head.step head.finish := by
  simp only [outcome_parseLoopHead, bind_eq_ok, Prod.exists, outcome_takeIdentifier_eq_ok_iff,
    outcome_takeSymbol_eq_ok_iff, pure_eq_ok, Prod.mk.injEq] at read
  obtain ⟨-, rest₁, ⟨q, rfl⟩, counter, r, rest₂, rfl, -, rest₃, ⟨s, rfl⟩, head, rest₄, range, -,
    rest, ⟨t, rfl⟩, rfl, rfl⟩ := read
  obtain ⟨rfl, used, rfl, derived⟩ := parseRange_sound range
  exact ⟨used, q, r, s, t, by simp, derived⟩

theorem name_ne_for {ts : List Token} {head : Head} {rest : List Token}
    (call : Invocation ts head) (loop : ahead (takeFor? (ts ++ rest)) = none) :
    head.name ≠ "for" := by
  rintro same
  cases call with
  | call name p q r args kept =>
    cases same
    simp at loop

mutual

theorem parseStatement_sound (ts : List Token) {s : Stmt} {rest : List Token}
    (read : outcome (parseStatement ts) = .ok (s, rest)) :
    ∃ used, ts = used ++ rest ∧ Statement used s := by
  rw [outcome_parseStatement] at read
  cases loop : ahead (takeFor? ts) with
  | some pair =>
    obtain ⟨p, word⟩ := ahead_takeFor?_eq_some_iff.mp loop
    simp only [loop, bind_eq_ok, Prod.exists, pure_eq_ok, Prod.mk.injEq] at read
    obtain ⟨head, rest₁, first, body, rest, block, rfl, rfl⟩ := read
    obtain ⟨range, q, r, s, t, same, derived⟩ := parseLoopHead_sound first
    have shorter : rest₁.length < ts.length := by
      have := length_lt_of_outcome first
      rw [word, List.length_cons]
      omega
    obtain ⟨used, rfl, derived'⟩ := parseBlock_sound rest₁ block
    exact ⟨_, by simp [word, same], .loop p q r s t derived derived'⟩
  | none =>
    rw [loop] at read
    dsimp only at read
    cases assigned : ahead (takeKey? ts) with
    | some pair =>
      obtain ⟨p, q, rfl⟩ := ahead_takeKey?_eq_some_iff.mp assigned
      simp only [assigned, bind_eq_ok, Prod.exists, outcome_takeSymbol_eq_ok_iff, pure_eq_ok,
        Prod.mk.injEq] at read
      obtain ⟨value, rest₁, first, -, rest, ⟨r, rfl⟩, rfl, rfl⟩ := read
      obtain ⟨used, same, derived⟩ := parseSum_sound pair.2 first
      refine ⟨_, by simp [same], .assign p q r ?_ derived⟩
      rintro plain
      rw [plain, ahead_takeFor?_self] at loop
      cases loop
    | none =>
      simp only [assigned, bind_eq_ok, Prod.exists, pure_eq_ok, Prod.mk.injEq] at read
      obtain ⟨head, rest₁, first, block, rest, ending, rfl, rfl⟩ := read
      have shorter := length_lt_of_outcome first
      obtain ⟨used, rfl, derived⟩ := parseHead_sound first
      exact parseCallEnd_sound rest₁ derived (name_ne_for derived loop) ending
termination_by (ts.length, 0)

theorem parseCallEnd_sound (ts : List Token) {before : List Token} {head : Head}
    {block : Option (List Stmt)} {rest : List Token} (call : Invocation before head)
    (plain : head.name ≠ "for") (read : outcome (parseCallEnd ts) = .ok (block, rest)) :
    ∃ used, before ++ ts = used ++ rest ∧ Statement used (.call head block) := by
  rw [outcome_parseCallEnd] at read
  cases opening : ahead (takeSymbol? .leftBrace ts) with
  | none =>
    simp only [opening, bind_eq_ok, Prod.exists, outcome_takeSymbol_eq_ok_iff, pure_eq_ok,
      Prod.mk.injEq] at read
    obtain ⟨-, rest, ⟨p, rfl⟩, rfl, rfl⟩ := read
    exact ⟨_, by simp, .call p plain call⟩
  | some pair =>
    obtain ⟨p, rfl⟩ := ahead_takeSymbol?_eq_some_iff.mp opening
    simp only [opening, bind_eq_ok, Prod.exists] at read
    obtain ⟨body, rest₁, inner, read⟩ := read
    obtain ⟨used, q, same, derived⟩ := parseBlockRest_sound pair.2 inner
    cases ending : ahead (takeSymbol? .semicolon rest₁) with
    | none =>
      rw [ending] at read
      cases read
      exact ⟨_, by simp [same], .callBlock plain call (.braces p q derived)⟩
    | some next =>
      obtain ⟨r, rfl⟩ := ahead_takeSymbol?_eq_some_iff.mp ending
      rw [ending] at read
      cases read
      exact ⟨_, by simp [same], .callBlockEnded r plain call (.braces p q derived)⟩
termination_by (ts.length, 0)

theorem parseBlock_sound (ts : List Token) {body : List Stmt} {rest : List Token}
    (read : outcome (parseBlock ts) = .ok (body, rest)) :
    ∃ used, ts = used ++ rest ∧ Block used body := by
  simp only [outcome_parseBlock, bind_eq_ok, Prod.exists, outcome_takeSymbol_eq_ok_iff] at read
  obtain ⟨-, rest₁, ⟨p, rfl⟩, inner⟩ := read
  obtain ⟨used, q, rfl, derived⟩ := parseBlockRest_sound rest₁ inner
  exact ⟨_, by simp, .braces p q derived⟩
termination_by (ts.length, 0)

theorem parseBlockRest_sound (ts : List Token) {body : List Stmt} {rest : List Token}
    (read : outcome (parseBlockRest ts) = .ok (body, rest)) :
    ∃ used p, ts = used ++ .symbol .rightBrace p :: rest ∧ Statements used body := by
  rw [outcome_parseBlockRest] at read
  cases closing : ahead (takeSymbol? .rightBrace ts) with
  | some pair =>
    obtain ⟨p, rfl⟩ := ahead_takeSymbol?_eq_some_iff.mp closing
    rw [closing] at read
    cases read
    exact ⟨[], p, rfl, .nil⟩
  | none =>
    rw [closing] at read
    dsimp only at read
    split at read
    · cases read
    · simp only [bind_eq_ok, Prod.exists, pure_eq_ok, Prod.mk.injEq] at read
      obtain ⟨statement, rest₁, first, statements, rest, more, rfl, rfl⟩ := read
      obtain ⟨used, same, derived⟩ := parseStatement_sound ts first
      have shorter := length_lt_of_outcome first
      obtain ⟨used', p, rfl, derived'⟩ := parseBlockRest_sound rest₁ more
      exact ⟨used ++ used', p, by simp [same], .cons derived derived'⟩
termination_by (ts.length, 1)

end

theorem parseStatements_sound (ts : List Token) {program : Program}
    (read : parseStatements ts = .ok program) : Statements ts program := by
  match ts with
  | [] =>
    rw [parseStatements] at read
    cases read
    exact .nil
  | t :: ts =>
    rw [parseStatements_cons] at read
    simp only [bind_eq_ok, Prod.exists, pure_eq_ok] at read
    obtain ⟨statement, rest, first, statements, more, rfl⟩ := read
    obtain ⟨used, same, derived⟩ := parseStatement_sound (t :: ts) first
    have shorter := length_lt_of_outcome first
    rw [same]
    exact .cons derived (parseStatements_sound rest more)
termination_by ts.length
decreasing_by exact shorter

end SolidScript.Proofs
