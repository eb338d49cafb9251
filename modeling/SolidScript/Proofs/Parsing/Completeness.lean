import SolidScript.Proofs.Parsing.Soundness

namespace SolidScript.Proofs
open Grammar

def Avoids (ss : List Symbol) (ts : List Token) : Prop :=
  ∀ t ∈ ts.head?, ∀ s ∈ ss, t.lexeme ≠ .symbol s

theorem avoids_nil (ss : List Symbol) : Avoids ss [] := by simp [Avoids]

theorem avoids_cons {ss : List Symbol} {t : Token} {ts : List Token} :
    Avoids ss (t :: ts) ↔ ∀ s ∈ ss, t.lexeme ≠ .symbol s := by simp [Avoids]

theorem Avoids.mono {ss ss' : List Symbol} {ts : List Token} (avoids : Avoids ss ts)
    (sub : ss' ⊆ ss) : Avoids ss' ts :=
  fun t first s member => avoids t first s (sub member)

theorem ahead_takeSymbol?_of_avoids {ss : List Symbol} {ts : List Token} (avoids : Avoids ss ts)
    {s : Symbol} (member : s ∈ ss) : ahead (takeSymbol? s ts) = none := by
  cases ts with
  | nil => rfl
  | cons t ts => exact ahead_takeSymbol?_of_ne (avoids_cons.mp avoids s member) ts

abbrev operators : List Symbol := [.plus, .minus, .star, .slash]

theorem outcome_parseFactors_of_avoids {rest : List Token} (avoids : Avoids [.star, .slash] rest)
    (left : Expr) : outcome (parseFactors left rest) = .ok (left, rest) := by
  cases rest with
  | nil => exact outcome_parseFactors_nil left
  | cons t rest =>
    rw [outcome_parseFactors_cons]
    cases operator : productOperator? t.lexeme with
    | none => rfl
    | some op =>
      obtain ⟨lexeme, level⟩ := productOperator?_eq_some operator
      have free := avoids_cons.mp avoids
      rcases level with rfl | rfl <;> simp [Operator.symbol] at lexeme <;> simp [lexeme] at free

theorem outcome_parseTerms_of_avoids {rest : List Token} (avoids : Avoids [.plus, .minus] rest)
    (left : Expr) : outcome (parseTerms left rest) = .ok (left, rest) := by
  cases rest with
  | nil => exact outcome_parseTerms_nil left
  | cons t rest =>
    rw [outcome_parseTerms_cons]
    cases operator : sumOperator? t.lexeme with
    | none => rfl
    | some op =>
      obtain ⟨lexeme, level⟩ := sumOperator?_eq_some operator
      have free := avoids_cons.mp avoids
      rcases level with rfl | rfl <;> simp [Operator.symbol] at lexeme <;> simp [lexeme] at free

theorem ahead_takeSymbol?_sum {ts : List Token} {e : Expr} (phrase : Sum ts e) {s : Symbol}
    (noParen : s ≠ .leftParen) (noBracket : s ≠ .leftBracket) (noMinus : s ≠ .minus)
    (rest : List Token) : ahead (takeSymbol? s (ts ++ rest)) = none := by
  obtain ⟨t, us, rfl, opens | minus⟩ := phrase.opens
  · exact ahead_takeSymbol?_of_ne (opens.lexeme_ne noParen noBracket) _
  · refine ahead_takeSymbol?_of_ne ?_ _
    rw [minus]
    simpa using noMinus.symm

theorem ahead_takeSymbol?_items {ts : List Token} {items : List Expr} (phrase : Items ts items)
    {s : Symbol} (noParen : s ≠ .leftParen) (noBracket : s ≠ .leftBracket) (noMinus : s ≠ .minus)
    (rest : List Token) : ahead (takeSymbol? s (ts ++ rest)) = none := by
  cases phrase with
  | one only => exact ahead_takeSymbol?_sum only noParen noBracket noMinus rest
  | more p first others =>
    rw [List.append_assoc]
    exact ahead_takeSymbol?_sum first noParen noBracket noMinus _

/-! ## Expressions -/

theorem ofName_of_ne {name : String} (noTruth : name ≠ "true") (noFalsity : name ≠ "false") :
    Expr.ofName name = .var name := by
  unfold Expr.ofName
  split
  · contradiction
  · contradiction
  · rfl

mutual

theorem parsePrimary_complete {ts : List Token} {e : Expr} :
    Primary ts e → ∀ rest, outcome (parsePrimary (ts ++ rest)) = .ok (e, rest)
  | .number numeral p, rest => outcome_parsePrimary_number numeral p rest
  | .truth p, rest => outcome_parsePrimary_identifier "true" p rest
  | .falsity p, rest => outcome_parsePrimary_identifier "false" p rest
  | .var p noTruth noFalsity, rest => by
    rw [← ofName_of_ne noTruth noFalsity]
    exact outcome_parsePrimary_identifier _ p rest
  | .paren p q inner, rest => by
    have free : Avoids operators (.symbol .rightParen q :: rest) := by simp [avoids_cons]
    have read := parseSum_complete inner (.symbol .rightParen q :: rest) (free.mono (by simp))
    rw [outcome_parseTerms_of_avoids (free.mono (by simp))] at read
    rw [List.append_assoc, List.cons_append, outcome_parsePrimary_paren, List.singleton_append, read]
    simp
  | .emptyArray p q, rest => by
    rw [List.cons_append, outcome_parsePrimary_bracket, List.singleton_append]
    simp
  | .array p q inner, rest => by
    have read := parseItems_complete inner (.symbol .rightBracket q :: rest) (by simp [avoids_cons])
    rw [List.append_assoc, List.cons_append, outcome_parsePrimary_bracket, List.singleton_append,
      ahead_takeSymbol?_items inner (by simp) (by simp) (by simp), read]
    simp

theorem parseItems_complete {ts : List Token} {items : List Expr} :
    Items ts items → ∀ rest, Avoids (.comma :: operators) rest →
      outcome (parseItems (ts ++ rest)) = .ok (items, rest)
  | .one only, rest, free => by
    have read := parseSum_complete only rest (free.mono (by simp))
    rw [outcome_parseTerms_of_avoids (free.mono (by simp))] at read
    rw [outcome_parseItems, read]
    simp [ahead_takeSymbol?_of_avoids free]
  | @Items.more _ us _ _ p first others, rest, free => by
    have free' : Avoids operators (.symbol .comma p :: (us ++ rest)) := by simp [avoids_cons]
    have read := parseSum_complete first (.symbol .comma p :: (us ++ rest)) (free'.mono (by simp))
    rw [outcome_parseTerms_of_avoids (free'.mono (by simp))] at read
    rw [List.append_assoc, List.cons_append, outcome_parseItems, read]
    simp [parseItems_complete others rest free]

theorem parseUnary_complete {ts : List Token} {e : Expr} :
    Unary ts e → ∀ rest, outcome (parseUnary (ts ++ rest)) = .ok (e, rest)
  | .primary only, rest => by
    have read := parsePrimary_complete only rest
    obtain ⟨t, us, rfl, opens⟩ := only.opens
    rw [outcome_parseUnary, List.cons_append,
      ahead_takeSymbol?_of_ne (opens.lexeme_ne (by simp) (by simp))]
    exact read
  | .minus p operand, rest => by
    rw [List.cons_append, outcome_parseUnary]
    simp [parseUnary_complete operand rest]

theorem parseProduct_complete {ts : List Token} {e : Expr} :
    Product ts e → ∀ rest, outcome (parseProduct (ts ++ rest)) = outcome (parseFactors e rest)
  | .unary only, rest => by
    rw [outcome_parseProduct, parseUnary_complete only rest]
    rfl
  | @Product.more _ _ _ _ op p level left right, rest => by
    have operator : productOperator? (.symbol op.symbol) = some op := by
      rcases level with rfl | rfl <;> rfl
    rw [List.append_assoc, List.cons_append, parseProduct_complete left, outcome_parseFactors_cons]
    simp [operator, parseUnary_complete right rest]

theorem parseSum_complete {ts : List Token} {e : Expr} :
    Sum ts e → ∀ rest, Avoids [.star, .slash] rest →
      outcome (parseSum (ts ++ rest)) = outcome (parseTerms e rest)
  | .product only, rest, free => by
    rw [outcome_parseSum, parseProduct_complete only rest, outcome_parseFactors_of_avoids free]
    rfl
  | @Sum.more _ rs _ _ op p level left right, rest, free => by
    have operator : sumOperator? (.symbol op.symbol) = some op := by
      rcases level with rfl | rfl <;> rfl
    have free' : Avoids [.star, .slash] (.symbol op.symbol p :: (rs ++ rest)) := by
      rcases level with rfl | rfl <;> simp [avoids_cons, Operator.symbol]
    rw [List.append_assoc, List.cons_append, parseSum_complete left _ free',
      outcome_parseTerms_cons]
    simp [operator, parseProduct_complete right rest, outcome_parseFactors_of_avoids free]

end

theorem parseSum_reads {ts : List Token} {e : Expr} (phrase : Sum ts e) {rest : List Token}
    (free : Avoids operators rest) : outcome (parseSum (ts ++ rest)) = .ok (e, rest) := by
  rw [parseSum_complete phrase rest (free.mono (by simp)),
    outcome_parseTerms_of_avoids (free.mono (by simp))]

/-! ## Calls -/

theorem eq_ofArguments {arguments : List Argument} {positional : List Expr} {named : Bindings Expr}
    (kept : Collects arguments positional named) (name : String) (p : Position) :
    Head.mk name positional named p = .ofArguments name arguments p := by
  have kept' := collects_ofArguments name arguments p
  have distinct : named.keys.Nodup := by
    rw [kept.firstPlace, ← Bindings.keys_ofPairs]
    exact Bindings.nodup_keys_ofPairs _
  have same : named = (Head.ofArguments name arguments p).named := by
    refine Bindings.eq_of_keys_of_get? distinct ?_ fun key => ?_
    · rw [kept.firstPlace, kept'.firstPlace]
    · rw [kept.lastValue, kept'.lastValue]
  rw [kept.inOrder, ← kept'.inOrder, same]
  rfl

theorem ahead_takeKey?_sum {ts : List Token} {e : Expr} (phrase : Sum ts e) {rest : List Token}
    (free : Avoids (.equals :: operators) rest) : ahead (takeKey? (ts ++ rest)) = none := by
  -- A name with an equals sign would have been read up to that sign.
  cases keyed : ahead (takeKey? (ts ++ rest)) with
  | none => rfl
  | some pair =>
    obtain ⟨p, q, same⟩ := ahead_takeKey?_eq_some_iff.mp keyed
    have read := parseSum_reads phrase (free.mono (by simp))
    have free' : Avoids operators (.symbol .equals q :: pair.2) := by simp [avoids_cons]
    have word := parseSum_reads (.product (.unary (.primary (primary_ofName pair.1 p)))) free'
    rw [same] at read
    rw [List.singleton_append, read] at word
    cases word
    simp [avoids_cons] at free

theorem ahead_takeSymbol?_arg {ts : List Token} {argument : Argument} (phrase : Arg ts argument)
    (rest : List Token) : ahead (takeSymbol? .rightParen (ts ++ rest)) = none := by
  cases phrase with
  | positional value => exact ahead_takeSymbol?_sum value (by simp) (by simp) (by simp) rest
  | named key p q value => exact ahead_takeSymbol?_of_ne (by simp) _

theorem parseArgument_complete {ts : List Token} {argument : Argument} (phrase : Arg ts argument)
    {rest : List Token} (free : Avoids (.equals :: operators) rest) :
    outcome (parseArgument (ts ++ rest)) = .ok (argument, rest) := by
  cases phrase with
  | positional value =>
    rw [outcome_parseArgument, ahead_takeKey?_sum value free, parseSum_reads value (free.mono (by simp))]
    rfl
  | named key p q value =>
    rw [List.cons_append, List.cons_append, outcome_parseArgument,
      ahead_takeKey?_eq_some_iff.mpr ⟨p, q, rfl⟩]
    simp [parseSum_reads value (free.mono (by simp))]

theorem parseArgumentList_complete {ts : List Token} {arguments : List Argument}
    (phrase : ArgList ts arguments) {rest : List Token}
    (free : Avoids (.comma :: .equals :: operators) rest) :
    outcome (parseArgumentList (ts ++ rest)) = .ok (arguments, rest) := by
  induction phrase with
  | one only =>
    rw [outcome_parseArgumentList, parseArgument_complete only (free.mono (by simp))]
    simp [ahead_takeSymbol?_of_avoids free]
  | more p first others ih =>
    rw [List.append_assoc, List.cons_append, outcome_parseArgumentList,
      parseArgument_complete first (by simp [avoids_cons])]
    simp [ih]

theorem parseArguments_complete {ts : List Token} {arguments : List Argument}
    (phrase : Args ts arguments) (p : Position) (rest : List Token) :
    outcome (parseArguments (ts ++ .symbol .rightParen p :: rest)) = .ok (arguments, rest) := by
  cases phrase with
  | none =>
    rw [List.nil_append, outcome_parseArguments]
    simp
  | some list =>
    have nonempty : ahead (takeSymbol? .rightParen (ts ++ .symbol .rightParen p :: rest)) = none := by
      cases list with
      | one only => exact ahead_takeSymbol?_arg only _
      | more q first others =>
        rw [List.append_assoc]
        exact ahead_takeSymbol?_arg first _
    rw [outcome_parseArguments, nonempty,
      parseArgumentList_complete list (by simp [avoids_cons])]
    simp

theorem parseHead_complete {ts : List Token} {head : Head} (phrase : Invocation ts head)
    (rest : List Token) : outcome (parseHead (ts ++ rest)) = .ok (head, rest) := by
  cases phrase with
  | call name p q r args kept =>
    have read := parseArguments_complete args r rest
    rw [List.append_assoc, List.cons_append, List.cons_append, outcome_parseHead,
      List.singleton_append]
    simp [read, eq_ofArguments kept name p]

/-! ## Statements -/

theorem parseRange_complete {ts : List Token} {start finish : Expr} {step : Option Expr}
    (phrase : Range ts start step finish) (counter : String) (rest : List Token) :
    outcome (parseRange counter (ts ++ rest)) = .ok (⟨counter, start, step, finish⟩, rest) := by
  cases phrase with
  | @two as bs _ _ p q r first last =>
    have free (us : List Token) : Avoids operators (.symbol .colon q :: us) := by simp [avoids_cons]
    have free' : Avoids operators (.symbol .rightBracket r :: rest) := by simp [avoids_cons]
    have read := parseSum_reads first (free (bs ++ .symbol .rightBracket r :: rest))
    have closed : ahead (takeSymbol? .colon (.symbol .rightBracket r :: rest)) = none :=
      ahead_takeSymbol?_of_ne (by simp) rest
    rw [outcome_parseRange]
    simp [read, parseSum_reads last free', closed]
  | @three as bs cs _ _ _ p q r s first middle last =>
    have free (us : List Token) (p : Position) : Avoids operators (.symbol .colon p :: us) := by
      simp [avoids_cons]
    have free' : Avoids operators (.symbol .rightBracket s :: rest) := by simp [avoids_cons]
    have read := parseSum_reads first
      (free (bs ++ .symbol .colon r :: (cs ++ .symbol .rightBracket s :: rest)) q)
    have read' := parseSum_reads middle (free (cs ++ .symbol .rightBracket s :: rest) r)
    rw [outcome_parseRange]
    simp [read, read', parseSum_reads last free']

theorem parseLoopHead_complete {ts : List Token} {start finish : Expr} {step : Option Expr}
    (phrase : Range ts start step finish) (counter : String) (q r s t : Position)
    (rest : List Token) :
    outcome (parseLoopHead (.symbol .leftParen q :: .identifier counter r :: .symbol .equals s ::
      ts ++ .symbol .rightParen t :: rest)) = .ok (⟨counter, start, step, finish⟩, rest) := by
  have read := parseRange_complete phrase counter (.symbol .rightParen t :: rest)
  rw [List.cons_append, List.cons_append, List.cons_append, outcome_parseLoopHead]
  simp [read]

theorem statement_opens {ts : List Token} {s : Stmt} (phrase : Statement ts s) :
    ∃ name p us, ts = .identifier name p :: us := by
  cases phrase with
  | assign p q r plain value => exact ⟨_, p, _, rfl⟩
  | loop p q r s t range block => exact ⟨_, p, _, rfl⟩
  | call p plain invocation | callBlock plain invocation block
  | callBlockEnded p plain invocation block =>
    cases invocation with
    | call name p q r args kept => exact ⟨name, p, _, rfl⟩

theorem statements_avoid {ss : List Symbol} {ts : List Token} {body : List Stmt}
    (phrase : Statements ts body) {rest : List Token} (free : Avoids ss rest) :
    Avoids ss (ts ++ rest) := by
  cases phrase with
  | nil => exact free
  | cons first others =>
    obtain ⟨name, p, us, rfl⟩ := statement_opens first
    simp [avoids_cons]

theorem ahead_takeFor?_identifier {name : String} (plain : name ≠ "for") (p : Position)
    (ts : List Token) : ahead (takeFor? (.identifier name p :: ts)) = none := by
  cases loop : ahead (takeFor? (.identifier name p :: ts)) with
  | none => rfl
  | some pair =>
    obtain ⟨q, same⟩ := ahead_takeFor?_eq_some_iff.mp loop
    cases same
    exact absurd rfl plain

theorem ahead_takeKey?_call (name : String) (p q : Position) (ts : List Token) :
    ahead (takeKey? (.identifier name p :: .symbol .leftParen q :: ts)) = none := by
  cases keyed : ahead (takeKey? (.identifier name p :: .symbol .leftParen q :: ts)) with
  | none => rfl
  | some pair =>
    obtain ⟨_, _, same⟩ := ahead_takeKey?_eq_some_iff.mp keyed
    cases same

theorem outcome_parseStatement_call {ts : List Token} {head : Head} (call : Invocation ts head)
    (plain : head.name ≠ "for") (rest : List Token) :
    outcome (parseStatement (ts ++ rest)) = (do
      let (block, rest) ← outcome (parseCallEnd rest)
      return (.call head block, rest)) := by
  have read := parseHead_complete call rest
  cases call with
  | call name p q r args kept =>
    rw [List.append_assoc, List.cons_append, List.cons_append] at read ⊢
    rw [outcome_parseStatement, ahead_takeFor?_identifier plain, ahead_takeKey?_call]
    dsimp only
    rw [read]
    rfl

mutual

theorem parseStatement_complete {ts : List Token} {s : Stmt} :
    Statement ts s → ∀ rest, Avoids [.semicolon] rest →
      outcome (parseStatement (ts ++ rest)) = .ok (s, rest)
  | .assign p q r plain value, rest, _ => by
    have free : Avoids operators (.symbol .semicolon r :: rest) := by simp [avoids_cons]
    have read := parseSum_reads value free
    rw [List.append_assoc, List.cons_append, List.cons_append, outcome_parseStatement,
      ahead_takeFor?_identifier plain, ahead_takeKey?_eq_some_iff.mpr ⟨p, q, rfl⟩]
    simp [read]
  | @Statement.loop _ us counter _ _ _ _ p q r s t range block, rest, _ => by
    have head := parseLoopHead_complete range counter q r s t (us ++ rest)
    have body := parseBlock_complete block rest
    rw [List.append_assoc, List.cons_append, outcome_parseStatement]
    simp only [ahead_takeFor?_self, List.cons_append] at head ⊢
    simp [head, body]
  | .call p plain invocation, rest, _ => by
    have ending : outcome (parseCallEnd (.symbol .semicolon p :: rest)) = .ok (none, rest) := by
      rw [outcome_parseCallEnd, ahead_takeSymbol?_of_ne (by simp)]
      simp
    rw [List.append_assoc, List.singleton_append, outcome_parseStatement_call invocation plain]
    simp [ending]
  | .callBlock plain invocation (.braces p q inner), rest, free => by
    have body := parseBlockRest_complete inner q rest
    rw [List.append_assoc, outcome_parseStatement_call invocation plain, List.append_assoc,
      List.cons_append, List.singleton_append, outcome_parseCallEnd]
    simp [body, ahead_takeSymbol?_of_avoids free]
  | .callBlockEnded r plain invocation (.braces p q inner), rest, free => by
    have body := parseBlockRest_complete inner q (.symbol .semicolon r :: rest)
    rw [List.append_assoc, List.append_assoc, outcome_parseStatement_call invocation plain,
      List.append_assoc, List.cons_append, List.singleton_append, outcome_parseCallEnd]
    simp [body]

theorem parseBlock_complete {ts : List Token} {body : List Stmt} :
    Block ts body → ∀ rest, outcome (parseBlock (ts ++ rest)) = .ok (body, rest)
  | .braces p q inner, rest => by
    rw [List.append_assoc, List.cons_append, List.singleton_append, outcome_parseBlock]
    simp [parseBlockRest_complete inner q rest]

theorem parseBlockRest_complete {ts : List Token} {body : List Stmt} :
    Statements ts body → ∀ q rest,
      outcome (parseBlockRest (ts ++ .symbol .rightBrace q :: rest)) = .ok (body, rest)
  | .nil, q, rest => by
    rw [List.nil_append, outcome_parseBlockRest]
    simp
  | @Statements.cons ts us _ _ first others, q, rest => by
    have free : Avoids [.semicolon] (us ++ .symbol .rightBrace q :: rest) :=
      statements_avoid others (by simp [avoids_cons])
    have read := parseStatement_complete first _ free
    have more := parseBlockRest_complete others q rest
    obtain ⟨name, p, vs, rfl⟩ := statement_opens first
    rw [List.append_assoc, outcome_parseBlockRest, List.cons_append,
      ahead_takeSymbol?_of_ne (by simp)]
    rw [List.cons_append] at read
    simp [read, more]

end

theorem parseStatements_complete {ts : List Token} {program : Program}
    (phrase : Statements ts program) : parseStatements ts = .ok program := by
  induction program generalizing ts with
  | nil =>
    cases phrase
    rw [parseStatements]
    rfl
  | cons statement statements ih =>
    cases phrase with
    | @cons ts us _ _ first others =>
      have free : Avoids [.semicolon] us := by
        simpa using statements_avoid others (avoids_nil [.semicolon])
      have read := parseStatement_complete first us free
      obtain ⟨name, p, vs, rfl⟩ := statement_opens first
      rw [List.cons_append] at read ⊢
      rw [parseStatements_cons, read]
      simp [ih others]

end SolidScript.Proofs
