import SolidScript.Program.Parse
import SolidScript.Proofs.Results

namespace SolidScript.Proofs

variable {α β : Type} {n m : Nat}

def outcome (p : Except Fault (Parsed α n)) : Except Fault (α × List Token) :=
  p.map fun r => (r.value, r.rest)

def ahead (r : Option (Parsed α n)) : Option (α × List Token) := r.map fun r => (r.value, r.rest)

theorem outcome_bind {p : Except Fault (Parsed α n)} {f : Parsed α n → Except Fault (Parsed β m)}
    {g : α × List Token → Except Fault (β × List Token)}
    (same : ∀ r, outcome (f r) = g (r.value, r.rest)) : outcome (p >>= f) = (outcome p >>= g) := by
  cases p with
  | error e => rfl
  | ok r => exact same r

/-! ## Single tokens -/

theorem ahead_takeSymbol?_eq_some_iff {s : Symbol} {ts rest : List Token} {u : Unit} :
    ahead (takeSymbol? s ts) = some (u, rest) ↔ ∃ p, ts = ⟨.symbol s, p⟩ :: rest := by
  cases ts with
  | nil => simp [takeSymbol?, ahead]
  | cons t ts =>
    obtain ⟨lexeme, position⟩ := t
    by_cases same : lexeme = .symbol s <;> simp [takeSymbol?, ahead, same]

@[simp] theorem ahead_takeSymbol?_self (s : Symbol) (p : Position) (ts : List Token) :
    ahead (takeSymbol? s (⟨.symbol s, p⟩ :: ts)) = some ((), ts) :=
  ahead_takeSymbol?_eq_some_iff.mpr ⟨p, rfl⟩

theorem ahead_takeSymbol?_of_ne {s : Symbol} {t : Token} (other : t.lexeme ≠ .symbol s)
    (ts : List Token) : ahead (takeSymbol? s (t :: ts)) = none := by
  simp [takeSymbol?, ahead, other]

theorem outcome_takeSymbol (s : Symbol) (ts : List Token) :
    outcome (takeSymbol s ts) = match ahead (takeSymbol? s ts) with
      | some read => .ok read
      | none => .error ⟨.symbol s, ts⟩ := by
  rw [takeSymbol]
  cases takeSymbol? s ts <;> rfl

theorem outcome_takeSymbol_eq_ok_iff {s : Symbol} {ts rest : List Token} {u : Unit} :
    outcome (takeSymbol s ts) = .ok (u, rest) ↔ ∃ p, ts = ⟨.symbol s, p⟩ :: rest := by
  rw [← ahead_takeSymbol?_eq_some_iff (u := u), outcome_takeSymbol]
  cases ahead (takeSymbol? s ts) <;> simp

@[simp] theorem outcome_takeSymbol_self (s : Symbol) (p : Position) (ts : List Token) :
    outcome (takeSymbol s (⟨.symbol s, p⟩ :: ts)) = .ok ((), ts) :=
  outcome_takeSymbol_eq_ok_iff.mpr ⟨p, rfl⟩

theorem ahead_takeIdentifier?_eq_some_iff {ts rest : List Token} {name : String} {p : Position} :
    ahead (takeIdentifier? ts) = some ((name, p), rest) ↔ ts = ⟨.identifier name, p⟩ :: rest := by
  unfold takeIdentifier?
  split
  · simp [ahead, and_assoc]
  · rename_i other
    refine ⟨by simp [ahead], ?_⟩
    rintro rfl
    exact absurd rfl (other name p rest)

theorem outcome_takeIdentifier (ts : List Token) :
    outcome (takeIdentifier ts) = match ahead (takeIdentifier? ts) with
      | some read => .ok read
      | none => .error ⟨.identifier, ts⟩ := by
  rw [takeIdentifier]
  cases takeIdentifier? ts <;> rfl

theorem outcome_takeIdentifier_eq_ok_iff {ts rest : List Token} {name : String} {p : Position} :
    outcome (takeIdentifier ts) = .ok ((name, p), rest) ↔ ts = ⟨.identifier name, p⟩ :: rest := by
  rw [← ahead_takeIdentifier?_eq_some_iff, outcome_takeIdentifier]
  cases ahead (takeIdentifier? ts) <;> simp

@[simp] theorem outcome_takeIdentifier_self (name : String) (p : Position) (ts : List Token) :
    outcome (takeIdentifier (⟨.identifier name, p⟩ :: ts)) = .ok ((name, p), ts) :=
  outcome_takeIdentifier_eq_ok_iff.mpr rfl

theorem ahead_takeKey? (ts : List Token) :
    ahead (takeKey? ts) = (do
      let ((name, _), rest) ← ahead (takeIdentifier? ts)
      let (_, rest) ← ahead (takeSymbol? .equals rest)
      return (name, rest)) := by
  rw [takeKey?]
  cases takeIdentifier? ts with
  | none => rfl
  | some read =>
    obtain ⟨⟨name, p⟩, rest, fits⟩ := read
    simp only [ahead, Option.map_some, Option.bind_eq_bind, Option.bind_some]
    cases takeSymbol? .equals rest <;> rfl

theorem ahead_takeKey?_eq_some_iff {ts rest : List Token} {name : String} :
    ahead (takeKey? ts) = some (name, rest) ↔
      ∃ p q, ts = ⟨.identifier name, p⟩ :: ⟨.symbol .equals, q⟩ :: rest := by
  rw [ahead_takeKey?]
  constructor
  · intro read
    obtain ⟨⟨⟨word, p⟩, tail⟩, first, read⟩ := Option.bind_eq_some_iff.mp read
    obtain ⟨⟨u, tail'⟩, second, read⟩ := Option.bind_eq_some_iff.mp read
    obtain ⟨q, rfl⟩ := ahead_takeSymbol?_eq_some_iff.mp second
    rw [ahead_takeIdentifier?_eq_some_iff] at first
    cases read
    exact ⟨p, q, first⟩
  · rintro ⟨p, q, rfl⟩
    rw [ahead_takeIdentifier?_eq_some_iff.mpr rfl]
    simp

theorem ahead_takeFor?_eq_some_iff {ts rest : List Token} {u : Unit} :
    ahead (takeFor? ts) = some (u, rest) ↔ ∃ p, ts = ⟨.identifier "for", p⟩ :: rest := by
  have split : ahead (takeFor? ts) = (ahead (takeIdentifier? ts)).bind fun (word, rest) =>
      if word.1 = "for" then some ((), rest) else none := by
    rw [takeFor?]
    cases takeIdentifier? ts with
    | none => rfl
    | some read =>
      obtain ⟨⟨name, p⟩, rest, fits⟩ := read
      by_cases loop : name = "for" <;> simp [ahead, loop]
  rw [split]
  constructor
  · intro read
    obtain ⟨⟨⟨name, p⟩, tail⟩, first, read⟩ := Option.bind_eq_some_iff.mp read
    rw [ahead_takeIdentifier?_eq_some_iff] at first
    by_cases loop : name = "for"
    · simp only [loop, if_true, Option.some.injEq, Prod.mk.injEq] at read
      exact ⟨p, by rw [first, loop, read.2]⟩
    · simp [loop] at read
  · rintro ⟨p, rfl⟩
    rw [ahead_takeIdentifier?_eq_some_iff.mpr rfl]
    simp

@[simp] theorem ahead_takeFor?_self (p : Position) (ts : List Token) :
    ahead (takeFor? (⟨.identifier "for", p⟩ :: ts)) = some ((), ts) :=
  ahead_takeFor?_eq_some_iff.mpr ⟨p, rfl⟩

/-! ## Expressions -/

theorem outcome_parsePrimary_paren (p : Position) (ts : List Token) :
    outcome (parsePrimary (⟨.symbol .leftParen, p⟩ :: ts)) = (do
      let (e, rest) ← outcome (parseSum ts)
      let (_, rest) ← outcome (takeSymbol .rightParen rest)
      return (e, rest)) := by
  rw [parsePrimary]
  exact outcome_bind fun _ => outcome_bind fun _ => rfl

theorem outcome_parsePrimary_bracket (p : Position) (ts : List Token) :
    outcome (parsePrimary (⟨.symbol .leftBracket, p⟩ :: ts)) =
      match ahead (takeSymbol? .rightBracket ts) with
      | some (_, rest) => .ok (.array [], rest)
      | none => do
        let (items, rest) ← outcome (parseItems ts)
        let (_, rest) ← outcome (takeSymbol .rightBracket rest)
        return (.array items, rest) := by
  rw [parsePrimary]
  dsimp only
  cases takeSymbol? .rightBracket ts with
  | some read => rfl
  | none => exact outcome_bind fun _ => outcome_bind fun _ => rfl

theorem outcome_parsePrimary_number (numeral : String) (p : Position) (ts : List Token) :
    outcome (parsePrimary (⟨.number numeral, p⟩ :: ts)) = .ok (.ofNumeral numeral, ts) := by
  rw [parsePrimary]
  rfl

theorem outcome_parsePrimary_identifier (name : String) (p : Position) (ts : List Token) :
    outcome (parsePrimary (⟨.identifier name, p⟩ :: ts)) = .ok (.ofName name, ts) := by
  rw [parsePrimary]
  rfl

theorem outcome_parseItems (ts : List Token) :
    outcome (parseItems ts) = (do
      let (item, rest) ← outcome (parseSum ts)
      match ahead (takeSymbol? .comma rest) with
      | some (_, rest) => do
        let (items, rest) ← outcome (parseItems rest)
        return (item :: items, rest)
      | none => return ([item], rest)) := by
  rw [parseItems]
  refine outcome_bind fun ⟨item, rest, _⟩ => ?_
  dsimp only
  cases takeSymbol? .comma rest with
  | none => rfl
  | some read => exact outcome_bind fun _ => rfl

theorem outcome_parseUnary (ts : List Token) :
    outcome (parseUnary ts) = match ahead (takeSymbol? .minus ts) with
      | some (_, inner) => do
        let (e, rest) ← outcome (parseUnary inner)
        return (.negate e, rest)
      | none => outcome (parsePrimary ts) := by
  rw [parseUnary]
  cases takeSymbol? .minus ts with
  | none => rfl
  | some read => exact outcome_bind fun _ => rfl

theorem outcome_parseProduct (ts : List Token) :
    outcome (parseProduct ts) = (do
      let (first, rest) ← outcome (parseUnary ts)
      outcome (parseFactors first rest)) := by
  rw [parseProduct]
  refine outcome_bind fun ⟨first, rest, _⟩ => ?_
  dsimp only
  cases parseFactors first rest <;> rfl

theorem outcome_parseFactors_nil (left : Expr) : outcome (parseFactors left []) = .ok (left, []) := by
  rw [parseFactors]
  rfl

theorem outcome_parseFactors_cons (left : Expr) (t : Token) (ts : List Token) :
    outcome (parseFactors left (t :: ts)) = match productOperator? t.lexeme with
      | none => .ok (left, t :: ts)
      | some op => (do
        let (right, rest) ← outcome (parseUnary ts)
        outcome (parseFactors (.binary op left right) rest)) := by
  rw [parseFactors]
  cases productOperator? t.lexeme with
  | none => rfl
  | some op =>
    refine outcome_bind fun read => ?_
    obtain ⟨right, rest, _⟩ := read
    dsimp only
    cases parseFactors (.binary op left right) rest <;> rfl

theorem outcome_parseSum (ts : List Token) :
    outcome (parseSum ts) = (do
      let (first, rest) ← outcome (parseProduct ts)
      outcome (parseTerms first rest)) := by
  rw [parseSum]
  refine outcome_bind fun ⟨first, rest, _⟩ => ?_
  dsimp only
  cases parseTerms first rest <;> rfl

theorem outcome_parseTerms_nil (left : Expr) : outcome (parseTerms left []) = .ok (left, []) := by
  rw [parseTerms]
  rfl

theorem outcome_parseTerms_cons (left : Expr) (t : Token) (ts : List Token) :
    outcome (parseTerms left (t :: ts)) = match sumOperator? t.lexeme with
      | none => .ok (left, t :: ts)
      | some op => (do
        let (right, rest) ← outcome (parseProduct ts)
        outcome (parseTerms (.binary op left right) rest)) := by
  rw [parseTerms]
  cases sumOperator? t.lexeme with
  | none => rfl
  | some op =>
    refine outcome_bind fun read => ?_
    obtain ⟨right, rest, _⟩ := read
    dsimp only
    cases parseTerms (.binary op left right) rest <;> rfl

/-! ## Calls -/

theorem outcome_parseArgument (ts : List Token) :
    outcome (parseArgument ts) = match ahead (takeKey? ts) with
      | some (key, rest) => do
        let (e, rest) ← outcome (parseSum rest)
        return (.named key e, rest)
      | none => do
        let (e, rest) ← outcome (parseSum ts)
        return (.positional e, rest) := by
  rw [parseArgument]
  cases takeKey? ts with
  | none => exact outcome_bind fun _ => rfl
  | some read => exact outcome_bind fun _ => rfl

theorem outcome_parseArgumentList (ts : List Token) :
    outcome (parseArgumentList ts) = (do
      let (argument, rest) ← outcome (parseArgument ts)
      match ahead (takeSymbol? .comma rest) with
      | some (_, rest) => do
        let (arguments, rest) ← outcome (parseArgumentList rest)
        return (argument :: arguments, rest)
      | none => return ([argument], rest)) := by
  rw [parseArgumentList]
  refine outcome_bind fun ⟨argument, rest, _⟩ => ?_
  dsimp only
  cases takeSymbol? .comma rest with
  | none => rfl
  | some read => exact outcome_bind fun _ => rfl

theorem outcome_parseArguments (ts : List Token) :
    outcome (parseArguments ts) = match ahead (takeSymbol? .rightParen ts) with
      | some (_, rest) => .ok ([], rest)
      | none => do
        let (arguments, rest) ← outcome (parseArgumentList ts)
        let (_, rest) ← outcome (takeSymbol .rightParen rest)
        return (arguments, rest) := by
  rw [parseArguments]
  cases takeSymbol? .rightParen ts with
  | some read => rfl
  | none => exact outcome_bind fun _ => outcome_bind fun _ => rfl

theorem outcome_parseHead (ts : List Token) :
    outcome (parseHead ts) = (do
      let ((name, position), rest) ← outcome (takeIdentifier ts)
      let (_, rest) ← outcome (takeSymbol .leftParen rest)
      let (arguments, rest) ← outcome (parseArguments rest)
      return (.ofArguments name arguments position, rest)) := by
  rw [parseHead]
  exact outcome_bind fun _ => outcome_bind fun _ => outcome_bind fun _ => rfl

/-! ## Statements -/

theorem outcome_parseRange (counter : String) (ts : List Token) :
    outcome (parseRange counter ts) = (do
      let (_, rest) ← outcome (takeSymbol .leftBracket ts)
      let (start, rest) ← outcome (parseSum rest)
      let (_, rest) ← outcome (takeSymbol .colon rest)
      let (second, rest) ← outcome (parseSum rest)
      match ahead (takeSymbol? .colon rest) with
      | some (_, rest) => do
        let (third, rest) ← outcome (parseSum rest)
        let (_, rest) ← outcome (takeSymbol .rightBracket rest)
        return (⟨counter, start, some second, third⟩, rest)
      | none => do
        let (_, rest) ← outcome (takeSymbol .rightBracket rest)
        return (⟨counter, start, none, second⟩, rest)) := by
  rw [parseRange]
  refine outcome_bind fun _ => outcome_bind fun _ => outcome_bind fun _ =>
    outcome_bind fun ⟨second, rest, _⟩ => ?_
  dsimp only
  cases takeSymbol? .colon rest with
  | none => exact outcome_bind fun _ => rfl
  | some read => exact outcome_bind fun _ => outcome_bind fun _ => rfl

theorem outcome_parseLoopHead (ts : List Token) :
    outcome (parseLoopHead ts) = (do
      let (_, rest) ← outcome (takeSymbol .leftParen ts)
      let ((counter, _), rest) ← outcome (takeIdentifier rest)
      let (_, rest) ← outcome (takeSymbol .equals rest)
      let (head, rest) ← outcome (parseRange counter rest)
      let (_, rest) ← outcome (takeSymbol .rightParen rest)
      return (head, rest)) := by
  rw [parseLoopHead]
  exact outcome_bind fun _ => outcome_bind fun _ => outcome_bind fun _ => outcome_bind fun _ =>
    outcome_bind fun _ => rfl

theorem outcome_parseStatement (ts : List Token) :
    outcome (parseStatement ts) = match ahead (takeFor? ts) with
      | some (_, rest) => do
        let (head, rest) ← outcome (parseLoopHead rest)
        let (body, rest) ← outcome (parseBlock rest)
        return (.loop head.counter head.start head.step head.finish body, rest)
      | none =>
        match ahead (takeKey? ts) with
        | some (name, rest) => do
          let (value, rest) ← outcome (parseSum rest)
          let (_, rest) ← outcome (takeSymbol .semicolon rest)
          return (.assign name value, rest)
        | none => do
          let (head, rest) ← outcome (parseHead ts)
          let (block, rest) ← outcome (parseCallEnd rest)
          return (.call head block, rest) := by
  rw [parseStatement]
  cases takeFor? ts with
  | some read => exact outcome_bind fun _ => outcome_bind fun _ => rfl
  | none =>
    dsimp only [ahead, Option.map_none]
    cases takeKey? ts with
    | some read => exact outcome_bind fun _ => outcome_bind fun _ => rfl
    | none => exact outcome_bind fun _ => outcome_bind fun _ => rfl

theorem outcome_parseCallEnd (ts : List Token) :
    outcome (parseCallEnd ts) = match ahead (takeSymbol? .leftBrace ts) with
      | some (_, rest) => do
        let (block, rest) ← outcome (parseBlockRest rest)
        match ahead (takeSymbol? .semicolon rest) with
        | some (_, rest) => return (some block, rest)
        | none => return (some block, rest)
      | none => do
        let (_, rest) ← outcome (takeSymbol .semicolon ts)
        return (none, rest) := by
  rw [parseCallEnd]
  cases takeSymbol? .leftBrace ts with
  | none => exact outcome_bind fun _ => rfl
  | some read =>
    refine outcome_bind fun ⟨block, rest, _⟩ => ?_
    dsimp only
    cases takeSymbol? .semicolon rest <;> rfl

theorem outcome_parseBlock (ts : List Token) :
    outcome (parseBlock ts) = (do
      let (_, rest) ← outcome (takeSymbol .leftBrace ts)
      outcome (parseBlockRest rest)) := by
  rw [parseBlock]
  refine outcome_bind fun ⟨_, rest, _⟩ => ?_
  dsimp only
  cases parseBlockRest rest <;> rfl

theorem outcome_parseBlockRest (ts : List Token) :
    outcome (parseBlockRest ts) = match ahead (takeSymbol? .rightBrace ts) with
      | some (_, rest) => .ok ([], rest)
      | none =>
        if ts = [] then .error ⟨.closingBrace, []⟩
        else do
          let (statement, rest) ← outcome (parseStatement ts)
          let (statements, rest) ← outcome (parseBlockRest rest)
          return (statement :: statements, rest) := by
  rw [parseBlockRest]
  cases takeSymbol? .rightBrace ts with
  | some read => rfl
  | none =>
    cases ts with
    | nil => rfl
    | cons t ts => exact outcome_bind fun _ => outcome_bind fun _ => rfl

theorem parseStatements_cons (t : Token) (ts : List Token) :
    parseStatements (t :: ts) = (do
      let (statement, rest) ← outcome (parseStatement (t :: ts))
      let statements ← parseStatements rest
      return statement :: statements) := by
  rw [parseStatements]
  cases parseStatement (t :: ts) <;> rfl

end SolidScript.Proofs
