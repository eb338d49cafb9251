import SolidScript.Proofs.Parsing.Lookahead
import SolidScript.Proofs.Parsing.Walk

namespace SolidScript

namespace Proofs

/-! ## Expressions -/

def readArray (ts : List Token) : Except Fault (Expr × List Token) := do
  let (_, rest) ← outcome (takeSymbol .leftBracket ts)
  match ahead (takeSymbol? .rightBracket rest) with
  | some (_, rest) => return (.array [], rest)
  | none =>
    let (items, rest) ← outcome (parseItems rest)
    let (_, rest) ← outcome (takeSymbol .rightBracket rest)
    return (.array items, rest)

def readMoreItems (ts : List Token) : Except Fault (List Expr × List Token) :=
  match ahead (takeSymbol? .comma ts) with
  | some (_, rest) => outcome (parseItems rest)
  | none => .ok ([], ts)

theorem outcome_parsePrimary_array {ts : List Token} {read : Unit × List Token}
    (bracket : ahead (takeSymbol? .leftBracket ts) = some read) :
    outcome (parsePrimary ts) = readArray ts := by
  obtain ⟨p, rfl⟩ := ahead_takeSymbol?_eq_some_iff.mp bracket
  rw [readArray, outcome_parsePrimary_bracket, outcome_takeSymbol_self]
  rfl

theorem outcome_parseItems_more (ts : List Token) :
    outcome (parseItems ts) = (do
      let (item, rest) ← outcome (parseSum ts)
      let (items, rest) ← readMoreItems rest
      return (item :: items, rest)) := by
  rw [outcome_parseItems]
  congr 1
  funext read
  obtain ⟨item, rest⟩ := read
  dsimp only [readMoreItems]
  cases ahead (takeSymbol? .comma rest) <;> rfl

theorem outcome_parseTerms (left : Expr) (ts : List Token) :
    outcome (parseTerms left ts) = match ts.head?.bind fun t => sumOperator? t.lexeme with
      | none => .ok (left, ts)
      | some op => (do
        let (right, rest) ← outcome (parseProduct ts.tail)
        outcome (parseTerms (.binary op left right) rest)) := by
  cases ts with
  | nil => exact outcome_parseTerms_nil left
  | cons t ts => exact outcome_parseTerms_cons left t ts

theorem outcome_parseFactors (left : Expr) (ts : List Token) :
    outcome (parseFactors left ts) = match ts.head?.bind fun t => productOperator? t.lexeme with
      | none => .ok (left, ts)
      | some op => (do
        let (right, rest) ← outcome (parseUnary ts.tail)
        outcome (parseFactors (.binary op left right) rest)) := by
  cases ts with
  | nil => exact outcome_parseFactors_nil left
  | cons t ts => exact outcome_parseFactors_cons left t ts

/-! ## Calls -/

def readKey (ts : List Token) : Except Fault (String × List Token) := do
  let ((name, _), rest) ← outcome (takeIdentifier ts)
  let (_, rest) ← outcome (takeSymbol .equals rest)
  return (name, rest)

def readCallArguments (ts : List Token) : Except Fault (List Argument × List Token) :=
  match ahead (takeSymbol? .rightParen ts) with
  | some _ => .ok ([], ts)
  | none => outcome (parseArgumentList ts)

theorem readKey_of_ahead {ts rest : List Token} {name : String}
    (key : ahead (takeKey? ts) = some (name, rest)) : readKey ts = .ok (name, rest) := by
  obtain ⟨p, q, rfl⟩ := ahead_takeKey?_eq_some_iff.mp key
  rw [readKey, outcome_takeIdentifier_self, ok_bind]
  dsimp only
  rw [outcome_takeSymbol_self]
  rfl

theorem outcome_parseArguments_closed (ts : List Token) :
    outcome (parseArguments ts) = (do
      let (arguments, rest) ← readCallArguments ts
      let (_, rest) ← outcome (takeSymbol .rightParen rest)
      return (arguments, rest)) := by
  rw [outcome_parseArguments, readCallArguments]
  cases close : ahead (takeSymbol? .rightParen ts) with
  | none => rfl
  | some read =>
    rw [ok_bind]
    dsimp only
    rw [outcome_takeSymbol, close]
    rfl

theorem outcome_parseHead_closed (ts : List Token) :
    outcome (parseHead ts) = (do
      let ((name, position), rest) ← outcome (takeIdentifier ts)
      let (_, rest) ← outcome (takeSymbol .leftParen rest)
      let (arguments, rest) ← readCallArguments rest
      let (_, rest) ← outcome (takeSymbol .rightParen rest)
      return (.ofArguments name arguments position, rest)) := by
  simp only [outcome_parseHead, outcome_parseArguments_closed, bind_assoc, pure_bind]

/-! ## Statements -/

def readAssignment (ts : List Token) : Except Fault (Stmt × List Token) := do
  let (name, rest) ← readKey ts
  let (value, rest) ← outcome (parseSum rest)
  let (_, rest) ← outcome (takeSymbol .semicolon rest)
  return (.assign name value, rest)

def readFor (ts : List Token) : Except Fault (Unit × List Token) :=
  match ahead (takeFor? ts) with
  | some read => .ok read
  | none => .error ⟨.identifier, ts⟩

def readLoop (ts : List Token) : Except Fault (Stmt × List Token) := do
  let (_, rest) ← readFor ts
  let (head, rest) ← outcome (parseLoopHead rest)
  let (body, rest) ← outcome (parseBlock rest)
  return (.loop head.counter head.start head.step head.finish body, rest)

def readInvocation (ts : List Token) :
    Except Fault ((Head × Option (List Stmt)) × List Token) := do
  let (head, rest) ← outcome (parseHead ts)
  match ahead (takeSymbol? .leftBrace rest) with
  | some _ => do
    let (block, rest) ← outcome (parseBlock rest)
    return ((head, some block), rest)
  | none => return ((head, none), rest)

def readCallEnd : Option (List Stmt) → Reader Unit
  | none, ts => outcome (takeSymbol .semicolon ts)
  | some _, ts =>
    match ahead (takeSymbol? .semicolon ts) with
    | some read => .ok read
    | none => .ok ((), ts)

theorem outcome_parseStatement_for {ts : List Token} {read : Unit × List Token}
    (isFor : ahead (takeFor? ts) = some read) : outcome (parseStatement ts) = readLoop ts := by
  rw [outcome_parseStatement, readLoop, readFor, isFor]
  rfl

theorem outcome_parseStatement_key {ts : List Token} {read : String × List Token}
    (noFor : ahead (takeFor? ts) = none) (key : ahead (takeKey? ts) = some read) :
    outcome (parseStatement ts) = readAssignment ts := by
  rw [outcome_parseStatement, readAssignment, readKey_of_ahead key, noFor, key]
  rfl

theorem outcome_parseStatement_other {ts : List Token} (noFor : ahead (takeFor? ts) = none)
    (noKey : ahead (takeKey? ts) = none) :
    outcome (parseStatement ts) = (do
      let ((head, block), rest) ← readInvocation ts
      let (_, rest) ← readCallEnd block rest
      return (.call head block, rest)) := by
  simp only [outcome_parseStatement, noFor, noKey, readInvocation, bind_assoc]
  congr 1
  funext read
  obtain ⟨head, rest⟩ := read
  rw [outcome_parseCallEnd]
  cases brace : ahead (takeSymbol? .leftBrace rest) with
  | none =>
    simp only [readCallEnd, bind_assoc, pure_bind]
  | some read =>
    have opens : outcome (takeSymbol .leftBrace rest) = .ok read := by
      rw [outcome_takeSymbol, brace]
    simp only [outcome_parseBlock, opens, ok_bind, bind_assoc, pure_bind]
    congr 1
    funext read
    obtain ⟨block, rest⟩ := read
    simp only [readCallEnd]
    cases ahead (takeSymbol? .semicolon rest) <;> rfl

def readProgram (ts : List Token) : Except Fault (Program × List Token) :=
  (parseStatements ts).map fun program => (program, [])

theorem readProgram_eq_map_iff {ts rest : List Token} {result : Except Fault Program} :
    readProgram ts = result.map (fun program => (program, rest)) ↔
      parseStatements ts = result ∧ ∀ program, result = .ok program → rest = [] := by
  rw [readProgram]
  cases parseStatements ts <;> cases result <;> simp [Except.map, eq_comm]

theorem readProgram_nil : readProgram [] = .ok ([], []) := by
  rw [readProgram, parseStatements]
  rfl

theorem readProgram_cons (t : Token) (ts : List Token) :
    readProgram (t :: ts) = (do
      let (statement, rest) ← outcome (parseStatement (t :: ts))
      let (statements, rest) ← readProgram rest
      return (statement :: statements, rest)) := by
  rw [readProgram, parseStatements_cons]
  cases outcome (parseStatement (t :: ts)) with
  | error fault => rfl
  | ok read =>
    simp only [ok_bind, readProgram]
    cases parseStatements read.2 <;> rfl

/-! ## Fewer tokens -/

def Shortens {α : Type} (read : Reader α) : Prop :=
  ∀ ts a rest, read ts = .ok (a, rest) → rest.length < ts.length

theorem shortens_outcome {α : Type} (p : (ts : List Token) → Parse α ts) :
    Shortens fun ts => outcome (p ts) :=
  fun _ _ _ => length_lt_of_outcome

theorem shortens_readKey : Shortens readKey := by
  intro ts name rest read
  simp only [readKey, bind_eq_ok, Prod.exists, pure_eq_ok, Prod.mk.injEq] at read
  obtain ⟨_, _, rest₁, first, _, rest₂, second, -, rfl⟩ := read
  exact Nat.lt_trans (length_lt_of_outcome second) (length_lt_of_outcome first)

theorem shortens_readFor : Shortens readFor := by
  intro ts u rest read
  rw [readFor] at read
  cases isFor : ahead (takeFor? ts) with
  | none =>
    rw [isFor] at read
    cases read
  | some pair =>
    obtain ⟨p, rfl⟩ := ahead_takeFor?_eq_some_iff.mp isFor
    rw [isFor] at read
    cases read
    exact Nat.lt_succ_self _

theorem shortens_readAssignment : Shortens readAssignment := by
  intro ts statement rest read
  simp only [readAssignment, bind_eq_ok, Prod.exists, pure_eq_ok, Prod.mk.injEq] at read
  obtain ⟨_, rest₁, key, _, rest₂, value, _, rest₃, semicolon, -, rfl⟩ := read
  have afterKey := shortens_readKey _ _ _ key
  have afterValue := length_lt_of_outcome value
  exact Nat.lt_trans (length_lt_of_outcome semicolon) (Nat.lt_trans afterValue afterKey)

theorem shortens_readLoop : Shortens readLoop := by
  intro ts statement rest read
  simp only [readLoop, bind_eq_ok, Prod.exists, pure_eq_ok, Prod.mk.injEq] at read
  obtain ⟨_, rest₁, word, _, rest₂, head, _, rest₃, body, -, rfl⟩ := read
  have afterWord := shortens_readFor _ _ _ word
  have afterHead := length_lt_of_outcome head
  exact Nat.lt_trans (length_lt_of_outcome body) (Nat.lt_trans afterHead afterWord)

theorem shortens_readInvocation : Shortens readInvocation := by
  intro ts call rest read
  simp only [readInvocation, bind_eq_ok, Prod.exists] at read
  obtain ⟨_, rest₁, head, read⟩ := read
  have fewer := length_lt_of_outcome head
  cases brace : ahead (takeSymbol? .leftBrace rest₁) with
  | none =>
    rw [brace] at read
    cases read
    exact fewer
  | some pair =>
    simp only [brace, bind_eq_ok, Prod.exists, pure_eq_ok, Prod.mk.injEq] at read
    obtain ⟨_, rest₂, body, -, rfl⟩ := read
    exact Nat.lt_trans (length_lt_of_outcome body) fewer

theorem shortens_readArray : Shortens readArray := by
  intro ts array rest read
  simp only [readArray, bind_eq_ok, Prod.exists] at read
  obtain ⟨_, rest₁, opening, read⟩ := read
  have fewer := length_lt_of_outcome opening
  cases close : ahead (takeSymbol? .rightBracket rest₁) with
  | some pair =>
    obtain ⟨p, rfl⟩ := ahead_takeSymbol?_eq_some_iff.mp close
    rw [close] at read
    cases read
    exact Nat.lt_of_succ_lt fewer
  | none =>
    simp only [close, bind_eq_ok, Prod.exists, pure_eq_ok, Prod.mk.injEq] at read
    obtain ⟨_, rest₂, items, _, rest₃, closing, -, rfl⟩ := read
    have afterItems := length_lt_of_outcome items
    exact Nat.lt_trans (length_lt_of_outcome closing) (Nat.lt_trans afterItems fewer)

theorem readCallArguments_le {ts rest : List Token} {arguments : List Argument}
    (read : readCallArguments ts = .ok (arguments, rest)) : rest.length ≤ ts.length := by
  rw [readCallArguments] at read
  cases close : ahead (takeSymbol? .rightParen ts) with
  | some pair =>
    rw [close] at read
    cases read
    exact Nat.le_refl _
  | none =>
    rw [close] at read
    exact Nat.le_of_lt (length_lt_of_outcome read)

end Proofs

/-! ## Rules -/

namespace Rule
open Proofs

def read : (rule : Rule) → Reader rule.Tree
  | statement => fun ts => outcome (parseStatement ts)
  | assignment => readAssignment
  | loop => readLoop
  | block => fun ts => outcome (parseBlock ts)
  | invocation => readInvocation
  | arguments => readCallArguments
  | expression => fun ts => outcome (parseSum ts)
  | product => fun ts => outcome (parseProduct ts)
  | unary => fun ts => outcome (parseUnary ts)
  | primary => fun ts => outcome (parsePrimary ts)
  | array => readArray

theorem shortens_read : ∀ {rule : Rule}, rule ≠ .arguments → Shortens rule.read
  | statement, _ => shortens_outcome parseStatement
  | assignment, _ => shortens_readAssignment
  | loop, _ => shortens_readLoop
  | block, _ => shortens_outcome parseBlock
  | invocation, _ => shortens_readInvocation
  | expression, _ => shortens_outcome parseSum
  | product, _ => shortens_outcome parseProduct
  | unary, _ => shortens_outcome parseUnary
  | primary, _ => shortens_outcome parsePrimary
  | array, _ => shortens_readArray

end Rule

end SolidScript
