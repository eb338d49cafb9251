import SolidScript.Number.Reading
import SolidScript.Program
import SolidScript.Token.Scan

/-!
# Parsing

Recursive descent over the tokens. Each function returns what it read and the tokens that are
left, with a bound on their number, so every step is seen to make progress. A fault keeps the
tokens from the first one that cannot stand at its place.
-/

namespace SolidScript

/-! ## Faults -/

/-- What could have stood where the parser stopped. -/
inductive Expectation where
  | expression
  | symbol (s : Symbol)
  | identifier
  | closingBrace
deriving DecidableEq, Repr

/-- The tokens from the first impossible one on; none if the script ended too early. -/
structure Fault where
  expected : Expectation
  rest : List Token
deriving DecidableEq, Repr

/-- Why a token stream is no program: what was expected, what was found, and where. -/
structure ParseError where
  expected : Expectation
  found : String
  position : Position
deriving DecidableEq, Repr

def Fault.toError (finish : Position) (fault : Fault) : ParseError :=
  match fault.rest with
  | [] => ⟨fault.expected, endText, finish⟩
  | token :: _ => ⟨fault.expected, token.lexeme.text, token.position⟩

open Text in
def ParseError.message (e : ParseError) : String :=
  let message := match e.expected with
    | .expression => "Unexpected token: " ++ e.found
    | .symbol s => "Expected symbol " ++ quoted s.char.toString ++ ", found " ++ quoted e.found
    | .identifier => "Expected an identifier, found " ++ quoted e.found
    | .closingBrace => "Unterminated block. Missing '\x7d'"
  placedMessage message e.position

/-! ## Steps -/

/-- What was read, and fewer than `bound` tokens that are left. -/
structure Parsed (α : Type) (bound : Nat) where
  value : α
  rest : List Token
  fits : rest.length < bound

/-- A parse that reads at least one token of `ts`. -/
abbrev Parse (α : Type) (ts : List Token) := Except Fault (Parsed α ts.length)

/-- A parse that may also read nothing. -/
abbrev ParseMany (α : Type) (ts : List Token) := Except Fault (Parsed α (ts.length + 1))

def takeSymbol? (s : Symbol) : (ts : List Token) → Option (Parsed Unit ts.length)
  | [] => none
  | t :: ts => if t.lexeme = .symbol s then some ⟨(), ts, by simp⟩ else none

def takeSymbol (s : Symbol) (ts : List Token) : Parse Unit ts :=
  match takeSymbol? s ts with
  | some read => .ok read
  | none => .error ⟨.symbol s, ts⟩

def takeIdentifier? : (ts : List Token) → Option (Parsed (String × Position) ts.length)
  | ⟨.identifier name, p⟩ :: ts => some ⟨(name, p), ts, by simp⟩
  | _ => none

def takeIdentifier (ts : List Token) : Parse (String × Position) ts :=
  match takeIdentifier? ts with
  | some read => .ok read
  | none => .error ⟨.identifier, ts⟩

def takeKey? (ts : List Token) : Option (Parsed String ts.length) := do
  let ⟨(name, _), rest, h⟩ ← takeIdentifier? ts
  let ⟨_, rest, h₁⟩ ← takeSymbol? .equals rest
  return ⟨name, rest, by omega⟩

def takeFor? (ts : List Token) : Option (Parsed Unit ts.length) := do
  let ⟨(name, _), rest, h⟩ ← takeIdentifier? ts
  if name = "for" then return ⟨(), rest, h⟩ else none

/-! ## Expressions -/

def sumOperator? : Lexeme → Option Operator
  | .symbol .plus => some .add
  | .symbol .minus => some .sub
  | _ => none

def productOperator? : Lexeme → Option Operator
  | .symbol .star => some .mul
  | .symbol .slash => some .div
  | _ => none

/-- The words for the two truth values are no variables. -/
def Expr.ofName : String → Expr
  | "true" => .boolean true
  | "false" => .boolean false
  | name => .var name

def Expr.ofNumeral (numeral : String) : Expr := .number (Number.ofNumeral numeral.toList)

mutual

def parsePrimary : (ts : List Token) → Parse Expr ts
  | [] => .error ⟨.expression, []⟩
  | t :: ts =>
    match t.lexeme with
    | .number numeral => .ok ⟨.ofNumeral numeral, ts, by simp⟩
    | .identifier name => .ok ⟨.ofName name, ts, by simp⟩
    | .symbol .leftParen => do
      let ⟨e, rest, h⟩ ← parseSum ts
      let ⟨_, rest', h'⟩ ← takeSymbol .rightParen rest
      return ⟨e, rest', by simp; omega⟩
    | .symbol .leftBracket => do
      match takeSymbol? .rightBracket ts with
      | some ⟨_, rest, h⟩ => return ⟨.array [], rest, by simp; omega⟩
      | none =>
        let ⟨items, rest, h⟩ ← parseItems ts
        let ⟨_, rest', h'⟩ ← takeSymbol .rightBracket rest
        return ⟨.array items, rest', by simp; omega⟩
    | .symbol _ => .error ⟨.expression, t :: ts⟩
termination_by ts => (ts.length, 0)

/-- One or more expressions with commas between them. -/
def parseItems (ts : List Token) : Parse (List Expr) ts := do
  let ⟨item, rest, h⟩ ← parseSum ts
  match takeSymbol? .comma rest with
  | some ⟨_, rest', h'⟩ =>
    let ⟨items, rest'', h''⟩ ← parseItems rest'
    return ⟨item :: items, rest'', by omega⟩
  | none => return ⟨[item], rest, h⟩
termination_by (ts.length, 4)

/-- Any number of minus signs before a primary. -/
def parseUnary (ts : List Token) : Parse Expr ts := do
  match takeSymbol? .minus ts with
  | some ⟨_, inner, h⟩ =>
    let ⟨e, rest, h'⟩ ← parseUnary inner
    return ⟨.negate e, rest, by omega⟩
  | none => parsePrimary ts
termination_by (ts.length, 1)

def parseProduct (ts : List Token) : Parse Expr ts := do
  let ⟨first, rest, h⟩ ← parseUnary ts
  let ⟨e, rest', h'⟩ ← parseFactors first rest
  return ⟨e, rest', by omega⟩
termination_by (ts.length, 2)

def parseFactors (left : Expr) : (ts : List Token) → ParseMany Expr ts
  | [] => return ⟨left, [], by simp⟩
  | t :: ts =>
    match productOperator? t.lexeme with
    | none => return ⟨left, t :: ts, by simp⟩
    | some op => do
      let ⟨right, rest, h⟩ ← parseUnary ts
      let ⟨e, rest', h'⟩ ← parseFactors (.binary op left right) rest
      return ⟨e, rest', by simp; omega⟩
termination_by ts => (ts.length, 0)

def parseSum (ts : List Token) : Parse Expr ts := do
  let ⟨first, rest, h⟩ ← parseProduct ts
  let ⟨e, rest', h'⟩ ← parseTerms first rest
  return ⟨e, rest', by omega⟩
termination_by (ts.length, 3)

def parseTerms (left : Expr) : (ts : List Token) → ParseMany Expr ts
  | [] => return ⟨left, [], by simp⟩
  | t :: ts =>
    match sumOperator? t.lexeme with
    | none => return ⟨left, t :: ts, by simp⟩
    | some op => do
      let ⟨right, rest, h⟩ ← parseProduct ts
      let ⟨e, rest', h'⟩ ← parseTerms (.binary op left right) rest
      return ⟨e, rest', by simp; omega⟩
termination_by ts => (ts.length, 0)

end

/-! ## Arguments -/

/-- One argument: it is named if an identifier with an equals sign stands there. -/
def parseArgument (ts : List Token) : Parse Argument ts := do
  match takeKey? ts with
  | some ⟨key, rest, h⟩ =>
    let ⟨e, rest, h₁⟩ ← parseSum rest
    return ⟨.named key e, rest, by omega⟩
  | none =>
    let ⟨e, rest, h⟩ ← parseSum ts
    return ⟨.positional e, rest, h⟩

def parseArgumentList (ts : List Token) : Parse (List Argument) ts := do
  let ⟨argument, rest, h⟩ ← parseArgument ts
  match takeSymbol? .comma rest with
  | some ⟨_, rest, h₁⟩ =>
    let ⟨arguments, rest, h₂⟩ ← parseArgumentList rest
    return ⟨argument :: arguments, rest, by omega⟩
  | none => return ⟨[argument], rest, h⟩
termination_by ts.length

def parseArguments (ts : List Token) : Parse (List Argument) ts := do
  match takeSymbol? .rightParen ts with
  | some ⟨_, rest, h⟩ => return ⟨[], rest, h⟩
  | none =>
    let ⟨arguments, rest, h⟩ ← parseArgumentList ts
    let ⟨_, rest, h₁⟩ ← takeSymbol .rightParen rest
    return ⟨arguments, rest, by omega⟩

def parseHead (ts : List Token) : Parse Head ts := do
  let ⟨(name, position), rest, h⟩ ← takeIdentifier ts
  let ⟨_, rest, h₁⟩ ← takeSymbol .leftParen rest
  let ⟨arguments, rest, h₂⟩ ← parseArguments rest
  return ⟨.ofArguments name arguments position, rest, by omega⟩

/-! ## Statements -/

structure LoopHead where
  counter : String
  start : Expr
  step : Option Expr
  finish : Expr

/-- A range of two or three expressions in brackets; of three, the middle one is the step. -/
def parseRange (counter : String) (ts : List Token) : Parse LoopHead ts := do
  let ⟨_, rest, h⟩ ← takeSymbol .leftBracket ts
  let ⟨start, rest, h₁⟩ ← parseSum rest
  let ⟨_, rest, h₂⟩ ← takeSymbol .colon rest
  let ⟨second, rest, h₃⟩ ← parseSum rest
  match takeSymbol? .colon rest with
  | some ⟨_, rest, h₄⟩ =>
    let ⟨third, rest, h₅⟩ ← parseSum rest
    let ⟨_, rest, h₆⟩ ← takeSymbol .rightBracket rest
    return ⟨⟨counter, start, some second, third⟩, rest, by omega⟩
  | none =>
    let ⟨_, rest, h₄⟩ ← takeSymbol .rightBracket rest
    return ⟨⟨counter, start, none, second⟩, rest, by omega⟩

/-- The parentheses after the word of loops: a counter, an equals sign and a range. -/
def parseLoopHead (ts : List Token) : Parse LoopHead ts := do
  let ⟨_, rest, h⟩ ← takeSymbol .leftParen ts
  let ⟨(counter, _), rest, h₁⟩ ← takeIdentifier rest
  let ⟨_, rest, h₂⟩ ← takeSymbol .equals rest
  let ⟨head, rest, h₃⟩ ← parseRange counter rest
  let ⟨_, rest, h₄⟩ ← takeSymbol .rightParen rest
  return ⟨head, rest, by omega⟩

mutual

/-- A statement that begins with the word of loops is a loop; one that begins with an identifier
and an equals sign is an assignment; any other is a call. -/
def parseStatement (ts : List Token) : Parse Stmt ts := do
  match takeFor? ts with
  | some ⟨_, rest, h⟩ =>
    let ⟨head, rest, h₁⟩ ← parseLoopHead rest
    let ⟨body, rest, h₂⟩ ← parseBlock rest
    return ⟨.loop head.counter head.start head.step head.finish body, rest, by omega⟩
  | none =>
    match takeKey? ts with
    | some ⟨name, rest, h⟩ =>
      let ⟨value, rest, h₁⟩ ← parseSum rest
      let ⟨_, rest, h₂⟩ ← takeSymbol .semicolon rest
      return ⟨.assign name value, rest, by omega⟩
    | none =>
      let ⟨head, rest, h⟩ ← parseHead ts
      let ⟨block, rest, h₁⟩ ← parseCallEnd rest
      return ⟨.call head block, rest, by omega⟩
termination_by (ts.length, 0)

/-- A call without a block ends with a semicolon; after a block the semicolon may be missing. -/
def parseCallEnd (ts : List Token) : Parse (Option (List Stmt)) ts := do
  match takeSymbol? .leftBrace ts with
  | some ⟨_, rest, h⟩ =>
    let ⟨block, rest, h₁⟩ ← parseBlockRest rest
    match takeSymbol? .semicolon rest with
    | some ⟨_, rest, h₂⟩ => return ⟨some block, rest, by omega⟩
    | none => return ⟨some block, rest, by omega⟩
  | none =>
    let ⟨_, rest, h⟩ ← takeSymbol .semicolon ts
    return ⟨none, rest, h⟩
termination_by (ts.length, 0)

def parseBlock (ts : List Token) : Parse (List Stmt) ts := do
  let ⟨_, rest, h⟩ ← takeSymbol .leftBrace ts
  let ⟨block, rest, h₁⟩ ← parseBlockRest rest
  return ⟨block, rest, by omega⟩
termination_by (ts.length, 0)

def parseBlockRest (ts : List Token) : Parse (List Stmt) ts := do
  match takeSymbol? .rightBrace ts with
  | some ⟨_, rest, h⟩ => return ⟨[], rest, h⟩
  | none =>
    if ts.isEmpty then throw ⟨.closingBrace, ts⟩
    let ⟨statement, rest, h⟩ ← parseStatement ts
    let ⟨statements, rest, h₁⟩ ← parseBlockRest rest
    return ⟨statement :: statements, rest, by omega⟩
termination_by (ts.length, 1)

end

def parseStatements (ts : List Token) : Except Fault Program := do
  if ts.isEmpty then return []
  let ⟨statement, rest, _⟩ ← parseStatement ts
  let statements ← parseStatements rest
  return statement :: statements
termination_by ts.length

/-! ## Programs -/

inductive SourceError where
  | scan (e : ScanError)
  | parse (e : ParseError)
deriving DecidableEq, Repr

def SourceError.message : SourceError → String
  | .scan e => e.message
  | .parse e => e.message

def TokenStream.parse (stream : TokenStream) : Except ParseError Program :=
  (parseStatements stream.tokens).mapError (Fault.toError stream.finish)

def parseProgram (source : String) : Except SourceError Program := do
  let stream ← (scan source).mapError .scan
  stream.parse.mapError .parse

end SolidScript
