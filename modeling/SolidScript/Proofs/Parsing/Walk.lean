import SolidScript.Program.Parse

/-!
# Parsing as a walk

The parser takes its tokens off a list, and the type of what it returns tells that fewer are left.
Here the same rules walk over the tokens by position, and only fuel bounds them, of which a rule and
a round of a loop have less than what called them: a walk may look beyond the tokens, and one that
stands still in a loop has no result with any fuel. Its trail keeps where it looked and the rounds
of its loops, which read the factors of a product, the terms of a sum, the items of an array, the
arguments of a call, and the statements of a block and of a program.
-/

namespace SolidScript

structure Round where
  start : Nat
  finish : Nat
deriving DecidableEq, Repr

/-- The position of a walk, and what it did so far, the latest first. -/
structure Trail where
  position : Nat
  /-- The positions that it looked at. -/
  looks : List Nat := []
  rounds : List Round := []
deriving DecidableEq, Repr

namespace Trail

def starting (position : Nat) : Trail := { position }

def look (trail : Trail) (offset : Nat) : Trail :=
  { trail with looks := (trail.position + offset) :: trail.looks }

def step (trail : Trail) : Trail := { trail with position := trail.position + 1 }

def endRound (trail : Trail) (start : Nat) : Trail :=
  { trail with rounds := ⟨start, trail.position⟩ :: trail.rounds }

end Trail

/-- A walk over tokens, whose end stands at the position after the last one. It has no result if its
fuel does not last, and keeps its trail if it fails. -/
abbrev Walk := ReaderT (List Token) (ExceptT Fault (StateT Trail Option))

namespace Walk

/-- The walk comes to this end, provided that it has enough fuel. -/
def Ends {α : Type} (w : Nat → Walk α) (tokens : List Token) (trail : Trail)
    (result : Except Fault α) (after : Trail) : Prop :=
  ∃ enough, ∀ fuel, enough ≤ fuel → w fuel tokens trail = some (result, after)

/-! ## Steps -/

def outOfFuel {α : Type} : Walk α := fun _ _ => none

def lookAt (offset : Nat) : Walk (Option Token) := fun tokens trail =>
  some (.ok tokens[trail.position + offset]?, trail.look offset)

def step : Walk Unit := fun _ trail => some (.ok (), trail.step)

def fail {α : Type} (expected : Expectation) : Walk α := fun tokens trail =>
  some (.error ⟨expected, tokens.drop trail.position⟩, trail)

def here : Walk Nat := fun _ trail => some (.ok trail.position, trail)

def endRound (start : Nat) : Walk Unit := fun _ trail => some (.ok (), trail.endRound start)

/-! ## Single tokens -/

def isAhead (word : Lexeme → Bool) (offset : Nat) : Walk Bool :=
  return (← lookAt offset).any fun t => word t.lexeme

def isSymbol (s : Symbol) (offset : Nat) : Walk Bool := isAhead (· = .symbol s) offset

def isFor : Walk Bool := isAhead (· = .identifier "for") 0

def isIdentifier : Walk Bool :=
  isAhead (fun | .identifier _ => true | _ => false) 0

/-- Whether an identifier and an equals sign stand here. The second place is looked at only if an
identifier stands at the first. -/
def isKey : Walk Bool := do
  if ← isIdentifier then isSymbol .equals 1 else return false

def isEnd : Walk Bool := return (← lookAt 0).isNone

def matchSymbol (s : Symbol) : Walk Bool := do
  if ← isSymbol s 0 then
    step
    return true
  else return false

def consumeSymbol (s : Symbol) : Walk Unit := do
  if ← isSymbol s 0 then step else fail (.symbol s)

def consumeFor : Walk Unit := do
  if ← isFor then step else fail .identifier

def consumeIdentifier : Walk (String × Position) := do
  match ← lookAt 0 with
  | some ⟨.identifier name, p⟩ =>
    step
    return (name, p)
  | _ => fail .identifier

def consumeKey : Walk String := do
  let (name, _) ← consumeIdentifier
  consumeSymbol .equals
  return name

def operatorAhead (first second : Operator) : Walk (Option Operator) := do
  if ← isSymbol first.symbol 0 then return some first
  else if ← isSymbol second.symbol 0 then return some second
  else return none

/-! ## Expressions -/

def atom : Walk Expr := do
  match ← lookAt 0 with
  | some ⟨.number numeral, _⟩ =>
    step
    return .ofNumeral numeral
  | some ⟨.identifier name, _⟩ =>
    step
    return .ofName name
  | _ => fail .expression

mutual

def sum : Nat → Walk Expr
  | 0 => outOfFuel
  | fuel + 1 => do terms (← product fuel) fuel

def terms : Expr → Nat → Walk Expr
  | _, 0 => outOfFuel
  | left, fuel + 1 => do
    let start ← here
    match ← operatorAhead .add .sub with
    | some op =>
      consumeSymbol op.symbol
      let right ← product fuel
      endRound start
      terms (.binary op left right) fuel
    | none => return left

def product : Nat → Walk Expr
  | 0 => outOfFuel
  | fuel + 1 => do factors (← unary fuel) fuel

def factors : Expr → Nat → Walk Expr
  | _, 0 => outOfFuel
  | left, fuel + 1 => do
    let start ← here
    match ← operatorAhead .mul .div with
    | some op =>
      consumeSymbol op.symbol
      let right ← unary fuel
      endRound start
      factors (.binary op left right) fuel
    | none => return left

def unary : Nat → Walk Expr
  | 0 => outOfFuel
  | fuel + 1 => do
    if ← matchSymbol .minus then return .negate (← unary fuel) else primary fuel

def primary : Nat → Walk Expr
  | 0 => outOfFuel
  | fuel + 1 => do
    if ← matchSymbol .leftParen then
      let e ← sum fuel
      consumeSymbol .rightParen
      return e
    else if ← isSymbol .leftBracket 0 then array fuel
    else atom

def array : Nat → Walk Expr
  | 0 => outOfFuel
  | fuel + 1 => do
    consumeSymbol .leftBracket
    if ← matchSymbol .rightBracket then return .array []
    else
      let items ← items fuel
      consumeSymbol .rightBracket
      return .array items

def items : Nat → Walk (List Expr)
  | 0 => outOfFuel
  | fuel + 1 => do
    let first ← sum fuel
    return first :: (← moreItems fuel)

def moreItems : Nat → Walk (List Expr)
  | 0 => outOfFuel
  | fuel + 1 => do
    let start ← here
    if ← matchSymbol .comma then
      let item ← sum fuel
      endRound start
      return item :: (← moreItems fuel)
    else return []

end

/-! ## Arguments -/

def argument (fuel : Nat) : Walk Argument := do
  if ← isKey then
    let key ← consumeKey
    return .named key (← sum fuel)
  else return .positional (← sum fuel)

def argumentList : Nat → Walk (List Argument)
  | 0 => outOfFuel
  | fuel + 1 => do
    let start ← here
    let first ← argument fuel
    let more ← matchSymbol .comma
    endRound start
    if more then return first :: (← argumentList fuel) else return [first]

def arguments (fuel : Nat) : Walk (List Argument) := do
  if ← isSymbol .rightParen 0 then return [] else argumentList fuel

/-! ## Statements -/

def assignment (fuel : Nat) : Walk Stmt := do
  let name ← consumeKey
  let value ← sum fuel
  consumeSymbol .semicolon
  return .assign name value

def range (counter : String) (fuel : Nat) : Walk LoopHead := do
  consumeSymbol .leftBracket
  let start ← sum fuel
  consumeSymbol .colon
  let second ← sum fuel
  if ← matchSymbol .colon then
    let third ← sum fuel
    consumeSymbol .rightBracket
    return ⟨counter, start, some second, third⟩
  else
    consumeSymbol .rightBracket
    return ⟨counter, start, none, second⟩

def loopHead (fuel : Nat) : Walk LoopHead := do
  consumeSymbol .leftParen
  let (counter, _) ← consumeIdentifier
  consumeSymbol .equals
  let head ← range counter fuel
  consumeSymbol .rightParen
  return head

def head (fuel : Nat) : Walk Head := do
  let _ ← lookAt 0
  let (name, position) ← consumeIdentifier
  consumeSymbol .leftParen
  let list ← arguments fuel
  consumeSymbol .rightParen
  return .ofArguments name list position

def callEnd : Option (List Stmt) → Walk Unit
  | none => consumeSymbol .semicolon
  | some _ => do
    let _ ← matchSymbol .semicolon
    return ()

mutual

def statement : Nat → Walk Stmt
  | 0 => outOfFuel
  | fuel + 1 => do
    if ← isFor then loop fuel
    else if ← isKey then assignment fuel
    else
      let (head, block) ← invocation fuel
      callEnd block
      return .call head block

def loop : Nat → Walk Stmt
  | 0 => outOfFuel
  | fuel + 1 => do
    consumeFor
    let head ← loopHead fuel
    let body ← block fuel
    return .loop head.counter head.start head.step head.finish body

def block : Nat → Walk (List Stmt)
  | 0 => outOfFuel
  | fuel + 1 => do
    consumeSymbol .leftBrace
    blockRest fuel

def blockRest : Nat → Walk (List Stmt)
  | 0 => outOfFuel
  | fuel + 1 => do
    let start ← here
    if ← matchSymbol .rightBrace then return []
    else if ← isEnd then
      let _ ← lookAt 0
      fail .closingBrace
    else
      let first ← statement fuel
      endRound start
      return first :: (← blockRest fuel)

def invocation : Nat → Walk (Head × Option (List Stmt))
  | 0 => outOfFuel
  | fuel + 1 => do
    let head ← head fuel
    if ← isSymbol .leftBrace 0 then return (head, some (← block fuel)) else return (head, none)

end

def program : Nat → Walk Program
  | 0 => outOfFuel
  | fuel + 1 => do
    let start ← here
    if ← isEnd then return []
    else
      let first ← statement fuel
      endRound start
      return first :: (← program fuel)

end Walk

/-! ## Rules -/

inductive Rule where
  | statement | assignment | loop | block | invocation | arguments
  | expression | product | unary | primary | array
deriving DecidableEq, Repr

namespace Rule

abbrev Tree : Rule → Type
  | statement | assignment | loop => Stmt
  | block => List Stmt
  | invocation => Head × Option (List Stmt)
  | arguments => List Argument
  | expression | product | unary | primary | array => Expr

def walk : (rule : Rule) → Nat → Walk rule.Tree
  | statement => Walk.statement
  | assignment => Walk.assignment
  | loop => Walk.loop
  | block => Walk.block
  | invocation => Walk.invocation
  | arguments => Walk.arguments
  | expression => Walk.sum
  | product => Walk.product
  | unary => Walk.unary
  | primary => Walk.primary
  | array => Walk.array

end Rule

end SolidScript
