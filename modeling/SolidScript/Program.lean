import SolidScript.Bindings
import SolidScript.Token

namespace SolidScript

inductive Operator where
  | add | sub | mul | div
deriving DecidableEq, Repr

def Operator.symbol : Operator → Symbol
  | .add => .plus
  | .sub => .minus
  | .mul => .star
  | .div => .slash

inductive Expr where
  | number (value : Float)
  | boolean (value : Bool)
  | var (name : String)
  | array (items : List Expr)
  | negate (operand : Expr)
  | binary (op : Operator) (left right : Expr)
deriving Repr, Inhabited

inductive Argument where
  | positional (value : Expr)
  | named (key : String) (value : Expr)
deriving Repr

/-- A call without its block. -/
structure Head where
  name : String
  positional : List Expr
  named : Bindings Expr
  position : Position
deriving Repr

namespace Head

/-- Positional arguments keep their order; a repeated name keeps its first place and takes its
last expression. -/
def ofArguments (name : String) (arguments : List Argument) (position : Position) : Head where
  name
  positional := arguments.filterMap fun
    | .positional value => some value
    | .named _ _ => none
  named := Bindings.ofPairs <| arguments.filterMap fun
    | .positional _ => none
    | .named key value => some (key, value)
  position

def namedOrFirst? (head : Head) (key : String) : Option Expr :=
  head.named.get? key <|> head.positional.head?

end Head

inductive Stmt where
  | assign (name : String) (value : Expr)
  | loop (counter : String) (start : Expr) (step : Option Expr) (finish : Expr) (body : List Stmt)
  | call (head : Head) (block : Option (List Stmt))
deriving Repr

abbrev Program := List Stmt

end SolidScript
