import SolidScript.Evaluation.Error
import SolidScript.Mesh
import SolidScript.Program
import SolidScript.Scope

/-!
# Expressions

The value of an expression in a scope. Operands are evaluated from the left and must be numbers;
the first error is the result.
-/

namespace SolidScript

/-- The value as a number, or the error that it is none. -/
def Value.asNumber (value : Value) : Except EvalError Float :=
  match value.toNumber? with
  | some x => .ok x
  | none => .error (.notANumber value)

/-- A vector of three numbers. The arity is checked before the items. -/
def Value.asVertex : Value → Except EvalError (Vertex Float)
  | .vector [x, y, z] => do
    let x ← x.asNumber
    let y ← y.asNumber
    let z ← z.asNumber
    return ⟨x, y, z⟩
  | value => .error (.notAVector 3 value)

def Operator.apply : Operator → Float → Float → Except EvalError Float
  | .add, x, y => .ok (x + y)
  | .sub, x, y => .ok (x - y)
  | .mul, x, y => .ok (x * y)
  | .div, x, y => if y == 0 then .error .divisionByZero else .ok (x / y)

mutual

def Expr.eval (scope : Scope) : Expr → Except EvalError Value
  | .number value => .ok (.number value)
  | .boolean value => .ok (.boolean value)
  | .var name =>
    match scope.get? name with
    | some value => .ok value
    | none => .error (.undefinedVariable name)
  | .array items => do
    let values ← evalAll scope items
    return .vector values
  | .negate operand => do
    let x ← (← operand.eval scope).asNumber
    return .number (-x)
  | .binary op left right => do
    let x ← (← left.eval scope).asNumber
    let y ← (← right.eval scope).asNumber
    let z ← op.apply x y
    return .number z

def Expr.evalAll (scope : Scope) : List Expr → Except EvalError (List Value)
  | [] => .ok []
  | e :: es => do
    let value ← e.eval scope
    let values ← evalAll scope es
    return value :: values

end

def Expr.evalNumber (e : Expr) (scope : Scope) : Except EvalError Float := do
  (← e.eval scope).asNumber

end SolidScript
