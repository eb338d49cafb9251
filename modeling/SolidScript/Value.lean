import SolidScript.Number.Layout

/-!
# Values

What an expression can mean: a number, a truth value, or a vector of values. A truth value stays
one until it is used as a number.
-/

namespace SolidScript

inductive Value where
  | number (x : Float)
  | boolean (b : Bool)
  | vector (items : List Value)
deriving Repr, Inhabited

namespace Value

/-- The number that a value stands for in arithmetic: a finite number itself, one for true and zero
for false. -/
def toNumber? : Value → Option Float
  | .number x => if x.isFinite then some x else none
  | .boolean true => some 1
  | .boolean false => some 0
  | .vector _ => none

/-- Whether a flag with this value is set: a number other than zero, or a vector with items. -/
def isTruthy : Value → Bool
  | .number x => !(x == 0)
  | .boolean b => b
  | .vector items => !items.isEmpty

/-! ## Text

A vector is written in parentheses; one item alone is followed by a comma. -/

mutual

def describe : Value → String
  | .number x => Number.text x
  | .boolean true => "True"
  | .boolean false => "False"
  | .vector [] => "()"
  | .vector [item] => "(" ++ item.describe ++ ",)"
  | .vector (item :: next :: rest) =>
    "(" ++ item.describe ++ ", " ++ next.describe ++ describeRest rest ++ ")"

def describeRest : List Value → String
  | [] => ""
  | item :: rest => ", " ++ item.describe ++ describeRest rest

end

end Value

end SolidScript
