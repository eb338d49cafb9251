import SolidScript.Token
import SolidScript.Value

namespace SolidScript

inductive EvalError where
  | undefinedVariable (name : String)
  | notANumber (value : Value)
  | divisionByZero
  | zeroStep
  | unsupportedCall (name : String) (position : Position)
  | missingArgument (call argument : String)
  | notAVector (arity : Nat) (value : Value)
  | budgetExceeded (budget : Nat)
  | endlessLoop
  /-- A count of segments that no double holds. -/
  | countTooLarge
deriving Repr

def EvalError.message : EvalError → String
  | .undefinedVariable name => "Undefined variable: " ++ name
  | .notANumber value => "Expected a number, received: " ++ value.describe
  | .divisionByZero => "Division by zero"
  | .zeroStep => "For-loop step cannot be 0"
  | .unsupportedCall name p => placedMessage ("Unsupported call: " ++ name) p
  | .missingArgument call argument => call ++ " requires " ++ argument
  | .notAVector arity value =>
    "Expected a " ++ toString arity ++ "-item vector, received: " ++ value.describe
  | .budgetExceeded budget => "For-loop exceeded the iteration budget of " ++ toString budget
  | .endlessLoop => "For-loop never ends"
  | .countTooLarge => "int too large to convert to float"

end SolidScript
