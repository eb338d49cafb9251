import SolidScript.Evaluation.Error
import SolidScript.Files.Fault
import SolidScript.Yaml.Fault

/-!
# Breakdowns

Failures that the program has no message of its own for. A command that meets one ends with nothing
but its exit code.
-/

namespace SolidScript

inductive Breakdown where
  /-- The bytes of a file are no text. -/
  | undecodable
  /-- The text of a path holds a character that ends a path. -/
  | noPath
  /-- A path is refused before it is known whether something stands there. -/
  | refused (path : String) (fault : PathFault)
  /-- A scalar or a key of a document has no meaning. -/
  | document (fault : Yaml.Fault)
  /-- A document names a setting by something else than a text. -/
  | namelessSetting
  /-- A setting asks for more segments than a double can count. -/
  | countTooLarge
deriving DecidableEq, Repr

def Breakdown.message : Breakdown → String
  | .undecodable => "undecodable bytes"
  | .noPath => "embedded null byte"
  | .refused path fault => fault.message path
  | .document fault => fault.message
  | .namelessSetting => "keywords must be strings"
  | .countTooLarge => EvalError.countTooLarge.message

end SolidScript
