import SolidScript.Files.Inquiry

namespace SolidScript

/-- What a place holds. A file whose bytes are no text has none. -/
inductive Entry where
  | folder
  | file (text : Option String)
deriving DecidableEq, Repr

/-- A file system, whatever it is made of. A place is what paths lead to: several of them may lead to
the same one. A write tells whether it succeeded, and leaves a state of the system either way. -/
structure FileSystem where
  State : Type
  Place : Type
  entry? : State → Place → Option Entry
  place? : State → String → Option Place
  sight : State → String → Sight
  write : State → String → String → Except PathFault Unit × State

end SolidScript
