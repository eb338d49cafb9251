import SolidScript.Template

namespace SolidScript

inductive Note where
  | usingSettings (path : String)
  | parsed (tokens statements : Nat)
  | loaded (id : String) (params : Nat)
  | rendering (id : String) (params : Bindings Float)
  | loop (entry : LoopNote)
  | evaluated (statements triangles : Nat)
deriving Repr

namespace Note

/-- How often more has to be asked for until a note is shown: once for news, twice for details. -/
def level : Note → Nat
  | .usingSettings _ => 1
  | .loaded .. => 1
  | .parsed .. => 2
  | .rendering .. => 2
  | .loop _ => 2
  | .evaluated .. => 2

def origin : Note → String
  | .usingSettings _ => "tinyscad.cli"
  | .parsed .. => "tinyscad.parser"
  | .loaded .. => "tinyscad.templates"
  | .rendering .. => "tinyscad.templates"
  | .loop _ => "tinyscad.evaluator"
  | .evaluated .. => "tinyscad.evaluator"

def paramsText (params : Bindings Float) : String :=
  let entry (p : String × Float) : String := Text.quoted p.1 ++ ": " ++ Number.text p.2
  "\x7b" ++ String.intercalate ", " (params.map entry) ++ "\x7d"

def message : Note → String
  | .usingSettings path => "Using engine config from " ++ path
  | .parsed tokens statements =>
    "Parsed " ++ toString tokens ++ " tokens into " ++ toString statements ++
      " top-level statements"
  | .loaded id params =>
    "Loaded template " ++ Text.quoted id ++ " (" ++ toString params ++ " params)"
  | .rendering id params =>
    "Rendering template " ++ Text.quoted id ++ " with " ++ paramsText params
  | .loop entry => "for " ++ entry.counter ++ ": " ++ toString entry.rounds ++ " iterations"
  | .evaluated statements triangles =>
    "Evaluated " ++ toString statements ++ " statements into " ++ toString triangles ++
      " triangles"

def line (note : Note) : String :=
  (if note.level = 1 then "INFO " else "DEBUG ") ++ note.origin ++ ": " ++ note.message ++ "\n"

end Note

structure Journal where
  /-- How often the user asked for more. -/
  verbosity : Nat := 0
  /-- The notes, the latest first. -/
  notes : List Note := []

namespace Journal

def add (journal : Journal) (note : Note) : Journal :=
  { journal with notes := note :: journal.notes }

def text (journal : Journal) : String :=
  let shown := journal.notes.reverse.filter fun note => note.level ≤ journal.verbosity
  String.join (shown.map Note.line)

end Journal

end SolidScript
