import SolidScript.Number.Reading
import SolidScript.Text.Line

/-!
# Metadata

A script may describe itself in comment lines that start with two slashes, a space and an at
sign. The lines are read one by one, apart from the grammar of the script. The last line that
gives an identifier, a name or a description wins; parameters are collected in order.
-/

namespace SolidScript

/-- An adjustable number of a script. A field that is no plain decimal is no number. -/
structure Parameter where
  key : String
  label : String
  min : Float
  max : Float
  step : Float
  defaultValue : Float
deriving Repr

structure Metadata where
  id : String
  name : String
  description : String := ""
  params : List Parameter := []
deriving Repr

/-- A parameter line with too few fields, trimmed. -/
structure MetadataError where
  line : String
deriving DecidableEq, Repr

def MetadataError.message (e : MetadataError) : String := "Invalid @param metadata: " ++ e.line

/-! ## Lines -/

def fieldNumber (cs : List Char) : Float := (Number.ofDecimal? cs).getD Number.nan

/-- A parameter from its fields between bars. Fields after the sixth are ignored. -/
def Parameter.ofFields? : List (List Char) → Option Parameter
  | key :: label :: min :: max :: step :: defaultValue :: _ =>
    some ⟨String.ofList key, String.ofList label, fieldNumber min, fieldNumber max,
      fieldNumber step, fieldNumber defaultValue⟩
  | _ => none

inductive Directive where
  | id (value : String)
  | name (value : String)
  | description (value : String)
  | param (value : Parameter)
deriving Repr

namespace Directive

def mark : List Char := "// @".toList

def paramFields (body : List Char) : List (List Char) := (Text.fields '|' body).map Text.trim

/-- The directive in a trimmed text after the mark: a word, a space and a value. `line` is the
whole line, for the error. A word without a value and an unknown word are no directive. -/
def ofCommand (line command : List Char) : Except MetadataError (Option Directive) :=
  match command.dropWhile (· ≠ ' ') with
  | [] => .ok none
  | _ :: rest =>
    let value := String.ofList (Text.trim rest)
    match String.ofList (command.takeWhile (· ≠ ' ')) with
    | "id" => .ok (some (.id value))
    | "name" => .ok (some (.name value))
    | "description" => .ok (some (.description value))
    | "param" =>
      match Parameter.ofFields? (paramFields rest) with
      | some parameter => .ok (some (.param parameter))
      | none => .error ⟨String.ofList line⟩
    | _ => .ok none

def ofLine (line : List Char) : Except MetadataError (Option Directive) :=
  let line := Text.trim line
  match Text.dropStart? mark line with
  | some command => ofCommand line (Text.trim command)
  | none => .ok none

end Directive

/-! ## Scripts -/

namespace Metadata

def named (id : String) : Metadata := { id, name := id }

def apply (m : Metadata) : Directive → Metadata
  | .id value => { m with id := value }
  | .name value => { m with name := value }
  | .description value => { m with description := value }
  | .param value => { m with params := m.params ++ [value] }

def readLine (m : Metadata) (line : List Char) : Except MetadataError Metadata := do
  match ← Directive.ofLine line with
  | some directive => return m.apply directive
  | none => return m

def defaultId : String := "brick"

/-- The metadata of a script; `fallback` is its identifier and name if it gives none. -/
def ofSource (source fallback : String) : Except MetadataError Metadata :=
  (Text.lines source.toList).foldlM readLine (named fallback)

def paramKeys (m : Metadata) : List String := m.params.map Parameter.key

end Metadata

end SolidScript
