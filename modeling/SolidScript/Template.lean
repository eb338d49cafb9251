import SolidScript.Bindings
import SolidScript.Evaluation.Statement
import SolidScript.Metadata
import SolidScript.Program.Parse
import SolidScript.Text.Quoted

namespace SolidScript

structure Template where
  source : String
  metadata : Metadata
  program : Program
deriving Repr

inductive TemplateFault where
  | metadata (e : MetadataError)
  | source (e : SourceError)
deriving Repr

def TemplateFault.message : TemplateFault → String
  | .metadata e => e.message
  | .source e => e.message

namespace Template

/-- The template with a text. Its metadata are read first, with an identifier to fall back on. -/
def ofSource (source fallback : String) : Except TemplateFault Template := do
  let fallback := if fallback.isEmpty then Metadata.defaultId else fallback
  let metadata ← (Metadata.ofSource source fallback).mapError .metadata
  let program ← (parseProgram source).mapError .source
  return { source, metadata, program }

def id (t : Template) : String := t.metadata.id

end Template

/-! ## Parameters -/

/-- The ends between which a parameter is kept. An end that is not finite does not bind. -/
structure Limits where
  low : Float
  high : Float
deriving Repr

def Limits.clamp (limits : Limits) (x : Float) : Float :=
  if limits.low.isFinite && x < limits.low then limits.low
  else if limits.high.isFinite && limits.high < x then limits.high
  else x

structure UnknownParameter where
  template : String
  key : String
  known : List String
deriving DecidableEq, Repr

def UnknownParameter.message (e : UnknownParameter) : String :=
  let known := String.intercalate ", " e.known
  "Template " ++ Text.quoted e.template ++ " has no parameter " ++ Text.quoted e.key ++
    " (known: " ++ (if known.isEmpty then "none" else known) ++ ")"

namespace Template

/-- The default of each parameter. Of parameters with one key, the first gives the place and the
last the value. -/
def defaults (t : Template) : Bindings Float :=
  .ofPairs (t.metadata.params.map fun p => (p.key, p.defaultValue))

/-- The limits of each parameter, of the last one with its key. -/
def limits (t : Template) : Bindings Limits :=
  .ofPairs (t.metadata.params.map fun p => (p.key, ⟨p.min, p.max⟩))

/-- Give one parameter a value, within its limits if `clamp` is set. -/
def override (t : Template) (clamp : Bool) (params : Bindings Float) (entry : String × Float) :
    Except UnknownParameter (Bindings Float) :=
  match t.limits.get? entry.1 with
  | some limits => .ok (params.set entry.1 (if clamp then limits.clamp entry.2 else entry.2))
  | none => .error ⟨t.id, entry.1, t.defaults.keys⟩

def resolve (t : Template) (overrides : Bindings Float) (clamp : Bool) :
    Except UnknownParameter (Bindings Float) :=
  overrides.foldlM (t.override clamp) t.defaults

end Template

/-! ## Rendering -/

inductive RenderError where
  | unknownParameter (e : UnknownParameter)
  | eval (e : EvalError)
deriving Repr

def RenderError.message : RenderError → String
  | .unknownParameter e => e.message
  | .eval e => e.message

/-- A run of a template's program: the parameters it started from, what came out, and the loops
that ended, in this order. -/
structure Rendering where
  params : Bindings Float
  outcome : Except EvalError Mesh
  loops : List LoopNote

def Rendering.mesh (r : Rendering) : Except RenderError Mesh := r.outcome.mapError .eval

namespace Template

def frame (params : Bindings Float) : Frame := params.map fun entry => (entry.1, .number entry.2)

def rendering (t : Template) (overrides : Bindings Float) (settings : Settings) (clamp : Bool) :
    Except RenderError Rendering := do
  let params ← (t.resolve overrides clamp).mapError .unknownParameter
  let (outcome, machine) := t.program.run settings (frame params)
  return ⟨params, outcome, machine.notes.reverse⟩

def render (t : Template) (overrides : Bindings Float) (settings : Settings) (clamp : Bool) :
    Except RenderError Mesh := do
  (← t.rendering overrides settings clamp).mesh

end Template

/-! ## Resolved sources -/

/-- One assignment for each parameter, a blank line, and the trimmed text. -/
def resolvedSource (source : String) (params : Bindings Float) : String :=
  let assignment (entry : String × Float) : String :=
    entry.1 ++ " = " ++ String.ofList (Number.scriptText entry.2) ++ ";"
  String.intercalate "\n" (params.map assignment) ++ "\n\n" ++ Text.trimText source ++ "\n"

def Template.resolvedSource (t : Template) (overrides : Bindings Float) :
    Except UnknownParameter String := do
  return SolidScript.resolvedSource t.source (← t.resolve overrides true)

end SolidScript
