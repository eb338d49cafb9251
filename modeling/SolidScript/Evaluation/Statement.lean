import SolidScript.Evaluation.Expression
import SolidScript.Mesh.Solid
import SolidScript.Number.Exact
import SolidScript.Settings

/-!
# Statements

A program runs on a machine that holds the scope and the notes of the loops that ended. A
statement draws a mesh, or fails; what it did to the machine before it failed stays. The blocks of
calls and the rounds of loops run in a frame of their own, which is dropped at their end.
-/

namespace SolidScript

/-! ## Machines -/

/-- A loop that came to its end, and how many rounds it made. -/
structure LoopNote where
  counter : String
  rounds : Nat
deriving DecidableEq, Repr

structure Machine where
  scope : Scope
  /-- The notes of the loops that ended, the latest first. -/
  notes : List LoopNote := []

def Exec (α : Type) := Machine → Except EvalError α × Machine

namespace Exec

instance : Monad Exec where
  pure a := fun machine => (.ok a, machine)
  bind x f := fun machine =>
    match x machine with
    | (.ok a, machine) => f a machine
    | (.error e, machine) => (.error e, machine)

def fail {α : Type} (e : EvalError) : Exec α := fun machine => (.error e, machine)

/-- A result that depends on the scope and leaves the machine as it is. -/
def read {α : Type} (f : Scope → Except EvalError α) : Exec α := fun machine =>
  (f machine.scope, machine)

def bindName (name : String) (value : Value) : Exec Unit := fun machine =>
  (.ok (), { machine with scope := machine.scope.set name value })

def note (entry : LoopNote) : Exec Unit := fun machine =>
  (.ok (), { machine with notes := entry :: machine.notes })

/-- Run in a fresh frame, which is left again also after a failure. -/
def inFrame {α : Type} (frame : Frame) (act : Exec α) : Exec α := fun machine =>
  let (result, after) := act { machine with scope := machine.scope.enter frame }
  (result, { after with scope := after.scope.leave })

end Exec

/-! ## Loops -/

/-- The values of a loop's counter: from `start` by `step` as long as they are in reach. -/
structure Range where
  start : Float
  step : Float
  finish : Float

namespace Range

def reaches (range : Range) (tolerance value : Float) : Bool :=
  if 0 < range.step then value ≤ range.finish + tolerance
  else range.finish - tolerance ≤ value

/-- The range of a loop. Without a step the counter goes by one toward the end. -/
def eval (start : Expr) (step : Option Expr) (finish : Expr) (scope : Scope) :
    Except EvalError Range := do
  let first ← start.evalNumber scope
  let last ← finish.evalNumber scope
  let step ← match step with
    | some step => step.evalNumber scope
    | none => pure (if first ≤ last then 1 else -1)
  if step == 0 then throw .zeroStep
  return ⟨first, step, last⟩

end Range

/-- The most rounds that a loop may make, and the error if they do not suffice. -/
structure RoundLimit where
  rounds : Nat
  error : EvalError

/-- A budget limits the rounds. Without one a loop has as many rounds as there are doubles: one
that needs more has bound some value twice, and never ends. -/
def Settings.roundLimit (settings : Settings) : RoundLimit :=
  match settings.loopBudget with
  | some budget => ⟨budget, .budgetExceeded budget⟩
  | none => ⟨Nat.pow 2 64, .endlessLoop⟩

/-- The rounds of a loop from a value of its counter on. `drawn` holds what the rounds before drew,
the latest triangle first. -/
def Range.run (range : Range) (tolerance : Float) (error : EvalError) (body : Float → Exec Mesh)
    (left done : Nat) (value : Float) (drawn : Mesh) (machine : Machine) :
    Except EvalError (Nat × Mesh) × Machine :=
  if range.reaches tolerance value then
    match left with
    | 0 => (.error error, machine)
    | left + 1 =>
      match body value machine with
      | (.error e, machine) => (.error e, machine)
      | (.ok mesh, machine) =>
        range.run tolerance error body left (done + 1) (value + range.step)
          (mesh.reverseAux drawn) machine
  else (.ok (done, drawn.reverse), machine)

/-- All rounds of a loop, with a note at its end. -/
def Range.loop (range : Range) (settings : Settings) (counter : String)
    (body : Float → Exec Mesh) : Exec Mesh := do
  let limit := settings.roundLimit
  let (rounds, mesh) ←
    (range.run settings.loopTolerance limit.error body limit.rounds 0 range.start [] :
      Exec (Nat × Mesh))
  Exec.note ⟨counter, rounds⟩
  return mesh

/-! ## Calls -/

inductive Primitive where
  | union | translate | cube | cylinder
deriving DecidableEq, Repr

def Primitive.name : Primitive → String
  | .union => "union"
  | .translate => "translate"
  | .cube => "cube"
  | .cylinder => "cylinder"

def Primitive.ofName? : String → Option Primitive
  | "union" => some .union
  | "translate" => some .translate
  | "cube" => some .cube
  | "cylinder" => some .cylinder
  | _ => none

namespace Head

def require (primitive : Primitive) (argument : String) (e : Option Expr) :
    Except EvalError Expr :=
  match e with
  | some e => .ok e
  | none => .error (.missingArgument primitive.name argument)

def flag (head : Head) (key : String) (scope : Scope) : Except EvalError Bool :=
  match head.named.get? key with
  | some e => do return (← e.eval scope).isTruthy
  | none => .ok false

/-- A number rounded to the nearest integer, half upward, but at least the minimum. -/
def segments (settings : Settings) (number : Float) : Nat :=
  max settings.minSegments ((Number.floor? (number + 0.5)).getD 0).toNat

def countAsNumber (count : Nat) : Except EvalError Float :=
  if Number.holdsNatural count then .ok count.toFloat else .error .countTooLarge

/-- A box: its size by name or as the first argument. -/
def cube (head : Head) (scope : Scope) : Except EvalError Mesh := do
  let size ← require .cube "size" (head.namedOrFirst? "size")
  let size ← (← size.eval scope).asVertex
  let centered ← head.flag "center" scope
  return box size centered

def segmentNumber (settings : Settings) (head : Head) (scope : Scope) : Except EvalError Float :=
  match head.named.get? "$fn" with
  | some e => e.evalNumber scope
  | none => do (Value.number (← countAsNumber settings.defaultSegments)).asNumber

/-- A cylinder: its height by name or as the first argument, its radius or its diameter by name. -/
def cylinder (settings : Settings) (head : Head) (scope : Scope) : Except EvalError Mesh := do
  let height ← require .cylinder "h" (head.namedOrFirst? "h")
  let radius := head.named.get? "r"
  let across ← require .cylinder "r or d" (radius <|> head.named.get? "d")
  let height ← height.evalNumber scope
  let across ← across.evalNumber scope
  let radius := if radius.isSome then across else across / 2
  let centered ← head.flag "center" scope
  let segments := segments settings (← head.segmentNumber settings scope)
  -- The angle of a segment is a fraction of the count.
  let _ ← countAsNumber segments
  return SolidScript.cylinder height radius segments centered

def offset (head : Head) (scope : Scope) : Except EvalError (Vertex Float) := do
  let e ← require .translate "vector" head.positional.head?
  (← e.eval scope).asVertex

def run (settings : Settings) (head : Head) (block : Option (Exec Mesh)) : Exec Mesh :=
  match Primitive.ofName? head.name with
  | none => .fail (.unsupportedCall head.name head.position)
  | some .cube => .read head.cube
  | some .cylinder => .read (head.cylinder settings)
  | some .union =>
    match block with
    | none => .fail (.missingArgument Primitive.union.name "block")
    | some block => block
  | some .translate =>
    match block with
    | none => .fail (.missingArgument Primitive.translate.name "block")
    | some block => do
      let offset ← Exec.read head.offset
      let mesh ← block
      return mesh.map (·.shift offset)

end Head

/-! ## Statements -/

mutual

def Stmt.run (settings : Settings) : Stmt → Exec Mesh
  | .assign name value => do
    let value ← Exec.read value.eval
    Exec.bindName name value
    return []
  | .loop counter start step finish body => do
    let range ← Exec.read (Range.eval start step finish)
    range.loop settings counter fun value =>
      Exec.inFrame [(counter, .number value)] (Stmt.runAll settings body)
  | .call head none => head.run settings none
  | .call head (some block) =>
    head.run settings (some (Exec.inFrame [] (Stmt.runAll settings block)))

def Stmt.runAll (settings : Settings) : List Stmt → Exec Mesh
  | [] => pure []
  | statement :: statements => do
    let mesh ← statement.run settings
    let rest ← Stmt.runAll settings statements
    return mesh ++ rest

end

/-! ## Programs -/

/-- Run a program with its parameters in the root frame. -/
def Program.run (program : Program) (settings : Settings) (params : Frame) :
    Except EvalError Mesh × Machine :=
  Stmt.runAll settings program { scope := .root params }

def Program.eval (program : Program) (settings : Settings) (params : Frame) :
    Except EvalError Mesh :=
  (program.run settings params).1

end SolidScript
