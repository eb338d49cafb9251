import SolidScript.Json
import SolidScript.Mesh.Bounds
import SolidScript.Template

namespace SolidScript

def finite? (x : Float) : Option Float := if x.isFinite then some x else none

structure ParameterReport where
  key : String
  label : String
  min : Option Float
  max : Option Float
  step : Option Float
  defaultValue : Option Float
  value : Option Float
deriving Repr

structure Inspection where
  id : String
  name : String
  description : String
  params : List ParameterReport
  triangleCount : Nat
  bounds : Option Bounds
deriving Repr

def Parameter.report (values : Bindings Float) (p : Parameter) : ParameterReport where
  key := p.key
  label := p.label
  min := finite? p.min
  max := finite? p.max
  step := finite? p.step
  defaultValue := finite? p.defaultValue
  value := (values.get? p.key).bind finite?

def Inspection.ofMesh (metadata : Metadata) (values : Bindings Float) (mesh : Mesh) :
    Inspection where
  id := metadata.id
  name := metadata.name
  description := metadata.description
  params := metadata.params.map (·.report values)
  triangleCount := mesh.length
  bounds := mesh.bounds?

/-- Render a template with some parameters overridden and inspect the mesh. The parameters are
resolved first, and the resolved values are then rendered as they are. -/
def Template.inspect (t : Template) (overrides : Bindings Float) (settings : Settings)
    (clamp : Bool) : Except RenderError Inspection := do
  let values ← (t.resolve overrides clamp).mapError .unknownParameter
  let mesh ← t.render values settings false
  return .ofMesh t.metadata values mesh

namespace Inspection

/-! ## Lines -/

def padRight (width : Nat) (s : String) : String :=
  s ++ String.ofList (List.replicate (width - s.length) ' ')

def numberText : Option Float → String
  | some x => String.ofList (Number.generalText x)
  | none => "NaN"

def vertexText (v : Vertex Float) : String :=
  let coordinate (x : Float) : String := String.ofList (Number.fixedText 4 x)
  "[" ++ coordinate v.x ++ ", " ++ coordinate v.y ++ ", " ++ coordinate v.z ++ "]"

def paramLine (p : ParameterReport) : String :=
  "  " ++ padRight 16 p.key ++ " = " ++ numberText p.value ++ "  [" ++ numberText p.min ++ " .. " ++
    numberText p.max ++ ", step " ++ numberText p.step ++ "]  " ++ p.label

def boundsLines : Option Bounds → List String
  | none => ["Bounds: (empty mesh)"]
  | some b =>
    ["Bounds min:    " ++ vertexText b.min, "Bounds max:    " ++ vertexText b.max,
      "Bounds size:   " ++ vertexText b.size, "Bounds center: " ++ vertexText b.center]

/-- The lines of a report; the description has one if it is not empty. -/
def lines (i : Inspection) : List String :=
  ["Template: " ++ i.name ++ " (" ++ i.id ++ ")"] ++
    (if i.description.isEmpty then [] else ["  " ++ i.description]) ++
    ["Params: " ++ toString i.params.length] ++ i.params.map paramLine ++
    ["Triangles: " ++ toString i.triangleCount] ++ boundsLines i.bounds

def text (i : Inspection) : String := String.intercalate "\n" i.lines ++ "\n"

/-! ## JSON -/

def numberJson : Option Float → Json
  | some x => .real x
  | none => .null

def vertexJson (v : Vertex Float) : Json := .array [.real v.x, .real v.y, .real v.z]

def paramJson (p : ParameterReport) : Json :=
  .object [("key", .text p.key), ("label", .text p.label), ("min", numberJson p.min),
    ("max", numberJson p.max), ("step", numberJson p.step),
    ("default", numberJson p.defaultValue), ("value", numberJson p.value)]

def boundsJson : Option Bounds → Json
  | none => .null
  | some b =>
    .object [("min", vertexJson b.min), ("max", vertexJson b.max), ("size", vertexJson b.size),
      ("center", vertexJson b.center)]

/-- The inspection as a document. The bounds are given as they are, also if they are not finite. -/
def json (i : Inspection) : Json :=
  .object [("id", .text i.id), ("name", .text i.name), ("description", .text i.description),
    ("params", .array (i.params.map paramJson)), ("triangle_count", .integer i.triangleCount),
    ("bounds", boundsJson i.bounds)]

end Inspection

end SolidScript
