import SolidScript.Mesh.Normal
import SolidScript.Number.Layout

/-!
# STL text

A mesh as an ASCII STL document: one facet of seven lines for each triangle between the lines that
open and close the solid. Numbers have six places, and zero has no sign.
-/

namespace SolidScript.Stl

def isNameChar (c : Char) : Bool := c.isAlphanum || c = '_' || c = '-'

/-- A name with an underscore for each character that may not stand in it. -/
def sanitize (name : String) : String :=
  String.ofList (name.toList.map fun c => if isNameChar c then c else '_')

def defaultName : String := "tinyscad"

/-- A coordinate rounded to six places. Adding zero takes the sign off a negative zero. -/
def coordinate (x : Float) : String :=
  String.ofList (Number.fixedText 6 (Number.roundToPlaces 6 x + 0))

def coordinates (v : Vertex Float) : String :=
  coordinate v.x ++ " " ++ coordinate v.y ++ " " ++ coordinate v.z

def facet (t : Triangle Float) : List String :=
  ["  facet normal " ++ coordinates t.normal,
   "    outer loop",
   "      vertex " ++ coordinates t.a,
   "      vertex " ++ coordinates t.b,
   "      vertex " ++ coordinates t.c,
   "    endloop",
   "  endfacet"]

def documentLines (mesh : Mesh) (name : String) : List String :=
  let name := sanitize name
  ("solid " ++ name) :: mesh.flatMap facet ++ ["endsolid " ++ name]

/-- The document, without a newline at its end. -/
def document (mesh : Mesh) (name : String) : String :=
  String.intercalate "\n" (documentLines mesh name)

end SolidScript.Stl
