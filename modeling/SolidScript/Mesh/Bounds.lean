import SolidScript.Mesh

namespace SolidScript

structure Bounds where
  min : Vertex Float
  max : Vertex Float
  size : Vertex Float
  center : Vertex Float
deriving Repr

/-- The lesser of two numbers, the second if they are equal; what is no number wins. -/
def lesser (x y : Float) : Float := if x < y || x.isNaN then x else y

/-- The greater of two numbers, the second if they are equal; what is no number wins. -/
def greater (x y : Float) : Float := if y < x || x.isNaN then x else y

namespace Vertex

def zipWith {α β γ : Type} (f : α → β → γ) (v : Vertex α) (w : Vertex β) : Vertex γ :=
  ⟨f v.x w.x, f v.y w.y, f v.z w.z⟩

def map {α β : Type} (f : α → β) (v : Vertex α) : Vertex β := ⟨f v.x, f v.y, f v.z⟩

end Vertex

def Bounds.ofEnds (low high : Vertex Float) : Bounds where
  min := low
  max := high
  size := high.zipWith (· - ·) low
  center := low.zipWith (fun l h => (l + h) / 2) high

def Mesh.bounds? (mesh : Mesh) : Option Bounds :=
  match mesh.flatMap Triangle.vertices with
  | [] => none
  | v :: vs => some <| .ofEnds (vs.foldl (Vertex.zipWith lesser) v)
      (vs.foldl (Vertex.zipWith greater) v)

end SolidScript
