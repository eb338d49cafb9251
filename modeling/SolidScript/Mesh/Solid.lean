import SolidScript.Mesh

/-!
# Solids

The two solids of the language as closed surfaces: a box of twelve triangles, and a cylinder of
four triangles for each segment of its ring. Either stands on the origin's coordinate planes or is
centered on the origin.
-/

namespace SolidScript

variable {α : Type}

/-- Where an extent starts along its axis: half of it below zero if centered, else at zero. -/
def lowEnd [Neg α] [Div α] [OfNat α 0] [OfNat α 2] (centered : Bool) (extent : α) : α :=
  if centered then -extent / 2 else 0

def quad (a b c d : Vertex α) : List (Triangle α) := [⟨a, b, c⟩, ⟨a, c, d⟩]

/-- The faces of the box between two opposite corners, wound outward. -/
def boxFaces (low high : Vertex α) : List (Triangle α) :=
  let v₀ : Vertex α := ⟨low.x, low.y, low.z⟩
  let v₁ : Vertex α := ⟨high.x, low.y, low.z⟩
  let v₂ : Vertex α := ⟨high.x, high.y, low.z⟩
  let v₃ : Vertex α := ⟨low.x, high.y, low.z⟩
  let v₄ : Vertex α := ⟨low.x, low.y, high.z⟩
  let v₅ : Vertex α := ⟨high.x, low.y, high.z⟩
  let v₆ : Vertex α := ⟨high.x, high.y, high.z⟩
  let v₇ : Vertex α := ⟨low.x, high.y, high.z⟩
  quad v₀ v₃ v₂ v₁ ++ quad v₄ v₅ v₆ v₇ ++ quad v₀ v₁ v₅ v₄ ++
    quad v₁ v₂ v₆ v₅ ++ quad v₂ v₃ v₇ v₆ ++ quad v₃ v₀ v₄ v₇

def box [Neg α] [Add α] [Div α] [OfNat α 0] [OfNat α 2] (size : Vertex α) (centered : Bool) :
    List (Triangle α) :=
  let low : Vertex α := ⟨lowEnd centered size.x, lowEnd centered size.y, lowEnd centered size.z⟩
  boxFaces low (low.shift size)

/-- Each element of a ring with the one after it; the last is followed by the first. -/
def neighbours {β : Type} (ring : List β) : List (β × β) := ring.zip (ring.drop 1 ++ ring.take 1)

/-- The four triangles between two neighbouring points of a ring: two at the side, one in the
bottom and one in the top. -/
def wedge [OfNat α 0] (low high : α) (p q : α × α) : List (Triangle α) :=
  let below (point : α × α) : Vertex α := ⟨point.1, point.2, low⟩
  let above (point : α × α) : Vertex α := ⟨point.1, point.2, high⟩
  [⟨below p, below q, above q⟩, ⟨below p, above q, above p⟩,
   ⟨⟨0, 0, low⟩, below q, below p⟩, ⟨⟨0, 0, high⟩, above p, above q⟩]

/-- The prism over a ring of points in the plane, closed by fans around the axis. -/
def prism [Neg α] [Add α] [Div α] [OfNat α 0] [OfNat α 2] (height : α) (ring : List (α × α))
    (centered : Bool) : List (Triangle α) :=
  let low := lowEnd centered height
  (neighbours ring).flatMap fun (p, q) => wedge low (low + height) p q

def pi : Float := 3.141592653589793

/-- Points on a circle around the origin, evenly spaced, the first on the positive axis. -/
def circle (radius : Float) (segments : Nat) : List (Float × Float) :=
  (List.range segments).map fun i =>
    let angle := 2 * pi * i.toFloat / segments.toFloat
    (angle.cos * radius, angle.sin * radius)

/-- A cylinder around the third axis, approximated by a number of segments. -/
def cylinder (height radius : Float) (segments : Nat) (centered : Bool) : Mesh :=
  prism height (circle radius segments) centered

end SolidScript
