namespace SolidScript

structure Vertex (α : Type) where
  x : α
  y : α
  z : α
deriving Repr, DecidableEq

/-- Three corners, seen counterclockwise from outside. -/
structure Triangle (α : Type) where
  a : Vertex α
  b : Vertex α
  c : Vertex α
deriving Repr, DecidableEq

abbrev Mesh := List (Triangle Float)

variable {α : Type}

def Vertex.shift [Add α] (v offset : Vertex α) : Vertex α :=
  ⟨v.x + offset.x, v.y + offset.y, v.z + offset.z⟩

def Triangle.shift [Add α] (t : Triangle α) (offset : Vertex α) : Triangle α :=
  ⟨t.a.shift offset, t.b.shift offset, t.c.shift offset⟩

def Triangle.vertices (t : Triangle α) : List (Vertex α) := [t.a, t.b, t.c]

end SolidScript
