import SolidScript.Mesh.Bounds

namespace SolidScript

def Vertex.cross (a b : Vertex Float) : Vertex Float :=
  ⟨a.y * b.z - a.z * b.y, a.z * b.x - a.x * b.z, a.x * b.y - a.y * b.x⟩

def Vertex.norm (v : Vertex Float) : Float := ((v.x * v.x + v.y * v.y) + v.z * v.z).sqrt

def Triangle.normal (t : Triangle Float) : Vertex Float :=
  let cross := (t.b.zipWith (· - ·) t.a).cross (t.c.zipWith (· - ·) t.a)
  let length := if cross.norm == 0 then 1 else cross.norm
  cross.map (· / length)

end SolidScript
