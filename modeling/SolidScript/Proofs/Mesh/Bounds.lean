import SolidScript.Mesh.Bounds
import SolidScript.Proofs.Number.Overflow

namespace SolidScript

def Vertex.All (P : Float → Prop) (v : Vertex Float) : Prop := P v.x ∧ P v.y ∧ P v.z

instance (P : Float → Prop) [DecidablePred P] (v : Vertex Float) : Decidable (v.All P) :=
  inferInstanceAs (Decidable (_ ∧ _ ∧ _))

def Mesh.All (P : Float → Prop) (mesh : Mesh) : Prop :=
  ∀ v ∈ mesh.flatMap Triangle.vertices, v.All P

instance (P : Float → Prop) [DecidablePred P] (mesh : Mesh) : Decidable (mesh.All P) :=
  inferInstanceAs (Decidable (∀ v ∈ mesh.flatMap Triangle.vertices, v.All P))

def Bounds.All (P : Float → Prop) (b : Bounds) : Prop :=
  b.min.All P ∧ b.max.All P ∧ b.size.All P ∧ b.center.All P

namespace Proofs

variable {P Q R : Float → Prop} {v w : Vertex Float}

theorem Vertex.All.zipWith {f : Float → Float → Float} (combine : ∀ {x y}, P x → Q y → R (f x y))
    (first : v.All P) (second : w.All Q) : (v.zipWith f w).All R :=
  ⟨combine first.1 second.1, combine first.2.1 second.2.1, combine first.2.2 second.2.2⟩

theorem lesser_of {x y : Float} (first : P x) (second : P y) : P (lesser x y) := by
  unfold lesser
  split
  · exact first
  · exact second

theorem greater_of {x y : Float} (first : P x) (second : P y) : P (greater x y) := by
  unfold greater
  split
  · exact first
  · exact second

theorem foldl_all {f : Float → Float → Float} (keeps : ∀ {x y}, P x → P y → P (f x y))
    (first : v.All P) {vs : List (Vertex Float)} (others : ∀ w ∈ vs, w.All P) :
    (vs.foldl (Vertex.zipWith f) v).All P := by
  induction vs generalizing v with
  | nil => exact first
  | cons w vs ih =>
    exact ih (Vertex.All.zipWith keeps first (others w List.mem_cons_self))
      fun u member => others u (List.mem_cons_of_mem w member)

theorem bounds_of_all {mesh : Mesh} {b : Bounds} (bounded : mesh.bounds? = some b)
    (all : mesh.All P) : b.min.All P ∧ b.max.All P ∧ b = .ofEnds b.min b.max := by
  unfold Mesh.bounds? at bounded
  unfold Mesh.All at all
  cases vertices : mesh.flatMap Triangle.vertices with
  | nil =>
    rw [vertices] at bounded
    cases bounded
  | cons v vs =>
    rw [vertices] at bounded all
    cases bounded
    have first := all v List.mem_cons_self
    have others : ∀ w ∈ vs, w.All P := fun w member => all w (List.mem_cons_of_mem v member)
    exact ⟨foldl_all lesser_of first others, foldl_all greater_of first others, rfl⟩

theorem bounds_finite {mesh : Mesh} {b : Bounds} (bounded : mesh.bounds? = some b)
    (half : mesh.All (Number.inHalfRange · = true)) : b.All (·.isFinite = true) := by
  obtain ⟨low, high, parts⟩ := bounds_of_all bounded half
  have finite {v : Vertex Float} (half : v.All (Number.inHalfRange · = true)) :
      v.All (·.isFinite = true) :=
    ⟨isFinite_of_half half.1, isFinite_of_half half.2.1, isFinite_of_half half.2.2⟩
  have size : (b.max.zipWith (· - ·) b.min).All (·.isFinite = true) :=
    Vertex.All.zipWith isFinite_sub_of_half high low
  have center : (b.min.zipWith (fun l h => (l + h) / 2) b.max).All (·.isFinite = true) :=
    Vertex.All.zipWith (fun l h => isFinite_div_two (isFinite_add_of_half l h)) low high
  rw [parts]
  exact ⟨finite low, finite high, size, center⟩

end Proofs

end SolidScript
