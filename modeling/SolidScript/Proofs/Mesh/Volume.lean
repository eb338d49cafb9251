import Mathlib.Algebra.BigOperators.Fin
import Mathlib.Algebra.Order.Ring.Rat
import Mathlib.Tactic.Linarith
import Mathlib.Tactic.Ring
import SolidScript.Proofs.Mesh.Closed

namespace SolidScript

/-- Six times the signed volume of the tetrahedron between the origin and a triangle. -/
def Triangle.det (t : Triangle ℚ) : ℚ :=
  t.a.x * (t.b.y * t.c.z - t.b.z * t.c.y) - t.a.y * (t.b.x * t.c.z - t.b.z * t.c.x) +
    t.a.z * (t.b.x * t.c.y - t.b.y * t.c.x)

def signedVolume (mesh : List (Triangle ℚ)) : ℚ := (mesh.map Triangle.det).sum / 6

def planeCross (p q : ℚ × ℚ) : ℚ := p.1 * q.2 - p.2 * q.1

/-- The signed area inside a ring of points, which is positive if they go counterclockwise. -/
def ringArea {n : ℕ} (ring : Fin (n + 1) → ℚ × ℚ) : ℚ :=
  (∑ i, planeCross (ring i) (ring (i + 1))) / 2

namespace Proofs
open scoped List

def edgeTerm (o : Vertex ℚ) (e : Vertex ℚ × Vertex ℚ) : ℚ := Triangle.det ⟨o, e.1, e.2⟩

theorem edgeTerm_swap (o : Vertex ℚ) (e : Vertex ℚ × Vertex ℚ) :
    edgeTerm o e.swap = -edgeTerm o e := by
  simp only [edgeTerm, Triangle.det, Prod.fst_swap, Prod.snd_swap]
  ring

theorem det_shift (t : Triangle ℚ) (o : Vertex ℚ) :
    (t.shift o).det = t.det + ((edges t).map (edgeTerm o)).sum := by
  simp only [Triangle.det, Triangle.shift, Vertex.shift, edges, edgeTerm, List.map_cons,
    List.map_nil, List.sum_cons, List.sum_nil]
  ring

theorem sum_det_shift (mesh : List (Triangle ℚ)) (o : Vertex ℚ) :
    ((mesh.map (·.shift o)).map Triangle.det).sum =
      (mesh.map Triangle.det).sum + ((meshEdges mesh).map (edgeTerm o)).sum := by
  induction mesh with
  | nil => simp [meshEdges]
  | cons t mesh ih =>
    have first : meshEdges (t :: mesh) = edges t ++ meshEdges mesh := List.flatMap_cons
    simp only [List.map_cons, List.sum_cons, ih, det_shift, first, List.map_append, List.sum_append]
    ring

theorem sum_edgeTerm_swap (o : Vertex ℚ) (es : List (Vertex ℚ × Vertex ℚ)) :
    ((es.map Prod.swap).map (edgeTerm o)).sum = -(es.map (edgeTerm o)).sum := by
  induction es with
  | nil => simp
  | cons e es ih =>
    simp only [List.map_cons, List.sum_cons, ih, edgeTerm_swap]
    ring

theorem sum_det_shift_of_closed {mesh : List (Triangle ℚ)} (closed : Closed mesh) (o : Vertex ℚ) :
    ((mesh.map (·.shift o)).map Triangle.det).sum = (mesh.map Triangle.det).sum := by
  have turned := (closed.map (edgeTerm o)).sum_eq
  rw [sum_edgeTerm_swap] at turned
  have cancelled : ((meshEdges mesh).map (edgeTerm o)).sum = 0 := by linarith
  rw [sum_det_shift, cancelled, add_zero]

theorem sum_det_boxFaces (low high : Vertex ℚ) :
    ((boxFaces low high).map Triangle.det).sum =
      6 * ((high.x - low.x) * (high.y - low.y) * (high.z - low.z)) := by
  simp only [boxFaces, quad, Triangle.det, List.cons_append, List.nil_append, List.map_cons,
    List.map_nil, List.sum_cons, List.sum_nil]
  ring

theorem sum_det_box (size : Vertex ℚ) (centered : Bool) :
    ((box size centered).map Triangle.det).sum = 6 * (size.x * size.y * size.z) := by
  rw [box, sum_det_boxFaces]
  simp only [Vertex.shift, add_sub_cancel_left]

theorem sum_det_wedge (low high : ℚ) (p q : ℚ × ℚ) :
    ((wedge low high p q).map Triangle.det).sum = 3 * (high - low) * planeCross p q := by
  -- The sides of a wedge are two thirds of it, and its bottom and top the rest.
  simp only [wedge, Triangle.det, planeCross, List.map_cons, List.map_nil, List.sum_cons,
    List.sum_nil]
  ring

theorem sum_det_wedges (low high : ℚ) (pairs : List ((ℚ × ℚ) × (ℚ × ℚ))) :
    ((pairs.flatMap fun (p, q) => wedge low high p q).map Triangle.det).sum =
      3 * (high - low) * (pairs.map fun (p, q) => planeCross p q).sum := by
  induction pairs with
  | nil => simp
  | cons pair pairs ih =>
    simp only [List.flatMap_cons, List.map_append, List.sum_append, List.map_cons, List.sum_cons,
      ih, sum_det_wedge]
    ring

theorem neighbours_ofFn {β : Type} {n : ℕ} (ring : Fin (n + 1) → β) :
    neighbours (List.ofFn ring) = List.ofFn fun i => (ring i, ring (i + 1)) := by
  apply List.ext_getElem
  · simp [neighbours]
  · intro i small small'
    have bound : i < n + 1 := by simpa using small'
    simp only [neighbours, List.getElem_zip, List.getElem_append, List.getElem_ofFn,
      List.length_drop, List.length_ofFn, List.getElem_drop, List.getElem_take, Prod.mk.injEq,
      true_and]
    split
    · apply congrArg ring
      apply Fin.ext
      rw [Fin.val_add_one_of_lt (Fin.lt_def.mpr (by simpa using ‹_›))]
      exact Nat.add_comm 1 i
    · have last : (⟨i, bound⟩ : Fin (n + 1)) = Fin.last n := by
        apply Fin.ext
        change i = n
        omega
      rw [last, Fin.last_add_one]
      apply congrArg ring
      apply Fin.ext
      simp only [Fin.val_zero]
      omega

theorem sum_det_prism {n : ℕ} (ring : Fin (n + 1) → ℚ × ℚ) (height : ℚ) (centered : Bool) :
    ((prism height (List.ofFn ring) centered).map Triangle.det).sum =
      3 * height * ∑ i, planeCross (ring i) (ring (i + 1)) := by
  rw [prism, neighbours_ofFn, sum_det_wedges, add_sub_cancel_left, List.map_ofFn, List.sum_ofFn]
  rfl

/-- Whatever the signs of its extents, the triangles of a box sum up to their product, and those of
a prism to its height times the area of its ring, which may have any points. A move changes neither
sum. So a box is wound outward exactly if the product is positive, and a prism exactly if its height
and the sense of its ring have the same sign. -/
theorem solids_signed_volume :
    (∀ (size : Vertex ℚ) (centered : Bool),
      ((box size centered).map Triangle.det).sum = 6 * (size.x * size.y * size.z) ∧
      (∀ offset, (((box size centered).map (·.shift offset)).map Triangle.det).sum =
        ((box size centered).map Triangle.det).sum) ∧
      (0 < signedVolume (box size centered) ↔ 0 < size.x * size.y * size.z)) ∧
    ∀ (n : ℕ) (ring : Fin (n + 1) → ℚ × ℚ) (height : ℚ) (centered : Bool),
      (prism height (List.ofFn ring) centered).length = 4 * (n + 1) ∧
      ((prism height (List.ofFn ring) centered).map Triangle.det).sum =
        3 * height * ∑ i, planeCross (ring i) (ring (i + 1)) ∧
      (∀ offset, (((prism height (List.ofFn ring) centered).map (·.shift offset)).map
          Triangle.det).sum = ((prism height (List.ofFn ring) centered).map Triangle.det).sum) ∧
      (0 < signedVolume (prism height (List.ofFn ring) centered) ↔ 0 < height * ringArea ring) := by
  refine ⟨fun size centered => ⟨sum_det_box size centered, ?_, ?_⟩,
    fun n ring height centered => ⟨?_, sum_det_prism ring height centered, ?_, ?_⟩⟩
  · exact sum_det_shift_of_closed (closed_boxFaces _ _)
  · have volume : signedVolume (box size centered) = size.x * size.y * size.z := by
      rw [signedVolume, sum_det_box]
      ring
    rw [volume]
  · have count : (neighbours (List.ofFn ring)).length = n + 1 := by
      rw [neighbours_ofFn, List.length_ofFn]
    rw [prism, List.length_flatMap]
    generalize neighbours (List.ofFn ring) = pairs at count ⊢
    simp [wedge, count, Nat.mul_comm]
  · exact sum_det_shift_of_closed (closed_prism height _ centered)
  · have volume : signedVolume (prism height (List.ofFn ring) centered) =
        height * ringArea ring := by
      rw [signedVolume, sum_det_prism, ringArea]
      ring
    rw [volume]

end Proofs

end SolidScript
