import Mathlib.Data.List.Count
import Mathlib.Data.List.Perm.Basic
import Mathlib.Data.Prod.Basic
import SolidScript.Proofs.Evaluation.Drawing

namespace SolidScript.Proofs
open scoped List

variable {α β : Type}

def edges (t : Triangle α) : List (Vertex α × Vertex α) := [(t.a, t.b), (t.b, t.c), (t.c, t.a)]

def meshEdges (mesh : List (Triangle α)) : List (Vertex α × Vertex α) := mesh.flatMap edges

/-- Each directed edge occurs as often as the one against it. -/
def Closed (mesh : List (Triangle α)) : Prop :=
  meshEdges mesh ~ (meshEdges mesh).map Prod.swap

instance [DecidableEq α] (mesh : List (Triangle α)) : Decidable (Closed mesh) :=
  inferInstanceAs (Decidable (List.Perm _ _))

theorem closed_append {mesh mesh' : List (Triangle α)} (closed : Closed mesh)
    (closed' : Closed mesh') : Closed (mesh ++ mesh') := by
  rw [Closed, meshEdges, List.flatMap_append, List.map_append]
  exact List.Perm.append closed closed'

def mapCorners (f : Vertex α → Vertex β) (t : Triangle α) : Triangle β := ⟨f t.a, f t.b, f t.c⟩

theorem meshEdges_mapCorners (f : Vertex α → Vertex β) (mesh : List (Triangle α)) :
    meshEdges (mesh.map (mapCorners f)) = (meshEdges mesh).map (Prod.map f f) := by
  rw [meshEdges, meshEdges, List.flatMap_map, List.map_flatMap]
  rfl

theorem closed_mapCorners (f : Vertex α → Vertex β) {mesh : List (Triangle α)}
    (closed : Closed mesh) : Closed (mesh.map (mapCorners f)) := by
  have turned : (meshEdges mesh).map (Prod.swap ∘ Prod.map f f) =
      ((meshEdges mesh).map Prod.swap).map (Prod.map f f) := by
    rw [List.map_map]
    rfl
  rw [Closed, meshEdges_mapCorners, List.map_map, turned]
  exact List.Perm.map _ closed

theorem closed_of_perm_halves {mesh : List (Triangle α)} {half : List (Vertex α × Vertex α)}
    (halves : meshEdges mesh ~ half ++ half.map Prod.swap) : Closed mesh := by
  have turned : (half ++ half.map Prod.swap).map Prod.swap = half.map Prod.swap ++ half := by
    rw [List.map_append, List.map_map, Prod.swap_swap_eq, List.map_id]
  calc meshEdges mesh
    _ ~ half ++ half.map Prod.swap := halves
    _ ~ half.map Prod.swap ++ half := List.perm_append_comm
    _ ~ (meshEdges mesh).map Prod.swap := by rw [← turned]; exact (halves.map _).symm

def corner (low high : Vertex α) (v : Vertex Bool) : Vertex α :=
  ⟨cond v.x high.x low.x, cond v.y high.y low.y, cond v.z high.z low.z⟩

theorem boxFaces_eq_map (low high : Vertex α) :
    boxFaces low high =
      (boxFaces ⟨false, false, false⟩ ⟨true, true, true⟩).map (mapCorners (corner low high)) := rfl

theorem closed_boxFaces (low high : Vertex α) : Closed (boxFaces low high) := by
  rw [boxFaces_eq_map]
  exact closed_mapCorners _ (by decide)

theorem map_fst_neighbours (ring : List β) : (neighbours ring).map Prod.fst = ring := by
  rw [neighbours, List.map_fst_zip]
  simp
  omega

theorem map_snd_neighbours_perm (ring : List β) : (neighbours ring).map Prod.snd ~ ring := by
  rw [neighbours, List.map_snd_zip (by simp; omega)]
  exact List.perm_append_comm.trans (by rw [List.take_append_drop])

section
variable [OfNat α 0] (low high : α)

def innerEdges (pair : (α × α) × (α × α)) : List (Vertex α × Vertex α) :=
  let (p, q) := pair
  [(⟨p.1, p.2, low⟩, ⟨q.1, q.2, low⟩), (⟨q.1, q.2, high⟩, ⟨p.1, p.2, low⟩),
    (⟨q.1, q.2, high⟩, ⟨p.1, p.2, high⟩)]

def sharedEdges (p : α × α) : List (Vertex α × Vertex α) :=
  [(⟨p.1, p.2, low⟩, ⟨p.1, p.2, high⟩), (⟨0, 0, low⟩, ⟨p.1, p.2, low⟩),
    (⟨p.1, p.2, high⟩, ⟨0, 0, high⟩)]

theorem meshEdges_wedge_perm (pair : (α × α) × (α × α)) :
    meshEdges (wedge low high pair.1 pair.2) ~
      (innerEdges low high pair ++ (innerEdges low high pair).map Prod.swap) ++
        (sharedEdges low high pair.2 ++ (sharedEdges low high pair.1).map Prod.swap) := by
  classical
  rw [List.perm_iff_count]
  intro edge
  simp only [meshEdges, wedge, innerEdges, sharedEdges, edges, List.flatMap_cons, List.flatMap_nil,
    List.append_nil, List.cons_append, List.nil_append, List.map_cons, List.map_nil, Prod.swap_prod_mk,
    List.count_cons, List.count_nil]
  ac_rfl

theorem closed_wedges (ring : List (α × α)) :
    Closed ((neighbours ring).flatMap fun (p, q) => wedge low high p q) := by
  let inner := (neighbours ring).flatMap (innerEdges low high)
  let shared := ring.flatMap (sharedEdges low high)
  have inner_turned : (neighbours ring).flatMap (fun pair => (innerEdges low high pair).map Prod.swap) =
      inner.map Prod.swap := by
    rw [List.map_flatMap]
  have after : (neighbours ring).flatMap (fun pair => sharedEdges low high pair.2) ~ shared := by
    rw [← List.flatMap_map Prod.snd]
    exact (map_snd_neighbours_perm ring).flatMap_right _
  have before : (neighbours ring).flatMap
      (fun pair => (sharedEdges low high pair.1).map Prod.swap) = shared.map Prod.swap := by
    rw [List.map_flatMap]
    conv_rhs => rw [← map_fst_neighbours ring, List.flatMap_map]
  refine @closed_of_perm_halves _ _ (inner ++ shared) ?_
  calc meshEdges ((neighbours ring).flatMap fun (p, q) => wedge low high p q)
    _ = (neighbours ring).flatMap fun pair => meshEdges (wedge low high pair.1 pair.2) :=
      List.flatMap_assoc
    _ ~ (neighbours ring).flatMap fun pair =>
        (innerEdges low high pair ++ (innerEdges low high pair).map Prod.swap) ++
          (sharedEdges low high pair.2 ++ (sharedEdges low high pair.1).map Prod.swap) :=
      List.Perm.flatMap_left _ fun pair _ => meshEdges_wedge_perm low high pair
    _ ~ (inner ++ inner.map Prod.swap) ++ (shared ++ shared.map Prod.swap) := by
      refine (List.flatMap_append_perm _ _ _).symm.trans (.append ?_ ?_)
      · rw [← inner_turned]
        exact (List.flatMap_append_perm _ _ _).symm
      · rw [← before]
        exact (List.flatMap_append_perm _ _ _).symm.trans (after.append_right _)
    _ ~ (inner ++ shared) ++ (inner ++ shared).map Prod.swap := by
      classical
      rw [List.perm_iff_count]
      intro edge
      simp only [List.map_append, List.count_append]
      ac_rfl

end

theorem closed_prism [Neg α] [Add α] [Div α] [OfNat α 0] [OfNat α 2] (height : α)
    (ring : List (α × α)) (centered : Bool) : Closed (prism height ring centered) :=
  closed_wedges _ _ ring

theorem closed_keptByDrawing : KeptByDrawing Closed where
  nil := List.Perm.nil
  append _ _ closed closed' := closed_append closed closed'
  shift _ offset closed := closed_mapCorners (·.shift offset) closed
  box _ _ := closed_boxFaces _ _
  cylinder height _ _ centered _ := closed_prism height _ centered

theorem Closed.count_swap {mesh : Mesh} (closed : Closed mesh) (edge : Vertex Float × Vertex Float) :
    (meshEdges mesh).count edge.swap = (meshEdges mesh).count edge := by
  rw [closed.count_eq, List.count_map_of_injective _ _ Prod.swap_injective]

/-- Turning all directed edges of what a program draws around permutes them: each occurs exactly as
often as its opposite. -/
theorem program_mesh_closed (program : Program) (settings : Settings) (params : Frame) (mesh : Mesh)
    (drawn : program.eval settings params = .ok mesh) :
    meshEdges mesh ~ (meshEdges mesh).map Prod.swap ∧
      ∀ edge, (meshEdges mesh).count edge.swap = (meshEdges mesh).count edge := by
  have closed : Closed mesh := program_draws closed_keptByDrawing drawn
  exact ⟨closed, closed.count_swap⟩

def movedRow : Program :=
  [.loop "i" (.number 0) none (.number 1)
    [.call ⟨"translate", [.array [.var "i", .number 0, .negate (.number 1)]], [], .start⟩ <| some
      [.call ⟨"cube", [.array [.number 1, .number 2, .number 3]], [], .start⟩ none,
       .call ⟨"cylinder", [.number 1], [("r", .number 2), ("$fn", .number 3)], .start⟩ none]]]

theorem movedRow_mesh_closed : ∃ mesh, movedRow.eval .default [] = .ok mesh ∧ mesh.length = 72 ∧
    meshEdges mesh ~ (meshEdges mesh).map Prod.swap ∧
      ∀ edge, (meshEdges mesh).count edge.swap = (meshEdges mesh).count edge :=
  ⟨_, rfl, rfl, program_mesh_closed movedRow .default [] _ rfl⟩

end SolidScript.Proofs
