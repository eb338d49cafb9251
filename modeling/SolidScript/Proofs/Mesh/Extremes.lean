import Mathlib.Order.Bounds.Defs
import SolidScript.Proofs.Mesh.Bounds
import SolidScript.Proofs.Number.Rank

namespace SolidScript

inductive Axis where
  | x | y | z
deriving DecidableEq, Repr

def Vertex.along {α : Type} (axis : Axis) (v : Vertex α) : α :=
  match axis with
  | .x => v.x
  | .y => v.y
  | .z => v.z

def Mesh.coordinates (mesh : Mesh) (axis : Axis) : List Float :=
  (mesh.flatMap Triangle.vertices).map (·.along axis)

/-- The same double, or a zero both times. -/
def Alike (x y : Float) : Prop := x = y ∨ ((x == 0) = true ∧ (y == 0) = true)

instance (x y : Float) : Decidable (Alike x y) := inferInstanceAs (Decidable (_ ∨ _))

def Vertex.Alike (v w : Vertex Float) : Prop :=
  ∀ axis, SolidScript.Alike (v.along axis) (w.along axis)

def Bounds.Alike (b b' : Bounds) : Prop :=
  b.min.Alike b'.min ∧ b.max.Alike b'.max ∧ b.size.Alike b'.size ∧ b.center.Alike b'.center

namespace Proofs
open scoped List

/-! ## Choices -/

section
variable {K : Type} [LinearOrder K] {key : Float → K} {pick : Float → Float → Float}

def Picks (key : Float → K) (pick : Float → Float → Float) : Prop :=
  ∀ {x y}, x.isNaN = false → y.isNaN = false → pick x y = if key x < key y then x else y

def Numbers (xs : List Float) : Prop := ∀ x ∈ xs, x.isNaN = false

theorem numbers_cons {x : Float} {xs : List Float} :
    Numbers (x :: xs) ↔ x.isNaN = false ∧ Numbers xs := List.forall_mem_cons

section
variable (picks : Picks key pick) {x y z : Float}
include picks

theorem Picks.eq_or (first : x.isNaN = false) (second : y.isNaN = false) :
    pick x y = x ∨ pick x y = y := by
  rw [picks first second]
  split
  · exact .inl rfl
  · exact .inr rfl

theorem Picks.isNaN (first : x.isNaN = false) (second : y.isNaN = false) :
    (pick x y).isNaN = false := by
  rcases picks.eq_or first second with chosen | chosen
  · rw [chosen, first]
  · rw [chosen, second]

theorem Picks.key_eq (first : x.isNaN = false) (second : y.isNaN = false) :
    key (pick x y) = min (key x) (key y) := by
  rw [picks first second]
  split
  · rename_i less
    rw [min_eq_left less.le]
  · rename_i least
    rw [min_eq_right (not_lt.mp least)]

theorem Picks.assoc (first : x.isNaN = false) (second : y.isNaN = false) (third : z.isNaN = false) :
    pick (pick x y) z = pick x (pick y z) := by
  rw [picks (picks.isNaN first second) third, picks first (picks.isNaN second third),
    picks.key_eq first second, picks.key_eq second third, picks first second, picks second third]
  rcases lt_or_ge (key x) (key y) with less | least
  · rw [if_pos less, min_eq_left less.le]
    rcases lt_or_ge (key y) (key z) with less' | least'
    · rw [if_pos (less.trans less'), min_eq_left less'.le, if_pos less]
    · rw [min_eq_right least', if_neg (not_lt.mpr least')]
  · rw [if_neg (not_lt.mpr least), min_eq_right least]
    rcases lt_or_ge (key y) (key z) with less' | least'
    · rw [if_pos less', min_eq_left less'.le, if_neg (not_lt.mpr least)]
    · rw [if_neg (not_lt.mpr least'), min_eq_right least', if_neg (not_lt.mpr (least'.trans least))]

theorem Picks.isNaN_foldl {xs : List Float} (first : x.isNaN = false) (numbers : Numbers xs) :
    (xs.foldl pick x).isNaN = false := by
  induction xs generalizing x with
  | nil => exact first
  | cons y xs ih =>
    rw [numbers_cons] at numbers
    exact ih (picks.isNaN first numbers.1) numbers.2

theorem Picks.foldl_pick {xs : List Float} (first : x.isNaN = false) (second : y.isNaN = false)
    (numbers : Numbers xs) : xs.foldl pick (pick x y) = pick x (xs.foldl pick y) := by
  induction xs generalizing y with
  | nil => rfl
  | cons z xs ih =>
    rw [numbers_cons] at numbers
    rw [List.foldl_cons, picks.assoc first second numbers.1,
      ih (picks.isNaN second numbers.1) numbers.2, List.foldl_cons]

theorem Picks.foldl_append {xs ys : List Float} (first : x.isNaN = false) (numbers : Numbers xs)
    (second : y.isNaN = false) (numbers' : Numbers ys) :
    (xs ++ y :: ys).foldl pick x = pick (xs.foldl pick x) (ys.foldl pick y) := by
  rw [List.foldl_append, List.foldl_cons,
    picks.foldl_pick (picks.isNaN_foldl first numbers) second numbers']

theorem Picks.foldl_mem {xs : List Float} (first : x.isNaN = false) (numbers : Numbers xs) :
    xs.foldl pick x ∈ x :: xs := by
  induction xs generalizing x with
  | nil => exact List.mem_singleton_self x
  | cons y xs ih =>
    rw [numbers_cons] at numbers
    rw [List.foldl_cons, picks.foldl_pick first numbers.1 numbers.2]
    rcases picks.eq_or first (picks.isNaN_foldl numbers.1 numbers.2) with chosen | chosen
    · rw [chosen]
      exact List.mem_cons_self
    · rw [chosen]
      exact List.mem_cons_of_mem x (ih numbers.1 numbers.2)

theorem Picks.foldl_le {xs : List Float} (first : x.isNaN = false) (numbers : Numbers xs) :
    ∀ c ∈ x :: xs, key (xs.foldl pick x) ≤ key c := by
  induction xs generalizing x with
  | nil =>
    intro c member
    rw [List.mem_singleton.mp member]
    exact le_rfl
  | cons y xs ih =>
    rw [numbers_cons] at numbers
    rw [List.foldl_cons, picks.foldl_pick first numbers.1 numbers.2,
      picks.key_eq first (picks.isNaN_foldl numbers.1 numbers.2)]
    intro c member
    rcases List.mem_cons.mp member with rfl | later
    · exact min_le_left _ _
    · exact (min_le_right _ _).trans (ih numbers.1 numbers.2 c later)

end

structure Moves (key : Float → K) (f : Float → Float) : Prop where
  isNaN : ∀ {x}, x.isNaN = false → (f x).isNaN = false
  mono : ∀ {x y}, x.isNaN = false → y.isNaN = false → key x ≤ key y → key (f x) ≤ key (f y)
  sharp : ∀ {x y}, x.isNaN = false → y.isNaN = false → key x ≠ key y → key (f x) = key (f y) →
    f x = f y

theorem Picks.move (picks : Picks key pick) {f : Float → Float} (moves : Moves key f) {x y : Float}
    (first : x.isNaN = false) (second : y.isNaN = false) : f (pick x y) = pick (f x) (f y) := by
  rw [picks first second, picks (moves.isNaN first) (moves.isNaN second)]
  rcases lt_or_ge (key x) (key y) with less | least
  · rw [if_pos less]
    split
    · rfl
    · -- The moved numbers are not apart any more, so they are equal.
      rename_i apart
      exact moves.sharp first second less.ne
        ((moves.mono first second less.le).antisymm (not_lt.mp apart))
  · rw [if_neg (not_lt.mpr least), if_neg (not_lt.mpr (moves.mono second first least))]

theorem Picks.foldl_move (picks : Picks key pick) {f : Float → Float} (moves : Moves key f)
    {x : Float} (first : x.isNaN = false) {xs : List Float} (numbers : Numbers xs) :
    f (xs.foldl pick x) = (xs.map f).foldl pick (f x) := by
  induction xs generalizing x with
  | nil => rfl
  | cons y xs ih =>
    rw [numbers_cons] at numbers
    rw [List.foldl_cons, ih (picks.isNaN first numbers.1) numbers.2, List.map_cons,
      List.foldl_cons, picks.move moves first numbers.1]

end

theorem picks_lesser : Picks rank lesser := by
  intro x y first second
  simp only [lesser, first, Bool.or_false, decide_eq_true_eq, lt_iff_rank first second]

theorem picks_greater : Picks (OrderDual.toDual ∘ rank) greater := by
  intro x y first second
  simp only [greater, first, Bool.or_false, decide_eq_true_eq, lt_iff_rank second first,
    Function.comp_apply, OrderDual.toDual_lt_toDual]

section
variable {x : Float} {xs : List Float} (first : x.isNaN = false) (numbers : Numbers xs)
include first numbers

theorem isLeast_foldl : IsLeast {c | c ∈ x :: xs} (xs.foldl lesser x) := by
  refine ⟨picks_lesser.foldl_mem first numbers, fun c member => ?_⟩
  have number : c.isNaN = false := numbers_cons.mpr ⟨first, numbers⟩ c member
  rw [le_iff_rank (picks_lesser.isNaN_foldl first numbers) number]
  exact picks_lesser.foldl_le first numbers c member

theorem isGreatest_foldl : IsGreatest {c | c ∈ x :: xs} (xs.foldl greater x) := by
  refine ⟨picks_greater.foldl_mem first numbers, fun c member => ?_⟩
  have number : c.isNaN = false := numbers_cons.mpr ⟨first, numbers⟩ c member
  rw [le_iff_rank number (picks_greater.isNaN_foldl first numbers)]
  exact picks_greater.foldl_le first numbers c member

end

section
variable {t : Float} (finite : t.isFinite = true)
include finite

theorem moves_add : Moves rank (· + t) where
  isNaN number := isNaN_add number (isNaN_of_isFinite finite) (.inr finite)
  mono first second := rank_add_mono first second finite
  sharp first second := add_eq_of_rank first finite second

theorem moves_add_dual : Moves (OrderDual.toDual ∘ rank) (· + t) where
  isNaN := (moves_add finite).isNaN
  mono first second := (moves_add finite).mono second first
  sharp first second := (moves_add finite).sharp first second

end

/-! ## Alike doubles -/

section
variable {x y z : Float}

theorem zero_or_neg_zero (zero : (x == 0) = true) : x = 0 ∨ x = -0 := by
  rcases (Float.beq_iff_ne_nan_and_eq.mp zero).2.2 with same | ⟨same, -⟩ | ⟨same, -⟩
  · exact .inl same
  · exact .inl same
  · exact .inr same

theorem alike_symm (alike : Alike x y) : Alike y x := alike.imp Eq.symm And.symm

theorem alike_trans (first : Alike x y) (second : Alike y z) : Alike x z := by
  rcases first with rfl | zeros
  · exact second
  · rcases second with rfl | zeros'
    · exact .inr zeros
    · exact .inr ⟨zeros.1, zeros'.2⟩

theorem alike_of_rank (first : x.isNaN = false) (second : y.isNaN = false)
    (same : rank x = rank y) : Alike x y := by
  rcases eq_or_zeros_of_rank first second same with equal | ⟨rfl, rfl⟩ | ⟨rfl, rfl⟩
  · exact .inl equal
  · exact .inr (by decide)
  · exact .inr (by decide)

theorem alike_map {f : Float → Float} (zeros : Alike (f 0) (f (-0))) (alike : Alike x y) :
    Alike (f x) (f y) := by
  rcases alike with rfl | ⟨zero, zero'⟩
  · exact .inl rfl
  · rcases zero_or_neg_zero zero with rfl | rfl <;> rcases zero_or_neg_zero zero' with rfl | rfl
    · exact .inl rfl
    · exact zeros
    · exact alike_symm zeros
    · exact .inl rfl

theorem alike_map₂ {f : Float → Float → Float} (left : ∀ c, Alike (f 0 c) (f (-0) c))
    (right : ∀ c, Alike (f c 0) (f c (-0))) {x' y' : Float} (first : Alike x x')
    (second : Alike y y') : Alike (f x y) (f x' y') :=
  alike_trans (alike_map (f := (f · y)) (left y) first)
    (alike_map (f := f x') (right x') second)

end

section
open Float.Model UnpackedFloat

theorem alike_of_forms {g h : UnpackedFloat → UnpackedFloat}
    (undefined : g .notANumber = h .notANumber)
    (infinite : ∀ s, g (.infinity s) = h (.infinity s))
    (finite : ∀ s m e pos, g (.finite s m e pos) = h (.finite s m e pos))
    (zeros : ∀ s, Alike (.ofModel (.pack (g (.zero s)))) (.ofModel (.pack (h (.zero s)))))
    (x : Float) :
    Alike (.ofModel (.pack (g x.toModel.unpack))) (.ofModel (.pack (h x.toModel.unpack))) := by
  cases x.toModel.unpack with
  | notANumber => exact .inl (by rw [undefined])
  | infinity s => exact .inl (by rw [infinite])
  | zero s => exact zeros s
  | finite s m e pos => exact .inl (by rw [finite])

variable {x x' y y' : Float} (first : Alike x x') (second : Alike y y')
include first second

theorem alike_add : Alike (x + y) (x' + y') :=
  alike_map₂
    (alike_of_forms (g := UnpackedFloat.add .binary64 (.zero .positive))
      (h := UnpackedFloat.add .binary64 (.zero .negative)) rfl (fun _ => rfl) (fun _ _ _ _ => rfl)
      (by decide))
    (alike_of_forms (g := (UnpackedFloat.add .binary64 · (.zero .positive)))
      (h := (UnpackedFloat.add .binary64 · (.zero .negative))) rfl (fun _ => rfl)
      (fun _ _ _ _ => rfl) (by decide))
    first second

theorem alike_sub : Alike (x - y) (x' - y') :=
  alike_map₂
    (alike_of_forms (g := UnpackedFloat.sub .binary64 (.zero .positive))
      (h := UnpackedFloat.sub .binary64 (.zero .negative)) rfl (fun _ => rfl) (fun _ _ _ _ => rfl)
      (by decide))
    (alike_of_forms (g := (UnpackedFloat.sub .binary64 · (.zero .positive)))
      (h := (UnpackedFloat.sub .binary64 · (.zero .negative))) rfl (fun _ => rfl)
      (fun _ _ _ _ => rfl) (by decide))
    first second

end

/-! ## Coordinates -/

section
variable {α β γ : Type} (axis : Axis)

@[simp] theorem along_zipWith (f : α → β → γ) (v : Vertex α) (w : Vertex β) :
    (v.zipWith f w).along axis = f (v.along axis) (w.along axis) := by
  cases axis <;> rfl

@[simp] theorem along_shift [Add α] (v offset : Vertex α) :
    (v.shift offset).along axis = v.along axis + offset.along axis := by
  cases axis <;> rfl

theorem along_foldl (f : α → α → α) (v : Vertex α) (vs : List (Vertex α)) :
    (vs.foldl (Vertex.zipWith f) v).along axis =
      (vs.map (·.along axis)).foldl f (v.along axis) := by
  induction vs generalizing v with
  | nil => rfl
  | cons w vs ih => rw [List.foldl_cons, ih, along_zipWith, List.map_cons, List.foldl_cons]

omit axis in
theorem eq_of_along {v w : Vertex α} (same : ∀ axis, v.along axis = w.along axis) : v = w := by
  obtain ⟨x, y, z⟩ := v
  obtain ⟨x', y', z'⟩ := w
  obtain rfl : x = x' := same .x
  obtain rfl : y = y' := same .y
  obtain rfl : z = z' := same .z
  rfl

end

section
variable {mesh mesh' : Mesh} (axis : Axis)

theorem numbers_coordinates (numbers : mesh.All (·.isNaN = false)) :
    Numbers (mesh.coordinates axis) := by
  intro c member
  obtain ⟨v, vertex, rfl⟩ := List.mem_map.mp member
  obtain ⟨x, y, z⟩ := numbers v vertex
  cases axis with
  | x => exact x
  | y => exact y
  | z => exact z

theorem coordinates_append :
    (mesh ++ mesh').coordinates axis = mesh.coordinates axis ++ mesh'.coordinates axis := by
  rw [Mesh.coordinates, List.flatMap_append, List.map_append]
  rfl

theorem coordinates_shift (offset : Vertex Float) :
    Mesh.coordinates (mesh.map (·.shift offset)) axis =
      (mesh.coordinates axis).map (· + offset.along axis) := by
  have vertices (t : Triangle Float) :
      (t.shift offset).vertices = t.vertices.map (·.shift offset) := rfl
  simp only [Mesh.coordinates, List.flatMap_map, vertices, ← List.map_flatMap, List.map_map,
    Function.comp_def, along_shift]

theorem coordinates_perm
    (perm : mesh'.flatMap Triangle.vertices ~ mesh.flatMap Triangle.vertices) :
    mesh'.coordinates axis ~ mesh.coordinates axis := perm.map _

end

/-! ## Bounds -/

section
variable {mesh mesh' : Mesh} {b b' : Bounds}

theorem bounds_of_vertices (nonempty : mesh.flatMap Triangle.vertices ≠ []) :
    ∃ b, mesh.bounds? = some b := by
  unfold Mesh.bounds?
  split
  · rename_i none
    exact absurd none nonempty
  · exact ⟨_, rfl⟩

theorem vertices_of_bounds (bounded : mesh.bounds? = some b) :
    mesh.flatMap Triangle.vertices ≠ [] := by
  intro none
  rw [Mesh.bounds?, none] at bounded
  cases bounded

theorem vertices_of_nonempty (nonempty : mesh ≠ []) : mesh.flatMap Triangle.vertices ≠ [] := by
  obtain ⟨t, mesh, rfl⟩ := List.exists_cons_of_ne_nil nonempty
  exact List.cons_ne_nil _ _

theorem ends_along (bounded : mesh.bounds? = some b) (axis : Axis) :
    ∃ c cs, mesh.coordinates axis = c :: cs ∧ b.min.along axis = cs.foldl lesser c ∧
      b.max.along axis = cs.foldl greater c := by
  unfold Mesh.bounds? at bounded
  unfold Mesh.coordinates
  split at bounded
  · cases bounded
  · rename_i v vs vertices
    cases bounded
    rw [vertices]
    exact ⟨_, _, rfl, along_foldl axis lesser v vs, along_foldl axis greater v vs⟩

section
variable (bounded : mesh.bounds? = some b) (numbers : mesh.All (·.isNaN = false)) (axis : Axis)
include bounded numbers

theorem isLeast_min : IsLeast {c | c ∈ mesh.coordinates axis} (b.min.along axis) := by
  obtain ⟨c, cs, coordinates, low, -⟩ := ends_along bounded axis
  have all := numbers_coordinates axis numbers
  rw [coordinates, numbers_cons] at all
  rw [coordinates, low]
  exact isLeast_foldl all.1 all.2

theorem isGreatest_max : IsGreatest {c | c ∈ mesh.coordinates axis} (b.max.along axis) := by
  obtain ⟨c, cs, coordinates, -, high⟩ := ends_along bounded axis
  have all := numbers_coordinates axis numbers
  rw [coordinates, numbers_cons] at all
  rw [coordinates, high]
  exact isGreatest_foldl all.1 all.2

end

theorem alike_of_le {x y : Float} (first : x ≤ y) (second : y ≤ x) : Alike x y := by
  have number := isNaN_of_le second
  have number' := isNaN_of_le first
  exact alike_of_rank number number' (((le_iff_rank number number').mp first).antisymm
    ((le_iff_rank number' number).mp second))

theorem alike_bounds (low : b.min.Alike b'.min) (high : b.max.Alike b'.max)
    (parts : b = .ofEnds b.min b.max) (parts' : b' = .ofEnds b'.min b'.max) : b.Alike b' := by
  have half {x y : Float} (alike : Alike x y) : Alike (x / 2) (y / 2) :=
    alike_map (f := (· / 2)) (.inr (by decide)) alike
  refine ⟨low, high, fun axis => ?_, fun axis => ?_⟩
  · rw [parts, parts']
    simp only [Bounds.ofEnds, along_zipWith]
    exact alike_sub (high axis) (low axis)
  · rw [parts, parts']
    simp only [Bounds.ofEnds, along_zipWith]
    exact half (alike_add (low axis) (high axis))

theorem bounds_of_rearranged (bounded : mesh.bounds? = some b)
    (numbers : mesh.All (·.isNaN = false))
    (perm : mesh'.flatMap Triangle.vertices ~ mesh.flatMap Triangle.vertices) :
    ∃ b', mesh'.bounds? = some b' ∧ b.Alike b' := by
  have numbers' : mesh'.All (·.isNaN = false) := fun v member => numbers v (perm.mem_iff.mp member)
  have same (axis : Axis) : {c | c ∈ mesh'.coordinates axis} = {c | c ∈ mesh.coordinates axis} :=
    Set.ext fun c => (coordinates_perm axis perm).mem_iff
  obtain ⟨b', bounded'⟩ : ∃ b', mesh'.bounds? = some b' := by
    apply bounds_of_vertices
    intro none
    rw [none] at perm
    exact vertices_of_bounds bounded perm.nil_eq.symm
  obtain ⟨-, -, parts⟩ := bounds_of_all bounded numbers
  obtain ⟨-, -, parts'⟩ := bounds_of_all bounded' numbers'
  refine ⟨b', bounded', alike_bounds (fun axis => ?_) (fun axis => ?_) parts parts'⟩
  · have least := isLeast_min bounded numbers axis
    have least' := isLeast_min bounded' numbers' axis
    rw [same] at least'
    exact alike_of_le (least.2 least'.1) (least'.2 least.1)
  · have greatest := isGreatest_max bounded numbers axis
    have greatest' := isGreatest_max bounded' numbers' axis
    rw [same] at greatest'
    exact alike_of_le (greatest'.2 greatest.1) (greatest.2 greatest'.1)

theorem bounds_append {b₀ : Bounds} (bounded : mesh.bounds? = some b)
    (numbers : mesh.All (·.isNaN = false)) (bounded' : mesh'.bounds? = some b')
    (numbers' : mesh'.All (·.isNaN = false)) (together : Mesh.bounds? (mesh ++ mesh') = some b₀)
    (axis : Axis) :
    IsLeast {b.min.along axis, b'.min.along axis} (b₀.min.along axis) ∧
      IsGreatest {b.max.along axis, b'.max.along axis} (b₀.max.along axis) := by
  obtain ⟨c, cs, coordinates, low, high⟩ := ends_along bounded axis
  obtain ⟨c', cs', coordinates', low', high'⟩ := ends_along bounded' axis
  obtain ⟨c₀, cs₀, coordinates₀, low₀, high₀⟩ := ends_along together axis
  have all := numbers_coordinates axis numbers
  have all' := numbers_coordinates axis numbers'
  rw [coordinates, numbers_cons] at all
  rw [coordinates', numbers_cons] at all'
  rw [coordinates_append, coordinates, coordinates', List.cons_append, List.cons.injEq]
    at coordinates₀
  obtain ⟨rfl, rfl⟩ := coordinates₀
  rw [low, low', low₀, high, high', high₀, picks_lesser.foldl_append all.1 all.2 all'.1 all'.2,
    picks_greater.foldl_append all.1 all.2 all'.1 all'.2]
  have pair (x y : Float) : ({x, y} : Set Float) = {c | c ∈ [x, y]} := by
    ext c
    simp
  rw [pair, pair]
  exact ⟨isLeast_foldl (picks_lesser.isNaN_foldl all.1 all.2)
      (List.forall_mem_singleton.mpr (picks_lesser.isNaN_foldl all'.1 all'.2)),
    isGreatest_foldl (picks_greater.isNaN_foldl all.1 all.2)
      (List.forall_mem_singleton.mpr (picks_greater.isNaN_foldl all'.1 all'.2))⟩

theorem bounds_shift (bounded : mesh.bounds? = some b) (numbers : mesh.All (·.isNaN = false))
    {offset : Vertex Float} (finite : offset.All (·.isFinite = true))
    (moved : Mesh.bounds? (mesh.map (·.shift offset)) = some b') :
    b'.min = b.min.shift offset ∧ b'.max = b.max.shift offset := by
  have along (axis : Axis) : b'.min.along axis = b.min.along axis + offset.along axis ∧
      b'.max.along axis = b.max.along axis + offset.along axis := by
    have step : (offset.along axis).isFinite = true := by
      obtain ⟨x, y, z⟩ := finite
      cases axis with
      | x => exact x
      | y => exact y
      | z => exact z
    obtain ⟨c, cs, coordinates, low, high⟩ := ends_along bounded axis
    obtain ⟨c', cs', coordinates', low', high'⟩ := ends_along moved axis
    have all := numbers_coordinates axis numbers
    rw [coordinates, numbers_cons] at all
    rw [coordinates_shift, coordinates, List.map_cons, List.cons.injEq] at coordinates'
    obtain ⟨rfl, rfl⟩ := coordinates'
    rw [low, low', high, high']
    exact ⟨(picks_lesser.foldl_move (moves_add step) all.1 all.2).symm,
      (picks_greater.foldl_move (moves_add_dual step) all.1 all.2).symm⟩
  exact ⟨eq_of_along fun axis => by rw [along_shift, (along axis).1],
    eq_of_along fun axis => by rw [along_shift, (along axis).2]⟩

end

/-- The bounds of a mesh of numbers are its least and greatest coordinates along each axis. However
its vertices are rearranged, within the triangles or across them, the bounds stay the same but for
the signs of zeros. The bounds of two meshes together end at the outer ends of both. And the bounds
of a moved mesh end where the same sums move the ends. -/
theorem bounds_tight_and_orderless {mesh : Mesh} (nonempty : mesh ≠ [])
    (numbers : mesh.All (·.isNaN = false)) :
    ∃ b, mesh.bounds? = some b ∧
      (∀ axis, IsLeast {c | c ∈ mesh.coordinates axis} (b.min.along axis) ∧
        IsGreatest {c | c ∈ mesh.coordinates axis} (b.max.along axis)) ∧
      (∀ mesh' : Mesh, mesh'.flatMap Triangle.vertices ~ mesh.flatMap Triangle.vertices →
        ∃ b', mesh'.bounds? = some b' ∧ b.Alike b') ∧
      (∀ mesh' : Mesh, mesh' ≠ [] → mesh'.All (·.isNaN = false) →
        ∃ b' b₀, mesh'.bounds? = some b' ∧ Mesh.bounds? (mesh ++ mesh') = some b₀ ∧
          ∀ axis, IsLeast {b.min.along axis, b'.min.along axis} (b₀.min.along axis) ∧
            IsGreatest {b.max.along axis, b'.max.along axis} (b₀.max.along axis)) ∧
      ∀ offset : Vertex Float, offset.All (·.isFinite = true) →
        ∃ b', Mesh.bounds? (mesh.map (·.shift offset)) = some b' ∧
          b'.min = b.min.shift offset ∧ b'.max = b.max.shift offset := by
  have exists_bounds {mesh : Mesh} (nonempty : mesh ≠ []) : ∃ b, mesh.bounds? = some b :=
    bounds_of_vertices (vertices_of_nonempty nonempty)
  obtain ⟨b, bounded⟩ := exists_bounds nonempty
  refine ⟨b, bounded, fun axis => ⟨isLeast_min bounded numbers axis,
    isGreatest_max bounded numbers axis⟩, fun mesh' => bounds_of_rearranged bounded numbers,
    fun mesh' nonempty' numbers' => ?_, fun offset finite => ?_⟩
  · obtain ⟨b', bounded'⟩ := exists_bounds nonempty'
    obtain ⟨b₀, together⟩ := exists_bounds (List.append_ne_nil_of_left_ne_nil nonempty mesh')
    exact ⟨b', b₀, bounded', together,
      bounds_append bounded numbers bounded' numbers' together⟩
  · have nonempty' : mesh.map (·.shift offset) ≠ [] := mt List.map_eq_nil_iff.mp nonempty
    obtain ⟨b', moved⟩ := exists_bounds nonempty'
    exact ⟨b', moved, bounds_shift bounded numbers finite moved⟩

theorem bounds_of_both_zeros :
    let mesh : Mesh := [⟨⟨0, 1, 1e16⟩, ⟨-0, 1e20, 2⟩, ⟨0, -3, 0.1⟩⟩]
    let turned : Mesh := [⟨⟨-0, 1e20, 2⟩, ⟨0, 1, 1e16⟩, ⟨0, -3, 0.1⟩⟩]
    let offset : Vertex Float := ⟨-0, 1, 0.3⟩
    mesh ≠ [] ∧ mesh.All (·.isNaN = false) ∧
      turned.flatMap Triangle.vertices ~ mesh.flatMap Triangle.vertices ∧
      offset.All (·.isFinite = true) ∧
      ∃ b b' b₀ moved, mesh.bounds? = some b ∧ turned.bounds? = some b' ∧
        Mesh.bounds? (mesh ++ turned) = some b₀ ∧
        Mesh.bounds? (mesh.map (·.shift offset)) = some moved ∧ b.Alike b' ∧
        (∀ axis, IsLeast {b.min.along axis, b'.min.along axis} (b₀.min.along axis)) ∧
        moved.min = b.min.shift offset ∧ moved.max = b.max.shift offset := by
  intro mesh turned offset
  have nonempty : mesh ≠ [] := List.cons_ne_nil _ _
  have numbers : mesh.All (·.isNaN = false) := by decide +kernel
  have numbers' : turned.All (·.isNaN = false) := by decide +kernel
  have perm : turned.flatMap Triangle.vertices ~ mesh.flatMap Triangle.vertices := .swap _ _ _
  have finite : offset.All (·.isFinite = true) := by decide
  obtain ⟨b, bounded, -, orderless, outer, moves⟩ := bounds_tight_and_orderless nonempty numbers
  obtain ⟨b', bounded', alike⟩ := orderless turned perm
  obtain ⟨b'', b₀, same, together, ends⟩ := outer turned (List.cons_ne_nil _ _) numbers'
  obtain rfl : b' = b'' := Option.some_inj.mp (bounded'.symm.trans same)
  obtain ⟨moved, shifted, low, high⟩ := moves offset finite
  exact ⟨nonempty, numbers, perm, finite, b, b', b₀, moved, bounded, bounded', together, shifted,
    alike, fun axis => (ends axis).1, low, high⟩

end Proofs

end SolidScript
