import SolidScript.Proofs.Number.Finite

namespace SolidScript.Proofs
open Float.Model UnpackedFloat

theorem sign_compare_swap (s s' : Sign) : compare s' s = (compare s s').swap := by
  cases s <;> cases s' <;> rfl

theorem parts_compare_swap (e e' : Int) (m m' : Nat) :
    (compare e' e).then (compare m' m) = ((compare e e').then (compare m m')).swap := by
  rw [Ordering.swap_then, Std.OrientedOrd.eq_swap (a := e') (b := e),
    Std.OrientedOrd.eq_swap (a := m') (b := m)]

theorem compare_swap (f g : UnpackedFloat) : g.compare f = (f.compare g).map Ordering.swap := by
  cases f with
  | notANumber => cases g <;> rfl
  | infinity s =>
    cases g with
    | notANumber => rfl
    | infinity s' => exact congrArg some (sign_compare_swap s s')
    | zero | finite => cases s <;> rfl
  | zero s =>
    cases g with
    | notANumber | zero => rfl
    | infinity s' | finite s' => cases s' <;> rfl
  | finite s m e pos =>
    cases g with
    | notANumber => rfl
    | infinity s' => cases s' <;> rfl
    | zero => cases s <;> rfl
    | finite s' m' e' pos' =>
      cases s <;> cases s'
      · exact congrArg (some ∘ Ordering.swap) (parts_compare_swap e e' m m')
      · rfl
      · rfl
      · exact congrArg some (parts_compare_swap e e' m m')

theorem compare_isSome {f g : UnpackedFloat} (first : f.isNaN = false) (second : g.isNaN = false) :
    (f.compare g).isSome = true := by
  cases f with
  | notANumber => cases first
  | infinity s =>
    cases g with
    | notANumber => cases second
    | infinity | zero | finite => cases s <;> rfl
  | zero s =>
    cases g with
    | notANumber => cases second
    | zero => rfl
    | infinity s' | finite s' => cases s' <;> rfl
  | finite s m e pos =>
    cases g with
    | notANumber => cases second
    | zero => cases s <;> rfl
    | infinity s' => cases s' <;> rfl
    | finite s' => cases s <;> cases s' <;> rfl

theorem le_iff_compare {x y : Float} :
    x ≤ y ↔ (x.toModel.unpack.compare y.toModel.unpack).any (·.isLE) = true :=
  decide_eq_true_iff

theorem lt_iff_compare {x y : Float} :
    x < y ↔ (x.toModel.unpack.compare y.toModel.unpack == some .lt) = true :=
  decide_eq_true_iff

theorem lt_iff_not_le {x y : Float} (first : x.isNaN = false) (second : y.isNaN = false) :
    y < x ↔ ¬ x ≤ y := by
  obtain ⟨order, compared⟩ := Option.isSome_iff_exists.mp (compare_isSome first second)
  have swapped := compare_swap x.toModel.unpack y.toModel.unpack
  rw [compared, Option.map_some] at swapped
  rw [lt_iff_compare, le_iff_compare, swapped, compared]
  cases order <;> decide

theorem not_lt_of_lt {x y : Float} (less : x < y) : ¬ y < x := by
  rw [lt_iff_compare] at less ⊢
  rw [compare_swap x.toModel.unpack, eq_of_beq less]
  decide

theorem lt_or_beq_of_le {x y : Float} (most : x ≤ y) : x < y ∨ (x == y) = true := by
  change x < y ∨ (x.toModel.unpack.compare y.toModel.unpack == some .eq) = true
  rw [le_iff_compare] at most
  rw [lt_iff_compare]
  cases compared : x.toModel.unpack.compare y.toModel.unpack with
  | none => rw [compared] at most; cases most
  | some order =>
    rw [compared] at most
    cases order with
    | lt => exact .inl rfl
    | eq => exact .inr rfl
    | gt => cases most

theorem float_beq_comm (x y : Float) : (x == y) = (y == x) := by
  change (x.toModel.unpack.compare y.toModel.unpack == some .eq) =
    (y.toModel.unpack.compare x.toModel.unpack == some .eq)
  rw [compare_swap x.toModel.unpack y.toModel.unpack]
  cases x.toModel.unpack.compare y.toModel.unpack with
  | none => rfl
  | some order => cases order <;> rfl

theorem le_refl_of_number {x : Float} (number : x.isNaN = false) : x ≤ x := by
  by_contra above
  have less := (lt_iff_not_le number number).mpr above
  exact not_lt_of_lt less less

theorem isNaN_of_le {x y : Float} (most : x ≤ y) : y.isNaN = false := by
  rw [le_iff_compare] at most
  change y.toModel.unpack.isNaN = false
  generalize x.toModel.unpack = f at most
  cases unpacked : y.toModel.unpack with
  | notANumber => rw [unpacked] at most; cases f <;> cases most
  | infinity | zero | finite => rfl

theorem isNaN_of_lt {x y : Float} (less : x < y) : x.isNaN = false ∧ y.isNaN = false := by
  rw [lt_iff_compare] at less
  change x.toModel.unpack.isNaN = false ∧ y.toModel.unpack.isNaN = false
  generalize x.toModel.unpack = f at *
  generalize y.toModel.unpack = g at *
  constructor
  · cases f with
    | notANumber => cases g <;> cases less
    | infinity | zero | finite => rfl
  · cases g with
    | notANumber => cases f <;> cases less
    | infinity | zero | finite => rfl

theorem isNaN_of_isFinite {f : UnpackedFloat} (finite : f.isFinite = true) : f.isNaN = false := by
  cases f with
  | notANumber | infinity => cases finite
  | zero | finite => rfl

theorem isNaN_pack {f : UnpackedFloat} (number : f.isNaN = false) :
    (Float.Model.pack f).isNaN = false := by
  cases f with
  | notANumber => cases number
  | infinity s | zero s => cases s <;> rfl
  | finite s m e pos =>
    by_cases small : e ≤ 971
    · exact isNaN_of_isFinite (isFinite_pack pos small)
    · have large : 2 ^ 11 ≤ (e + 1023 + 52).toNat + 1 := by omega
      have packed : UnpackedFloat.pack .binary64 (.finite s m e pos) =
          packedInfinity .binary64 s := if_pos large
      change (UnpackedFloat.unpack .binary64 (UnpackedFloat.pack .binary64 _)).isNaN = false
      rw [packed]
      cases s <;> rfl

theorem isNaN_dite {c : Prop} [Decidable c] {f : c → UnpackedFloat} {g : ¬ c → UnpackedFloat}
    (first : ∀ holds, (f holds).isNaN = false) (second : ∀ fails, (g fails).isNaN = false) :
    (dite c f g).isNaN = false := by
  by_cases holds : c
  · rw [dif_pos holds]
    exact first holds
  · rw [dif_neg holds]
    exact second holds

theorem isNaN_round (s : Sign) (m : Nat) (e : Int) :
    (UnpackedFloat.round .binary64 s m e).isNaN = false :=
  isNaN_dite (fun _ => rfl) fun _ => rfl

theorem isNaN_normalize (m e : Int) (s : Sign) :
    (UnpackedFloat.normalize .binary64 m e s).isNaN = false := by
  unfold UnpackedFloat.normalize
  split
  · exact isNaN_round _ _ _
  · rfl
  · exact isNaN_round _ _ _

theorem isNaN_unpacked_add {f g : UnpackedFloat} (first : f.isNaN = false)
    (second : g.isNaN = false) (finite : f.isFinite = true ∨ g.isFinite = true) :
    (UnpackedFloat.add .binary64 f g).isNaN = false := by
  cases f with
  | notANumber => cases first
  | infinity s =>
    cases g with
    | notANumber => cases second
    | infinity => rcases finite with finite | finite <;> cases finite
    | zero | finite => rfl
  | zero s =>
    cases g with
    | notANumber => cases second
    | infinity | finite => rfl
    | zero s' => cases s <;> cases s' <;> rfl
  | finite s m e pos =>
    cases g with
    | notANumber => cases second
    | infinity | zero => rfl
    | finite s' m' e' pos' => exact isNaN_normalize _ _ _

theorem apply_neg (s : Sign) (n : Int) : (-s).apply n = -s.apply n := by
  cases s with
  | negative => exact (Int.neg_neg n).symm
  | positive => rfl

theorem unpacked_sub_eq (f g : UnpackedFloat) :
    UnpackedFloat.sub .binary64 f g = UnpackedFloat.add .binary64 f g.neg := by
  cases f with
  | notANumber => rfl
  | infinity s => cases g <;> rfl
  | zero s => cases g <;> rfl
  | finite s m e pos =>
    cases g with
    | notANumber | infinity | zero => rfl
    | finite s' m' e' pos' =>
      change UnpackedFloat.normalize .binary64 (s.apply _ - s'.apply _) _ _ =
        UnpackedFloat.normalize .binary64 (s.apply _ + (-s').apply _) _ _
      rw [apply_neg, Int.sub_eq_add_neg]

theorem isNaN_neg (f : UnpackedFloat) : f.neg.isNaN = f.isNaN := by
  cases f <;> rfl

section
variable {x y : Float} (first : x.isNaN = false) (second : y.isNaN = false)
include first second

theorem isNaN_add (finite : x.isFinite = true ∨ y.isFinite = true) : (x + y).isNaN = false :=
  isNaN_pack (isNaN_unpacked_add first second finite)

theorem isNaN_sub (finite : x.isFinite = true) : (x - y).isNaN = false := by
  change (Float.Model.pack (UnpackedFloat.sub .binary64 x.toModel.unpack
    y.toModel.unpack)).isNaN = false
  rw [unpacked_sub_eq]
  exact isNaN_pack (isNaN_unpacked_add first ((isNaN_neg _).trans second) (.inl finite))

end

end SolidScript.Proofs
