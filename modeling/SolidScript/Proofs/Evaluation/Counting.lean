import SolidScript.Proofs.Evaluation.Unrolling
import SolidScript.Proofs.Number.Whole

namespace SolidScript

def Expr.IsWhole (e : Expr) (scope : Scope) (n : Int) : Prop :=
  ∃ x, e.evalNumber scope = .ok x ∧ Number.integer? x = some n

def progression (a s : Int) (count : Nat) : List Int :=
  (List.range count).map fun k : Nat => a + k * s

/-- A round for each of these values of a counter in order, and the note that they were made. -/
def Stmt.rounds (settings : Settings) (counter : String) (body : List Stmt) (values : List Float) :
    Exec Mesh := do
  let meshes ← values.mapM fun value =>
    Exec.inFrame [(counter, .number value)] (Stmt.runAll settings body)
  Exec.note ⟨counter, values.length⟩
  return meshes.flatten

namespace Proofs

variable {range : Range} {settings : Settings} {a b s : Int}

def terms (a s b : Int) : Nat := (Int.fdiv (b - a) s + 1).toNat

def Within (s b n : Int) : Prop := if 0 < s then n ≤ b else b ≤ n

theorem le_fdiv_iff {k d s : Int} (moves : s ≠ 0) :
    k ≤ Int.fdiv d s ↔ if 0 < s then k * s ≤ d else d ≤ k * s := by
  split
  · rename_i up
    rw [Int.fdiv_eq_ediv_of_nonneg d up.le, Int.le_ediv_iff_mul_le up]
  · have down : 0 < -s := by omega
    rw [← Int.neg_fdiv_neg, Int.fdiv_eq_ediv_of_nonneg (-d) down.le, Int.le_ediv_iff_mul_le down,
      Int.mul_neg, Int.neg_le_neg_iff]

theorem lt_terms_iff (moves : s ≠ 0) {k : Nat} : k < terms a s b ↔ Within s b (a + k * s) := by
  rw [terms, Int.lt_toNat, Int.lt_add_one_iff, le_fdiv_iff moves, Within]
  split <;> omega

theorem terms_one : terms a (if a ≤ b then 1 else -1) b = (b - a).natAbs + 1 := by
  unfold terms
  split
  · rw [Int.fdiv_one]
    omega
  · rw [← Int.neg_fdiv_neg, Int.neg_neg, Int.fdiv_one]
    omega

structure Integral (range : Range) (a s b : Int) : Prop where
  start : Whole range.start a
  step : Whole range.step s
  finish : Whole range.finish b
  moves : s ≠ 0
  room : a.natAbs + s.natAbs ≤ 2 ^ 53
  room' : b.natAbs + s.natAbs ≤ 2 ^ 53

theorem whole_zero : Whole 0 0 := integer?_eq_some_iff.mp rfl

theorem whole_unit {up up' : Prop} [Decidable up] [Decidable up'] (same : up ↔ up') :
    Whole (if up then 1 else -1) (if up' then 1 else -1) := by
  simp only [same]
  split
  · exact integer?_eq_some_iff.mp rfl
  · exact integer?_eq_some_iff.mp rfl

section
variable (integral : Integral range a s b)
include integral

theorem value_whole {k : Nat} (early : k ≤ terms a s b) : Whole (range.value k) (a + k * s) := by
  induction k with
  | zero =>
    rw [Int.natCast_zero, Int.zero_mul, Int.add_zero]
    exact integral.start
  | succ k ih =>
    have next : a + k * s + s = a + (k + 1 : Nat) * s := by
      rw [Int.natCast_succ, Int.add_mul, Int.one_mul, Int.add_assoc]
    rw [← next]
    refine (ih (Nat.le_of_succ_le early)).add integral.step ?_
    -- One step before this value the counter is between its ends.
    have within := (lt_terms_iff integral.moves).mp early
    have room := integral.room
    have room' := integral.room'
    unfold Within at within
    split at within
    · have forward : 0 ≤ (k : Int) * s := by positivity
      omega
    · have back : (k : Int) * s ≤ 0 := by
        apply Int.mul_nonpos_of_nonneg_of_nonpos <;> omega
      omega

theorem outside_iff {v : Float} {n : Int} (whole : Whole v n) :
    range.Outside 1e-9 v ↔ ¬ Within s b n := by
  have room : b.natAbs < 2 ^ 53 := by
    have := integral.room'
    have := integral.moves
    omega
  unfold Range.Outside Within
  rw [whole_zero.lt_iff integral.step, integral.step.lt_iff whole_zero,
    integral.finish.add_tolerance_lt_iff whole room,
    integral.finish.lt_sub_tolerance_iff whole room]
  have := integral.moves
  split <;> omega

theorem firstOutside : range.FirstOutside 1e-9 (terms a s b) := by
  constructor
  · rw [outside_iff integral (value_whole integral (Nat.le_refl _)), ← lt_terms_iff integral.moves]
    exact Nat.lt_irrefl _
  · intro k early
    rw [outside_iff integral (value_whole integral early.le), ← lt_terms_iff integral.moves,
      not_not]
    exact early

theorem step_moves : (range.step == 0) = false := by
  rw [← Bool.not_eq_true, integral.step.beq_iff whole_zero]
  exact integral.moves

theorem values_whole : ((List.range (terms a s b)).map range.value).map Number.integer? =
    (progression a s (terms a s b)).map some := by
  rw [progression, List.map_map, List.map_map]
  apply List.map_congr_left
  intro k member
  exact integer?_eq_some_iff.mpr (value_whole integral (List.mem_range.mp member).le)

end

theorem runAll_eq_mapM (settings : Settings) (ss : List Stmt) :
    Stmt.runAll settings ss = (do return (← ss.mapM (·.run settings)).flatten) := by
  induction ss with
  | nil => rfl
  | cons s ss ih =>
    rw [Stmt.runAll, ih, List.mapM_cons]
    simp only [bind_assoc, pure_bind, List.flatten_cons]

theorem unrolled_run (settings : Settings) (range : Range) (counter : String) (body : List Stmt)
    (p : Position) (n : Nat) :
    (do
      let mesh ← Stmt.runAll settings (range.unrolled counter body p n)
      Exec.note ⟨counter, n⟩
      return mesh : Exec Mesh) =
      Stmt.rounds settings counter body ((List.range n).map range.value) := by
  have round : (fun k => (range.round counter body p k).run settings) = fun k =>
      Exec.inFrame [(counter, .number (range.value k))] (Stmt.runAll settings body) :=
    funext fun k => round_run range counter body p k
  rw [runAll_eq_mapM, Range.unrolled, List.mapM_map, Stmt.rounds, List.mapM_map, List.length_map,
    List.length_range]
  simp only [Function.comp_def, round, bind_assoc, pure_bind]

theorem integral_loop_run {start finish : Expr} {step : Option Expr} {machine : Machine}
    (usual : settings.loopTolerance = 1e-9) (unlimited : settings.loopBudget = none)
    (given : range.Given start step finish machine.scope) (integral : Integral range a s b)
    (counter : String) (body : List Stmt) :
    ∃ values, values.map Number.integer? = (progression a s (terms a s b)).map some ∧
      (Stmt.loop counter start step finish body).run settings machine =
        Stmt.rounds settings counter body values machine := by
  refine ⟨_, values_whole integral, ?_⟩
  have ends : range.FirstOutside settings.loopTolerance (terms a s b) := by
    rw [usual]
    exact firstOutside integral
  rw [loop_run_of_ends given rfl counter body ⟨1, 1⟩ ends (by simp [unlimited]), unrolled_run]

/-- A loop over integers makes its rounds with exactly the integers from its start by its step, as
many as there are up to its end. Without a step it makes them with all integers from one end to the
other. -/
theorem integer_loop_rounds (settings : Settings) (usual : settings.loopTolerance = 1e-9)
    (unlimited : settings.loopBudget = none) (machine : Machine) (counter : String)
    (start finish : Expr) (body : List Stmt) (a b : Int) (first : start.IsWhole machine.scope a)
    (last : finish.IsWhole machine.scope b) :
    (∀ (step : Expr) (s : Int), step.IsWhole machine.scope s → s ≠ 0 →
      a.natAbs + s.natAbs ≤ 2 ^ 53 → b.natAbs + s.natAbs ≤ 2 ^ 53 →
      ∃ values, values.map Number.integer? =
          (progression a s (Int.fdiv (b - a) s + 1).toNat).map some ∧
        (Stmt.loop counter start (some step) finish body).run settings machine =
          Stmt.rounds settings counter body values machine) ∧
    (a.natAbs < 2 ^ 53 → b.natAbs < 2 ^ 53 →
      ∃ values, values.map Number.integer? =
          (progression a (if a ≤ b then 1 else -1) ((b - a).natAbs + 1)).map some ∧
        (Stmt.loop counter start none finish body).run settings machine =
          Stmt.rounds settings counter body values machine) := by
  obtain ⟨x, evaluated, whole⟩ := first
  obtain ⟨z, evaluated', whole'⟩ := last
  rw [integer?_eq_some_iff] at whole whole'
  constructor
  · rintro step s ⟨y, stepped, whole''⟩ moves room room'
    rw [integer?_eq_some_iff] at whole''
    have integral : Integral ⟨x, y, z⟩ a s b := ⟨whole, whole'', whole', moves, room, room'⟩
    exact integral_loop_run usual unlimited ⟨evaluated, evaluated', stepped, step_moves integral⟩
      integral counter body
  · intro room room'
    have unit := whole_unit (whole.le_iff whole')
    have integral : Integral ⟨x, if x ≤ z then 1 else -1, z⟩ a (if a ≤ b then 1 else -1) b :=
      ⟨whole, unit, whole', by split <;> decide, by split <;> omega, by split <;> omega⟩
    rw [← terms_one]
    exact integral_loop_run usual unlimited ⟨evaluated, evaluated', rfl, step_moves integral⟩
      integral counter body

theorem countdown_rounds :
    let machine : Machine := ⟨.root [("w", .number 2)], []⟩
    (Expr.number 7).IsWhole machine.scope 7 ∧ (Expr.number 0).IsWhole machine.scope 0 ∧
    (Expr.negate (.number 3)).IsWhole machine.scope (-3) ∧
    (∃ values, values.map Number.integer? = [some 7, some 4, some 1] ∧
      (Stmt.loop "i" (.number 7) (some (.negate (.number 3))) (.number 0) widerBox).run .default
        machine = Stmt.rounds .default "i" widerBox values machine) ∧
    ∃ values, values.map Number.integer? =
        [some 7, some 6, some 5, some 4, some 3, some 2, some 1, some 0] ∧
      (Stmt.loop "i" (.number 7) none (.number 0) widerBox).run .default machine =
        Stmt.rounds .default "i" widerBox values machine := by
  intro machine
  have first : (Expr.number 7).IsWhole machine.scope 7 := ⟨7, rfl, rfl⟩
  have last : (Expr.number 0).IsWhole machine.scope 0 := ⟨0, rfl, rfl⟩
  have step : (Expr.negate (.number 3)).IsWhole machine.scope (-3) := ⟨-3, rfl, rfl⟩
  obtain ⟨stepped, plain⟩ := integer_loop_rounds .default rfl rfl machine "i" _ _ widerBox 7 0
    first last
  exact ⟨first, last, step, stepped _ (-3) step (by decide) (by decide) (by decide),
    plain (by decide) (by decide)⟩

end Proofs

end SolidScript
