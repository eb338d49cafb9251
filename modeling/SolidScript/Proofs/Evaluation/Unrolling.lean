import SolidScript.Proofs.Evaluation.DrawList
import SolidScript.Proofs.Evaluation.Trace
import SolidScript.Proofs.Number.Order

namespace SolidScript

structure Range.Given (start : Expr) (step : Option Expr) (finish : Expr) (scope : Scope)
    (range : Range) : Prop where
  first : start.evalNumber scope = .ok range.start
  last : finish.evalNumber scope = .ok range.finish
  step : match step with
    | some step => step.evalNumber scope = .ok range.step
    | none => range.step = if range.start ≤ range.finish then 1 else -1
  moves : (range.step == 0) = false

namespace Range

def value (range : Range) : Nat → Float
  | 0 => range.start
  | k + 1 => range.value k + range.step

def Outside (range : Range) (tolerance value : Float) : Prop :=
  0 < range.step ∧ range.finish + tolerance < value ∨
    range.step < 0 ∧ value < range.finish - tolerance

instance (range : Range) (tolerance value : Float) : Decidable (range.Outside tolerance value) :=
  inferInstanceAs (Decidable (_ ∨ _))

/-- How many steps lead to the first value past the end. -/
def FirstOutside (range : Range) (tolerance : Float) (n : Nat) : Prop :=
  range.Outside tolerance (range.value n) ∧ ∀ k < n, ¬ range.Outside tolerance (range.value k)

instance (range : Range) (tolerance : Float) (n : Nat) :
    Decidable (range.FirstOutside tolerance n) :=
  inferInstanceAs (Decidable (_ ∧ _))

/-- A round of a loop as a statement of its own: a block in which the counter is assigned first. -/
def round (range : Range) (counter : String) (body : List Stmt) (p : Position) (k : Nat) : Stmt :=
  .call ⟨"union", [], [], p⟩ (some (.assign counter (.number (range.value k)) :: body))

def unrolled (range : Range) (counter : String) (body : List Stmt) (p : Position) (n : Nat) :
    List Stmt :=
  (List.range n).map (range.round counter body p)

end Range

namespace Proofs

variable {start finish : Expr} {step : Option Expr} {scope : Scope} {range : Range}
  {settings : Settings}

theorem exec_id_map {α : Type} (x : Exec α) : id <$> x = x := by
  funext machine
  simp only [Functor.map]
  cases x machine with
  | mk result after => cases result <;> rfl

theorem exec_bind_assoc {α β γ : Type} (x : Exec α) (f : α → Exec β) (g : β → Exec γ) :
    x >>= f >>= g = x >>= fun a => f a >>= g := by
  funext machine
  simp only [bind]
  cases x machine with
  | mk result after => cases result <;> rfl

instance : LawfulMonad Exec := .mk' Exec exec_id_map (fun _ _ => rfl) exec_bind_assoc

/-! ## The counter -/

theorem evalNumber_finite {e : Expr} {x : Float} (number : e.evalNumber scope = .ok x) :
    x.isFinite = true := by
  obtain ⟨value, -, number⟩ := bind_eq_ok.mp number
  exact asNumber_finite number

theorem given_step_finite (given : range.Given start step finish scope) :
    range.step.isFinite = true := by
  have evaluated := given.step
  cases step with
  | some e => exact evalNumber_finite evaluated
  | none =>
    dsimp only at evaluated
    rw [evaluated]
    split <;> rfl

theorem given_eval (given : range.Given start step finish scope) :
    Range.eval start step finish scope = .ok range := by
  have evaluated := given.step
  unfold Range.eval
  rw [given.first, given.last]
  cases step with
  | some e =>
    dsimp only at evaluated
    simp only [ok_bind, evaluated, given.moves]
    rfl
  | none =>
    dsimp only at evaluated
    simp only [ok_bind, pure, Except.pure, ← evaluated, given.moves]
    rfl

theorem given_of_eval (evaluated : Range.eval start step finish scope = .ok range) :
    range.Given start step finish scope := by
  obtain ⟨first, start, evaluated⟩ := bind_eq_ok.mp evaluated
  obtain ⟨last, finish, evaluated⟩ := bind_eq_ok.mp evaluated
  have checked {size : Float} (evaluated : (if (size == 0) = true then .error EvalError.zeroStep
      else .ok ⟨first, size, last⟩) = Except.ok range) :
      (size == 0) = false ∧ ⟨first, size, last⟩ = range := by
    split at evaluated
    · cases evaluated
    · exact ⟨Bool.not_eq_true _ ▸ ‹_›, Except.ok.inj evaluated⟩
  cases step with
  | some e =>
    obtain ⟨size, stepped, evaluated⟩ := bind_eq_ok.mp evaluated
    obtain ⟨moves, rfl⟩ := checked evaluated
    exact ⟨start, finish, stepped, moves⟩
  | none =>
    obtain ⟨size, stepped, evaluated⟩ := bind_eq_ok.mp evaluated
    obtain ⟨moves, rfl⟩ := checked evaluated
    exact ⟨start, finish, (pure_eq_ok.mp stepped).symm, moves⟩

theorem given_step_neg (given : range.Given start step finish scope) (up : ¬ 0 < range.step) :
    range.step < 0 := by
  rw [lt_iff_not_le (isNaN_of_isFinite (given_step_finite given)) rfl, not_not] at up
  exact (lt_or_beq_of_le up).resolve_right (by simp [given.moves])

theorem value_isNaN (given : range.Given start step finish scope) (k : Nat) :
    (range.value k).isNaN = false := by
  have finite := given_step_finite given
  induction k with
  | zero => exact isNaN_of_isFinite (evalNumber_finite given.first)
  | succ k ih => exact isNaN_add ih (isNaN_of_isFinite finite) (.inr finite)

theorem reaches_iff (given : range.Given start step finish scope) (k : Nat) :
    range.reaches settings.loopTolerance (range.value k) = true ↔
      ¬ range.Outside settings.loopTolerance (range.value k) := by
  -- No value that is compared is undefined, though the tolerance may be infinite.
  have finite := evalNumber_finite given.last
  have last := isNaN_of_isFinite finite
  have tolerance := isNaN_of_le settings.tolerance_nonneg
  have value := value_isNaN given k
  have above := lt_iff_not_le value (isNaN_add last tolerance (.inl finite))
  have below := lt_iff_not_le (isNaN_sub last tolerance finite) value
  unfold Range.reaches Range.Outside
  by_cases up : 0 < range.step
  · have down : ¬ range.step < 0 := not_lt_of_lt up
    simp only [up, down, if_true, decide_eq_true_eq, true_and, false_and, or_false, above,
      not_not]
  · have down := given_step_neg given up
    simp only [up, down, if_false, decide_eq_true_eq, true_and, false_and, false_or, below,
      not_not]

/-! ## Rounds -/

theorem round_run (range : Range) (counter : String) (body : List Stmt) (p : Position) (k : Nat) :
    (range.round counter body p k).run settings =
      Exec.inFrame [(counter, .number (range.value k))] (Stmt.runAll settings body) := by
  have union : Primitive.ofName? "union" = some .union := rfl
  rw [Range.round, Stmt.run, Head.run, union]
  change Exec.inFrame [] (Stmt.runAll settings (.assign counter _ :: body)) = _
  funext machine
  have assigned (inner : Machine) :
      (Stmt.assign counter (.number (range.value k))).run settings inner =
        (.ok [], { inner with scope := inner.scope.set counter (.number (range.value k)) }) := by
    rw [Stmt.run]
    rfl
  unfold Exec.inFrame
  rw [runAll_cons_of_nothing (assigned _)]
  rfl

section Rounds

variable (range) (settings) (counter : String) (body : List Stmt)

def roundsFrom (error : EvalError) (left done : Nat) (drawn : Mesh) : Exec (Nat × Mesh) :=
  range.run settings.loopTolerance error
    (fun value => Exec.inFrame [(counter, .number value)] (Stmt.runAll settings body))
    left done (range.value done) drawn

variable {range settings counter body}

theorem roundsFrom_past {error : EvalError} {left done : Nat} {drawn : Mesh}
    (past : range.reaches settings.loopTolerance (range.value done) = false) :
    roundsFrom range settings counter body error left done drawn = pure (done, drawn.reverse) := by
  funext machine
  unfold roundsFrom Range.run
  rw [past]
  rfl

theorem roundsFrom_spent {error : EvalError} {done : Nat} {drawn : Mesh}
    (reached : range.reaches settings.loopTolerance (range.value done) = true) :
    roundsFrom range settings counter body error 0 done drawn = Exec.fail error := by
  funext machine
  unfold roundsFrom Range.run
  rw [if_pos reached]
  rfl

theorem roundsFrom_round {error : EvalError} {left done : Nat} {drawn : Mesh} (p : Position)
    (reached : range.reaches settings.loopTolerance (range.value done) = true) :
    roundsFrom range settings counter body error (left + 1) done drawn =
      ((range.round counter body p done).run settings >>= fun mesh =>
        roundsFrom range settings counter body error left (done + 1) (mesh.reverseAux drawn)) := by
  funext machine
  rw [round_run]
  unfold roundsFrom
  rw [Range.run, if_pos reached]
  simp only [bind]
  cases Exec.inFrame [(counter, .number (range.value done))] (Stmt.runAll settings body)
      machine with
  | mk result after => cases result <;> rfl

theorem roundsFrom_eq_unrolled (error : EvalError) (p : Position) (count left done : Nat)
    (drawn : Mesh) (reached : ∀ k, done ≤ k → k < done + count →
      range.reaches settings.loopTolerance (range.value k) = true) :
    roundsFrom range settings counter body error (count + left) done drawn = (do
      let mesh ← Stmt.runAll settings ((List.range' done count).map (range.round counter body p))
      roundsFrom range settings counter body error left (done + count)
        (mesh.reverseAux drawn)) := by
  -- By induction on the number of rounds.
  induction count generalizing done drawn with
  | zero =>
    rw [Nat.zero_add]
    rfl
  | succ count ih =>
    have later (mesh : Mesh) := ih (done + 1) (mesh.reverseAux drawn)
      fun k after before => reached k (by omega) (by omega)
    have joined (mesh rest : Mesh) :
        (mesh ++ rest).reverseAux drawn = rest.reverseAux (mesh.reverseAux drawn) := by
      simp [List.reverseAux_eq]
    have total : done + 1 + count = done + (count + 1) := by omega
    rw [Nat.add_right_comm count 1 left,
      roundsFrom_round p (reached done (Nat.le_refl done) (by omega)), List.range'_succ,
      List.map_cons, Stmt.runAll]
    simp only [later, bind_assoc, pure_bind, joined, total]

end Rounds

theorem rounds_eq_unrolled (counter : String) (body : List Stmt) (p : Position) (error : EvalError)
    (count left : Nat)
    (reached : ∀ k < count, range.reaches settings.loopTolerance (range.value k) = true) :
    roundsFrom range settings counter body error (count + left) 0 [] = (do
      let mesh ← Stmt.runAll settings (range.unrolled counter body p count)
      roundsFrom range settings counter body error left count mesh.reverse) := by
  rw [roundsFrom_eq_unrolled error p count left 0 [] fun k _ before => reached k (by omega),
    Range.unrolled, List.range_eq_range']
  simp only [Nat.zero_add, List.reverseAux_eq, List.append_nil]

/-! ## Whole loops -/

theorem value_eq_iterate (range : Range) (k : Nat) :
    range.value k = (· + range.step)^[k] range.start := by
  induction k with
  | zero => rfl
  | succ k ih => rw [Function.iterate_succ_apply', ← ih, Range.value]

theorem le_doubles {n : Nat} (given : range.Given start step finish scope)
    (ends : range.FirstOutside settings.loopTolerance n) : n ≤ 2 ^ 64 := by
  by_contra more
  have always := iterate_of_lt_codes doubleCode_injective (· + range.step) range.start
    (P := (range.reaches settings.loopTolerance · = true))
    fun k early => by
      rw [← value_eq_iterate, reaches_iff given]
      exact ends.2 k (by omega)
  refine (reaches_iff given n).mp ?_ ends.1
  rw [value_eq_iterate]
  exact always n

theorem loop_run (given : range.Given start step finish scope) {machine : Machine}
    (here : machine.scope = scope) (counter : String) (body : List Stmt) :
    (Stmt.loop counter start step finish body).run settings machine = (do
      let (rounds, mesh) ← roundsFrom range settings counter body settings.roundLimit.error
        settings.roundLimit.rounds 0 []
      Exec.note ⟨counter, rounds⟩
      return mesh : Exec Mesh) machine := by
  rw [Stmt.run]
  simp only [bind, Exec.read, here, given_eval given]
  rfl

theorem loop_run_of_ends (given : range.Given start step finish scope) {machine : Machine}
    (here : machine.scope = scope) (counter : String) (body : List Stmt) (p : Position) {n : Nat}
    (ends : range.FirstOutside settings.loopTolerance n)
    (enough : ∀ budget ∈ settings.loopBudget, n ≤ budget) :
    (Stmt.loop counter start step finish body).run settings machine = (do
      let mesh ← Stmt.runAll settings (range.unrolled counter body p n)
      Exec.note ⟨counter, n⟩
      return mesh : Exec Mesh) machine := by
  have within : n ≤ settings.roundLimit.rounds := by
    cases limited : settings.loopBudget with
    | some budget =>
      rw [roundLimit_of_budget limited]
      exact enough budget limited
    | none =>
      rw [roundLimit_of_none limited]
      exact le_doubles given ends
  have past : range.reaches settings.loopTolerance (range.value n) = false := by
    rw [← Bool.not_eq_true, reaches_iff given, not_not]
    exact ends.1
  obtain ⟨left, split⟩ := Nat.exists_eq_add_of_le within
  have rounds := rounds_eq_unrolled counter body p settings.roundLimit.error n left
    fun k before => (reaches_iff given k).mpr (ends.2 k before)
  simp only [roundsFrom_past past, List.reverse_reverse] at rounds
  rw [loop_run given here, split, rounds]
  simp only [bind_assoc, pure_bind]

theorem reaches_of_long (given : range.Given start step finish scope) {budget k : Nat}
    (long : ∀ n, range.FirstOutside settings.loopTolerance n → budget < n) (early : k ≤ budget) :
    range.reaches settings.loopTolerance (range.value k) = true := by
  rw [reaches_iff given]
  intro outside
  have ends : ∃ k, range.Outside settings.loopTolerance (range.value k) := ⟨k, outside⟩
  have least := long (Nat.find ends) ⟨Nat.find_spec ends, fun k => Nat.find_min ends⟩
  have first : Nat.find ends ≤ k := Nat.find_min' ends outside
  omega

theorem loop_run_of_spent (given : range.Given start step finish scope) {machine : Machine}
    (here : machine.scope = scope) (counter : String) (body : List Stmt) (p : Position)
    {budget : Nat} (limited : settings.loopBudget = some budget)
    (long : ∀ n, range.FirstOutside settings.loopTolerance n → budget < n) :
    (Stmt.loop counter start step finish body).run settings machine = (do
      let _ ← Stmt.runAll settings (range.unrolled counter body p budget)
      Exec.fail (.budgetExceeded budget) : Exec Mesh) machine := by
  have rounds := rounds_eq_unrolled counter body p (.budgetExceeded budget) budget 0
    fun k before => reaches_of_long given long (Nat.le_of_lt before)
  simp only [roundsFrom_spent (reaches_of_long given long (Nat.le_refl budget)), Nat.add_zero]
    at rounds
  rw [loop_run given here, roundLimit_of_budget limited]
  simp only [rounds, bind_assoc]
  rfl

/-- A loop draws what its rounds draw as statements of their own, or fails as the first of them
that fails. If its budget is too small for them, it fails as the first of those in the budget that
fails, and else because of the budget. -/
theorem loop_eq_unrolling (settings : Settings) (machine : Machine) (counter : String)
    (start : Expr) (step : Option Expr) (finish : Expr) (body : List Stmt) (p : Position)
    (range : Range) (given : range.Given start step finish machine.scope) :
    (∀ n, range.FirstOutside settings.loopTolerance n →
      (∀ budget ∈ settings.loopBudget, n ≤ budget) →
      ((Stmt.loop counter start step finish body).run settings machine).1 =
        (Stmt.runAll settings (range.unrolled counter body p n) machine).1) ∧
    ∀ budget ∈ settings.loopBudget,
      (∀ n, range.FirstOutside settings.loopTolerance n → budget < n) →
      ((Stmt.loop counter start step finish body).run settings machine).1 =
        ((Stmt.runAll settings (range.unrolled counter body p budget) machine).1 >>= fun _ =>
          .error (.budgetExceeded budget)) := by
  constructor
  · intro n ends enough
    rw [loop_run_of_ends given rfl counter body p ends enough]
    simp only [bind]
    cases Stmt.runAll settings (range.unrolled counter body p n) machine with
    | mk result after => cases result <;> rfl
  · intro budget limited long
    rw [loop_run_of_spent given rfl counter body p limited long]
    simp only [bind]
    cases Stmt.runAll settings (range.unrolled counter body p budget) machine with
    | mk result after => cases result <;> rfl

def halfSteps : Range := ⟨0, 0.5, 1⟩

def widerBox : List Stmt :=
  [.assign "i" (.binary .add (.var "i") (.var "w")),
    .call ⟨"cube", [.array [.var "i", .number 1, .number 1]], [], ⟨1, 1⟩⟩ none]

def roundsOfTwo : Settings :=
  { Settings.default with loopBudget := some 2, budget_pos := by simp }

theorem halfSteps_eq_unrolling :
    let loop := Stmt.loop "i" (.number 0) (some (.number 0.5)) (.number 1) widerBox
    let machine : Machine := ⟨.root [("w", .number 2)], []⟩
    halfSteps.Given (.number 0) (some (.number 0.5)) (.number 1) machine.scope ∧
    halfSteps.FirstOutside 1e-9 3 ∧
    (loop.run .default machine).1 =
      (Stmt.runAll .default (halfSteps.unrolled "i" widerBox ⟨1, 1⟩ 3) machine).1 ∧
    (loop.run roundsOfTwo machine).1 =
      ((Stmt.runAll roundsOfTwo (halfSteps.unrolled "i" widerBox ⟨1, 1⟩ 2) machine).1 >>= fun _ =>
        .error (.budgetExceeded 2)) := by
  intro loop machine
  have given : halfSteps.Given (.number 0) (some (.number 0.5)) (.number 1) machine.scope :=
    ⟨rfl, rfl, rfl, rfl⟩
  have ends : halfSteps.FirstOutside 1e-9 3 := by decide +kernel
  have long (n : Nat) (outside : halfSteps.FirstOutside 1e-9 n) : 2 < n := by
    by_contra early
    exact ends.2 n (by omega) outside.1
  refine ⟨given, ends, ?_, ?_⟩
  · exact (loop_eq_unrolling .default machine "i" _ _ _ widerBox ⟨1, 1⟩ halfSteps given).1 3 ends
      (by simp [Settings.default])
  · exact (loop_eq_unrolling roundsOfTwo machine "i" _ _ _ widerBox ⟨1, 1⟩ halfSteps given).2 2 rfl
      long

end Proofs

end SolidScript
