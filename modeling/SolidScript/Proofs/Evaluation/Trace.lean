import Mathlib.Data.Fintype.Pigeonhole
import Mathlib.Logic.Function.Iterate
import SolidScript.Proofs.Evaluation.FreeNames

/-!
# Traces

How a program runs, told as rules: a loop goes on as long as its counter is in reach and its budget
is not spent, and nothing else bounds it. A run that ends has a trace, a tree with the rounds of its
loops. The evaluator has the outcome of the run if there is one; without a budget it says that a
loop is endless exactly when there is none, since a counter that takes more values than there are
doubles takes one of them again and again.
-/

namespace SolidScript

/-- What the execution of a statement went through. A loop has one entry for each round that it
began: the value of its counter, and what the statements of its body went through. -/
inductive Trace where
  | step
  | block (inner : List Trace)
  | loop (rounds : List (Float × List Trace))

def Settings.AllowsRound (settings : Settings) (done : Nat) : Prop :=
  ∀ budget ∈ settings.loopBudget, done < budget

/-- A call that does not run a block: it has none, or it is no union and no translate. -/
def Head.Idle (head : Head) (block : Option (List Stmt)) : Prop :=
  block = none ∨ Primitive.ofName? head.name ≠ some .union ∧
    Primitive.ofName? head.name ≠ some .translate

namespace Flat

mutual

/-- A statement runs to its end, where it has drawn a mesh and left a map, or failed. -/
inductive Runs (settings : Settings) :
    Env → Stmt → Trace → Except EvalError (Mesh × Env) → Prop where
  | assign (env : Env) (name : String) (e : Expr) :
    Runs settings env (.assign name e) .step
      ((e.eval (.root env)).map fun value => ([], env.set name value))
  | noRange {env : Env} {counter : String} {start finish : Expr} {step : Option Expr}
    {body : List Stmt} {e : EvalError}
    (failed : Range.eval start step finish (.root env) = .error e) :
    Runs settings env (.loop counter start step finish body) (.loop []) (.error e)
  | loop {env : Env} {counter : String} {start finish : Expr} {step : Option Expr}
    {body : List Stmt} {range : Range} {rounds : List (Float × List Trace)}
    {result : Except EvalError Mesh}
    (evaluated : Range.eval start step finish (.root env) = .ok range)
    (repeated : Repeats settings env counter body range 0 range.start rounds result) :
    Runs settings env (.loop counter start step finish body) (.loop rounds)
      (result.map fun mesh => (mesh, env))
  | plain {env : Env} {head : Head} {block : Option (List Stmt)} (idle : head.Idle block) :
    Runs settings env (.call head block) .step
      ((call settings head none env).map fun mesh => (mesh, env))
  | union {env : Env} {head : Head} {block : List Stmt} {traces : List Trace}
    {result : Except EvalError Mesh} (called : Primitive.ofName? head.name = some .union)
    (inner : RunsAll settings env block traces result) :
    Runs settings env (.call head (some block)) (.block traces)
      (result.map fun mesh => (mesh, env))
  | unmoved {env : Env} {head : Head} {block : List Stmt} {e : EvalError}
    (called : Primitive.ofName? head.name = some .translate)
    (failed : head.offset (.root env) = .error e) :
    Runs settings env (.call head (some block)) .step (.error e)
  | translate {env : Env} {head : Head} {block : List Stmt} {offset : Vertex Float}
    {traces : List Trace} {result : Except EvalError Mesh}
    (called : Primitive.ofName? head.name = some .translate)
    (moved : head.offset (.root env) = .ok offset)
    (inner : RunsAll settings env block traces result) :
    Runs settings env (.call head (some block)) (.block traces)
      (result.map fun mesh => (mesh.map (·.shift offset), env))

inductive RunsAll (settings : Settings) :
    Env → List Stmt → List Trace → Except EvalError Mesh → Prop where
  | nil (env : Env) : RunsAll settings env [] [] (.ok [])
  | failed {env : Env} {s : Stmt} {trace : Trace} {e : EvalError} (ss : List Stmt)
    (first : Runs settings env s trace (.error e)) :
    RunsAll settings env (s :: ss) [trace] (.error e)
  | cons {env env' : Env} {s : Stmt} {ss : List Stmt} {trace : Trace} {traces : List Trace}
    {mesh : Mesh} {result : Except EvalError Mesh}
    (first : Runs settings env s trace (.ok (mesh, env')))
    (later : RunsAll settings env' ss traces result) :
    RunsAll settings env (s :: ss) (trace :: traces) (result.map (mesh ++ ·))

inductive Repeats (settings : Settings) : Env → String → List Stmt → Range → Nat → Float →
    List (Float × List Trace) → Except EvalError Mesh → Prop where
  | past {env : Env} {counter : String} {body : List Stmt} {range : Range} (done : Nat)
    {value : Float} (past : range.reaches settings.loopTolerance value = false) :
    Repeats settings env counter body range done value [] (.ok [])
  | over {env : Env} {counter : String} {body : List Stmt} {range : Range} {done budget : Nat}
    {value : Float} (reached : range.reaches settings.loopTolerance value = true)
    (limited : settings.loopBudget = some budget) (spent : budget ≤ done) :
    Repeats settings env counter body range done value [] (.error (.budgetExceeded budget))
  | failed {env : Env} {counter : String} {body : List Stmt} {range : Range} {done : Nat}
    {value : Float} {traces : List Trace} {e : EvalError}
    (reached : range.reaches settings.loopTolerance value = true)
    (allowed : settings.AllowsRound done)
    (round : RunsAll settings (env.set counter (.number value)) body traces (.error e)) :
    Repeats settings env counter body range done value [(value, traces)] (.error e)
  | round {env : Env} {counter : String} {body : List Stmt} {range : Range} {done : Nat}
    {value : Float} {traces : List Trace} {mesh : Mesh} {rounds : List (Float × List Trace)}
    {result : Except EvalError Mesh}
    (reached : range.reaches settings.loopTolerance value = true)
    (allowed : settings.AllowsRound done)
    (round : RunsAll settings (env.set counter (.number value)) body traces (.ok mesh))
    (later : Repeats settings env counter body range (done + 1) (value + range.step) rounds
      result) :
    Repeats settings env counter body range done value ((value, traces) :: rounds)
      (result.map (mesh ++ ·))

end

end Flat

namespace Proofs
open Flat

variable {settings : Settings} {env : Env}

/-! ## Counters that come back -/

theorem iterate_of_lt_codes {α : Type} {N : Nat} {code : α → Fin N} (injective : code.Injective)
    (f : α → α) (x : α) {P : α → Prop} (holds : ∀ k < N, P (f^[k] x)) (k : Nat) :
    P (f^[k] x) := by
  -- Of the first `N + 1` values two are the same, and from there on they repeat.
  obtain ⟨i, j, different, same⟩ := Fintype.exists_ne_map_eq_of_card_lt
    (fun k : Fin (N + 1) => code (f^[k] x)) (by simp)
  obtain ⟨i, j, first, last, same⟩ :
      ∃ i j : Nat, i < j ∧ j ≤ N ∧ f^[i] x = f^[j] x := by
    rcases Nat.lt_or_gt_of_ne (Fin.val_ne_of_ne different) with less | more
    · exact ⟨i, j, less, Nat.le_of_lt_succ j.isLt, injective same⟩
    · exact ⟨j, i, more, Nat.le_of_lt_succ i.isLt, (injective same).symm⟩
  have early : ∃ m < j, f^[k] x = f^[m] x := by
    induction k with
    | zero => exact ⟨0, by omega, rfl⟩
    | succ k ih =>
      obtain ⟨m, before, met⟩ := ih
      have next : f^[k + 1] x = f^[m + 1] x := by
        rw [Function.iterate_succ_apply', met, ← Function.iterate_succ_apply' f]
      by_cases again : m + 1 = j
      · exact ⟨i, first, by rw [next, again, same]⟩
      · exact ⟨m + 1, by omega, next⟩
  obtain ⟨m, before, met⟩ := early
  rw [met]
  exact holds m (by omega)

def doubleCode (x : Float) : Fin (2 ^ 64) := x.toBits.toFin

theorem doubleCode_injective : Function.Injective doubleCode := by
  rintro ⟨⟨x, _⟩⟩ ⟨⟨y, _⟩⟩ same
  have bits : x = y := UInt64.toFin_inj.mp same
  subst bits
  rfl

section Rounds

variable {range : Range} {tolerance : Float} {error : EvalError}
  {body : Float → Except EvalError Mesh} {value : Float}

theorem rounds_past (past : range.reaches tolerance value = false) (left : Nat) :
    rounds range tolerance error body left value = .ok [] := by
  unfold rounds
  rw [past]
  rfl

theorem rounds_spent (reached : range.reaches tolerance value = true) :
    rounds range tolerance error body 0 value = .error error := by
  rw [rounds, if_pos reached]

theorem rounds_failed (reached : range.reaches tolerance value = true) {e : EvalError}
    (round : body value = .error e) (left : Nat) :
    rounds range tolerance error body (left + 1) value = .error e := by
  rw [rounds, if_pos reached, round]
  rfl

theorem rounds_round (reached : range.reaches tolerance value = true) {mesh : Mesh}
    (round : body value = .ok mesh) (left : Nat) :
    rounds range tolerance error body (left + 1) value =
      (rounds range tolerance error body left (value + range.step)).map (mesh ++ ·) := by
  rw [rounds, if_pos reached, round, ok_bind]
  cases rounds range tolerance error body left (value + range.step) <;> rfl

def GoesOn (range : Range) (tolerance : Float) (body : Float → Except EvalError Mesh)
    (value : Float) : Prop :=
  range.reaches tolerance value = true ∧ ∃ mesh, body value = .ok mesh

theorem rounds_of_not_goesOn (stops : ¬ GoesOn range tolerance body value) (left left' : Nat) :
    rounds range tolerance error body (left + 1) value =
      rounds range tolerance error body (left' + 1) value := by
  cases reached : range.reaches tolerance value with
  | false => rw [rounds_past reached, rounds_past reached]
  | true =>
    cases round : body value with
    | error e => rw [rounds_failed reached round, rounds_failed reached round]
    | ok mesh => exact absurd ⟨reached, mesh, round⟩ stops

theorem rounds_of_stops {k : Nat}
    (stops : ¬ GoesOn range tolerance body ((· + range.step)^[k] value)) (left left' : Nat) :
    rounds range tolerance error body (k + left + 1) value =
      rounds range tolerance error body (k + left' + 1) value := by
  induction k generalizing value with
  | zero => exact rounds_of_not_goesOn stops _ _
  | succ k ih =>
    by_cases goesOn : GoesOn range tolerance body value
    · obtain ⟨reached, mesh, round⟩ := goesOn
      rw [rounds_round reached round, rounds_round reached round, Nat.add_right_comm k 1 left,
        Nat.add_right_comm k 1 left']
      exact congrArg (Except.map (mesh ++ ·)) (ih stops)
    · exact rounds_of_not_goesOn goesOn _ _

theorem rounds_of_goesOn (goesOn : ∀ k, GoesOn range tolerance body ((· + range.step)^[k] value))
    (left : Nat) : rounds range tolerance error body left value = .error error := by
  induction left generalizing value with
  | zero => exact rounds_spent (goesOn 0).1
  | succ left ih =>
    obtain ⟨reached, mesh, round⟩ : GoesOn range tolerance body value := goesOn 0
    rw [rounds_round reached round, ih fun k => goesOn (k + 1)]
    rfl

theorem rounds_stable {left : Nat} (enough : 2 ^ 64 ≤ left) :
    rounds range tolerance error body left value =
      rounds range tolerance error body (2 ^ 64) value := by
  by_cases stops : ∃ k < 2 ^ 64, ¬ GoesOn range tolerance body ((· + range.step)^[k] value)
  · obtain ⟨k, early, stops⟩ := stops
    obtain ⟨more, here⟩ := Nat.exists_eq_add_of_lt early
    obtain ⟨more', there⟩ := Nat.exists_eq_add_of_lt (early.trans_le enough)
    rw [here, there]
    exact rounds_of_stops stops more' more
  · have forever := iterate_of_lt_codes doubleCode_injective (· + range.step) value
      fun k early => not_not.mp fun stopped => stops ⟨k, early, stopped⟩
    rw [rounds_of_goesOn forever, rounds_of_goesOn forever]

end Rounds

/-! ## Calls and limits -/

theorem call_of_idle {head : Head} {block : Option (List Stmt)} (idle : head.Idle block)
    (drawn : Option (Except EvalError Mesh)) (given : block = none → drawn = none) :
    call settings head drawn env = call settings head none env := by
  rcases idle with none | ⟨noUnion, noTranslate⟩
  · rw [given none]
  · unfold call
    cases called : Primitive.ofName? head.name with
    | none => rfl
    | some primitive =>
      cases primitive with
      | union => exact absurd called noUnion
      | translate => exact absurd called noTranslate
      | cube | cylinder => rfl

theorem call_union {head : Head} (called : Primitive.ofName? head.name = some .union)
    (drawn : Except EvalError Mesh) : call settings head (some drawn) env = drawn := by
  unfold call
  rw [called]

theorem call_translate {head : Head} (called : Primitive.ofName? head.name = some .translate)
    (drawn : Except EvalError Mesh) : call settings head (some drawn) env =
      head.offset (.root env) >>= fun offset => drawn.map (·.map (·.shift offset)) := by
  unfold call
  rw [called]
  cases drawn <;> rfl

theorem roundLimit_of_budget {budget : Nat} (limited : settings.loopBudget = some budget) :
    settings.roundLimit = ⟨budget, .budgetExceeded budget⟩ := by
  rw [Settings.roundLimit, limited]

theorem roundLimit_of_none (unlimited : settings.loopBudget = none) :
    settings.roundLimit = ⟨2 ^ 64, .endlessLoop⟩ := by
  rw [Settings.roundLimit, unlimited]
  rfl

def Leaves (settings : Settings) (done following left : Nat) : Prop :=
  match settings.loopBudget with
  | some budget => left + done = budget
  | none => following ≤ left

theorem Leaves.next {done following left : Nat}
    (leaves : Leaves settings done (following + 1) left) (allowed : settings.AllowsRound done) :
    ∃ left', left = left' + 1 ∧ Leaves settings (done + 1) following left' := by
  unfold Leaves at leaves ⊢
  unfold Settings.AllowsRound at allowed
  cases limited : settings.loopBudget with
  | none =>
    rw [limited] at leaves
    dsimp only at leaves ⊢
    exact ⟨left - 1, by omega, by omega⟩
  | some budget =>
    rw [limited] at leaves allowed
    dsimp only at leaves ⊢
    have unspent := allowed budget rfl
    exact ⟨left - 1, by omega, by omega⟩

theorem rounds_of_leaves {range : Range} {body : Float → Except EvalError Mesh} {value : Float}
    {following : Nat} {result : Except EvalError Mesh}
    (looped : ∀ left, Leaves settings 0 following left →
      rounds range settings.loopTolerance settings.roundLimit.error body left value = result) :
    rounds range settings.loopTolerance settings.roundLimit.error body settings.roundLimit.rounds
      value = result := by
  cases limited : settings.loopBudget with
  | some budget =>
    apply looped
    rw [Leaves, limited, roundLimit_of_budget limited]
    rfl
  | none =>
    rw [roundLimit_of_none limited] at looped ⊢
    rw [← rounds_stable (Nat.le_max_left (2 ^ 64) following)]
    apply looped
    rw [Leaves, limited]
    exact Nat.le_max_right _ _

/-! ## The evaluator, statement by statement -/

theorem run_assign (name : String) (e : Expr) : run settings (.assign name e) env =
    (e.eval (.root env)).map fun value => ([], env.set name value) := by
  rw [run]
  exact bind_pure_eq_map _ _

theorem run_loop {counter : String} {start finish : Expr} {step : Option Expr} {range : Range}
    (evaluated : Range.eval start step finish (.root env) = .ok range) (body : List Stmt) :
    run settings (.loop counter start step finish body) env =
      (rounds range settings.loopTolerance settings.roundLimit.error
        (fun value => runAll settings body (env.set counter (.number value)))
        settings.roundLimit.rounds range.start).map fun mesh => (mesh, env) := by
  rw [run, evaluated, ok_bind]
  exact bind_pure_eq_map _ _

theorem run_loop_error {counter : String} {start finish : Expr} {step : Option Expr}
    {e : EvalError} (failed : Range.eval start step finish (.root env) = .error e)
    (body : List Stmt) : run settings (.loop counter start step finish body) env = .error e := by
  rw [run, failed]
  rfl

theorem run_call (head : Head) (block : Option (List Stmt)) :
    run settings (.call head block) env =
      (call settings head (block.map fun block => runAll settings block env) env).map
        fun mesh => (mesh, env) := by
  cases block with
  | none =>
    rw [run]
    exact bind_pure_eq_map _ _
  | some block =>
    rw [run]
    exact bind_pure_eq_map _ _

theorem runAll_cons {s : Stmt} {env' : Env} {mesh : Mesh}
    (first : run settings s env = .ok (mesh, env')) (ss : List Stmt) :
    runAll settings (s :: ss) env = (runAll settings ss env').map (mesh ++ ·) := by
  rw [runAll, first, ok_bind]
  exact bind_pure_eq_map _ _

theorem runAll_cons_error {s : Stmt} {e : EvalError} (failed : run settings s env = .error e)
    (ss : List Stmt) : runAll settings (s :: ss) env = .error e := by
  rw [runAll, failed]
  rfl

/-! ## The outcome of a run -/

mutual

theorem run_of_runs : ∀ {env : Env} {s : Stmt} {trace : Trace}
    {result : Except EvalError (Mesh × Env)}, Runs settings env s trace result →
      run settings s env = result
  | _, _, _, _, .assign env name e => run_assign name e
  | _, _, _, _, .noRange failed => run_loop_error failed _
  | _, _, _, _, .loop evaluated repeated => by
    rw [run_loop evaluated, rounds_of_leaves (rounds_of_repeats repeated)]
  | _, _, _, _, @Runs.plain _ _ _ block idle => by
    rw [run_call, call_of_idle idle]
    intro none
    rw [none]
    rfl
  | _, _, _, _, .union called inner => by
    rw [run_call, Option.map_some, runAll_of_runsAll inner, call_union called]
  | _, _, _, _, .unmoved called failed => by
    rw [run_call, Option.map_some, call_translate called, failed]
    rfl
  | _, _, _, _, .translate called moved inner => by
    rw [run_call, Option.map_some, runAll_of_runsAll inner, call_translate called, moved, ok_bind,
      map_map_result]

theorem runAll_of_runsAll : ∀ {env : Env} {ss : List Stmt} {traces : List Trace}
    {result : Except EvalError Mesh}, RunsAll settings env ss traces result →
      runAll settings ss env = result
  | _, _, _, _, .nil _ => by rw [runAll]
  | _, _, _, _, .failed ss first => runAll_cons_error (run_of_runs first) ss
  | _, _, _, _, .cons first later => by
    rw [runAll_cons (run_of_runs first), runAll_of_runsAll later]

theorem rounds_of_repeats : ∀ {env : Env} {counter : String} {body : List Stmt} {range : Range}
    {done : Nat} {value : Float} {rounds : List (Float × List Trace)}
    {result : Except EvalError Mesh},
      Repeats settings env counter body range done value rounds result →
        ∀ left : Nat, Leaves settings done rounds.length left →
          Flat.rounds range settings.loopTolerance settings.roundLimit.error
            (fun value => runAll settings body (env.set counter (.number value))) left value =
              result
  | _, _, _, _, _, _, _, _, .past _ past, left, _ => rounds_past past left
  | _, _, _, _, _, _, _, _, .over reached limited spent, left, leaves => by
    rw [Leaves, limited] at leaves
    dsimp only at leaves
    have none : left = 0 := by omega
    rw [none, rounds_spent reached, roundLimit_of_budget limited]
  | _, _, _, _, _, _, _, _, .failed reached allowed round, left, leaves => by
    obtain ⟨left, rfl, _⟩ := leaves.next allowed
    exact rounds_failed reached (runAll_of_runsAll round) left
  | _, _, _, _, _, _, _, _, .round reached allowed round later, left, leaves => by
    obtain ⟨left', rfl, leaves'⟩ := leaves.next allowed
    rw [rounds_round reached (runAll_of_runsAll round), rounds_of_repeats later left' leaves']

end

/-! ## Runs that end -/

def Ends {α : Type} (x : Except EvalError α) : Prop := FailsBy (· ≠ .endlessLoop) x

theorem Ends.of_map {α β : Type} {x : Except EvalError α} {f : α → β} (ends : Ends (x.map f)) :
    Ends x :=
  fun e failed => ends e (congrArg (Except.map f) failed)

theorem Ends.map {α β : Type} {x : Except EvalError α} (ends : Ends x) (f : α → β) :
    Ends (x.map f) := by
  cases x with
  | error e => exact failsBy_error (ends e rfl)
  | ok a => exact failsBy_ok (f a)

theorem Ends.error_eq {α β : Type} {e : EvalError} (ends : Ends (.error e : Except EvalError α)) :
    Ends (.error e : Except EvalError β) :=
  failsBy_error (ends e rfl)

theorem repeats_of_rounds {counter : String} {body : List Stmt} {range : Range}
    (inner : ∀ {env : Env} {result : Except EvalError Mesh}, runAll settings body env = result →
      Ends result → ∃ traces, RunsAll settings env body traces result)
    {left done : Nat} {value : Float} {result : Except EvalError Mesh}
    (leaves : ∀ budget ∈ settings.loopBudget, left + done = budget)
    (looped : rounds range settings.loopTolerance settings.roundLimit.error
      (fun value => runAll settings body (env.set counter (.number value))) left value = result)
    (ends : Ends result) : ∃ rs, Repeats settings env counter body range done value rs result := by
  induction left generalizing done value result with
  | zero =>
    cases reached : range.reaches settings.loopTolerance value with
    | false =>
      rw [rounds_past reached] at looped
      subst looped
      exact ⟨[], .past done reached⟩
    | true =>
      rw [rounds_spent reached] at looped
      subst looped
      cases limited : settings.loopBudget with
      | none =>
        rw [roundLimit_of_none limited] at ends
        exact absurd rfl (ends _ rfl)
      | some budget =>
        rw [roundLimit_of_budget limited]
        have spent := leaves budget limited
        exact ⟨[], .over reached limited (by omega)⟩
  | succ left ih =>
    cases reached : range.reaches settings.loopTolerance value with
    | false =>
      rw [rounds_past reached] at looped
      subst looped
      exact ⟨[], .past done reached⟩
    | true =>
      have allowed : settings.AllowsRound done := fun budget limited => by
        have left := leaves budget limited
        omega
      cases round : runAll settings body (env.set counter (.number value)) with
      | error e =>
        rw [rounds_failed reached round] at looped
        subst looped
        obtain ⟨_, ran⟩ := inner round ends
        exact ⟨_, .failed reached allowed ran⟩
      | ok mesh =>
        rw [rounds_round reached round] at looped
        subst looped
        obtain ⟨_, ran⟩ := inner round (failsBy_ok mesh)
        have leaves' : ∀ budget ∈ settings.loopBudget, left + (done + 1) = budget :=
          fun budget limited => by
            have left := leaves budget limited
            omega
        obtain ⟨_, later⟩ := ih leaves' rfl ends.of_map
        exact ⟨_, .round reached allowed ran later⟩

mutual

theorem runs_of_run : ∀ (s : Stmt) {env : Env} {result : Except EvalError (Mesh × Env)},
    run settings s env = result → Ends result → ∃ trace, Runs settings env s trace result
  | .assign name e, env, _, rfl, _ => by
    rw [run_assign]
    exact ⟨_, .assign env name e⟩
  | .loop counter start step finish body, env, _, rfl, ends => by
    cases evaluated : Range.eval start step finish (.root env) with
    | error e =>
      rw [run_loop_error evaluated]
      exact ⟨_, .noRange evaluated⟩
    | ok range =>
      rw [run_loop evaluated] at ends ⊢
      have leaves : ∀ budget ∈ settings.loopBudget, settings.roundLimit.rounds + 0 = budget :=
        fun budget limited => congrArg RoundLimit.rounds (roundLimit_of_budget limited)
      obtain ⟨_, repeated⟩ := repeats_of_rounds (runsAll_of_runAll body) leaves rfl ends.of_map
      exact ⟨_, .loop evaluated repeated⟩
  | .call head none, env, _, rfl, _ => by
    rw [run_call]
    exact ⟨_, .plain (.inl rfl)⟩
  | .call head (some block), env, _, rfl, ends => by
    rw [run_call, Option.map_some] at ends ⊢
    by_cases union : Primitive.ofName? head.name = some .union
    · rw [call_union union] at ends ⊢
      obtain ⟨_, inner⟩ := runsAll_of_runAll block rfl ends.of_map
      exact ⟨_, .union union inner⟩
    by_cases translate : Primitive.ofName? head.name = some .translate
    · rw [call_translate translate] at ends ⊢
      cases moved : head.offset (.root env) with
      | error e => exact ⟨_, .unmoved translate moved⟩
      | ok offset =>
        rw [moved, ok_bind] at ends
        obtain ⟨_, inner⟩ := runsAll_of_runAll block rfl ends.of_map.of_map
        rw [ok_bind, map_map_result]
        exact ⟨_, .translate translate moved inner⟩
    · have idle : head.Idle (some block) := .inr ⟨union, translate⟩
      rw [call_of_idle idle _ nofun]
      exact ⟨_, .plain idle⟩

theorem runsAll_of_runAll : ∀ (ss : List Stmt) {env : Env} {result : Except EvalError Mesh},
    runAll settings ss env = result → Ends result → ∃ traces, RunsAll settings env ss traces result
  | [], env, _, rfl, _ => by
    rw [runAll]
    exact ⟨[], .nil env⟩
  | s :: ss, env, _, rfl, ends => by
    cases first : run settings s env with
    | error e =>
      rw [runAll_cons_error first] at ends ⊢
      obtain ⟨_, runs⟩ := runs_of_run s first ends.error_eq
      exact ⟨_, .failed ss runs⟩
    | ok drawn =>
      rw [runAll_cons first] at ends ⊢
      obtain ⟨_, runs⟩ := runs_of_run s first (failsBy_ok drawn)
      obtain ⟨_, later⟩ := runsAll_of_runAll ss rfl ends.of_map
      exact ⟨_, .cons runs later⟩

end

theorem ends_of_exprFault {α : Type} {names : Finset String} {scope : Scope}
    {x : Except EvalError α} (fails : FailsBy (ExprFault names scope) x) : Ends x := by
  refine fails.imp fun fault => ?_
  cases fault <;> exact nofun

theorem call_ends (head : Head) : Ends (call settings head none env) := by
  unfold call
  split
  · exact failsBy_error nofun
  · exact ends_of_exprFault (cube_failsBy head _)
  · refine (cylinder_failsBy settings head _).imp fun fault => ?_
    cases fault with
    | expression fault => cases fault <;> exact nofun
    | countTooLarge => exact nofun
  · exact failsBy_error nofun
  · rename_i given
    cases given
  · exact failsBy_error nofun
  · rename_i given
    cases given

mutual

theorem ends_of_runs : ∀ {env : Env} {s : Stmt} {trace : Trace}
    {result : Except EvalError (Mesh × Env)}, Runs settings env s trace result → Ends result
  | _, _, _, _, .assign env _ e => (ends_of_exprFault (eval_failsBy (.root env) e)).map _
  | _, _, _, _, .noRange failed => (failed ▸ ends_of_exprFault (range_failsBy _ _ _ _)).error_eq
  | _, _, _, _, .loop _ repeated => (ends_of_repeats repeated).map _
  | _, _, _, _, .plain _ => (call_ends _).map _
  | _, _, _, _, .union _ inner => (ends_of_runsAll inner).map _
  | _, _, _, _, .unmoved _ failed => (failed ▸ ends_of_exprFault (offset_failsBy _ _)).error_eq
  | _, _, _, _, .translate _ _ inner => (ends_of_runsAll inner).map _

theorem ends_of_runsAll : ∀ {env : Env} {ss : List Stmt} {traces : List Trace}
    {result : Except EvalError Mesh}, RunsAll settings env ss traces result → Ends result
  | _, _, _, _, .nil _ => failsBy_ok []
  | _, _, _, _, .failed _ first => (ends_of_runs first).error_eq
  | _, _, _, _, .cons _ later => (ends_of_runsAll later).map _

theorem ends_of_repeats : ∀ {env : Env} {counter : String} {body : List Stmt} {range : Range}
    {done : Nat} {value : Float} {rounds : List (Float × List Trace)}
    {result : Except EvalError Mesh},
      Repeats settings env counter body range done value rounds result → Ends result
  | _, _, _, _, _, _, _, _, .past _ _ => failsBy_ok []
  | _, _, _, _, _, _, _, _, .over _ _ _ => failsBy_error nofun
  | _, _, _, _, _, _, _, _, .failed _ _ round => ends_of_runsAll round
  | _, _, _, _, _, _, _, _, .round _ _ _ later => (ends_of_repeats later).map _

end

theorem runsAll_iff_eval {program : Program} {params : Frame} {result : Except EvalError Mesh} :
    (∃ traces, RunsAll settings params program traces result) ↔
      program.eval settings params = result ∧ Ends result := by
  rw [program_eval_eq_flat]
  constructor
  · rintro ⟨traces, runs⟩
    exact ⟨runAll_of_runsAll runs, ends_of_runsAll runs⟩
  · rintro ⟨ran, ends⟩
    exact runsAll_of_runAll program ran ends

theorem ends_of_budget {budget : Nat} (limited : settings.loopBudget = some budget)
    (program : Program) (params : Frame) : Ends (program.eval settings params) := by
  intro e failed endless
  rw [program_eval_eq_flat] at failed
  cases runAll_error settings program failed with
  | expression fault => cases fault <;> cases endless
  | unsupportedCall | countTooLarge => cases endless
  | outOfRounds =>
    rw [roundLimit_of_budget limited] at endless
    cases endless

end Proofs

end SolidScript
