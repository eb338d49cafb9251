import Mathlib.Algebra.Group.Action.Defs
import Mathlib.Algebra.Order.BigOperators.Group.List
import Mathlib.Data.PNat.Basic
import Mathlib.Order.WithBot
import SolidScript.Proofs.Evaluation.Trace

namespace SolidScript

def Settings.withBudget (settings : Settings) (budget : WithTop ℕ+) : Settings :=
  { settings with
    loopBudget := budget.recTopCoe none fun B => some B
    budget_pos := by
      intro n limited
      cases budget using WithTop.recTopCoe with
      | top => cases limited
      | coe B =>
        cases limited
        exact B.pos }

/-- An error that the evaluator tells: neither that it never ends, nor one that breaks it down. -/
def EvalError.IsTold (e : EvalError) : Prop := e ≠ .endlessLoop ∧ e ≠ .countTooLarge

/-- No loop in the trace makes more rounds than this. -/
inductive Trace.Within (bound : Nat) : Trace → Prop where
  | step : Within bound .step
  | block {inner : List Trace} (each : ∀ trace ∈ inner, Within bound trace) :
    Within bound (.block inner)
  | loop {rounds : List (Float × List Trace)} (few : rounds.length ≤ bound)
    (each : ∀ round ∈ rounds, ∀ trace ∈ round.2, Within bound trace) :
    Within bound (.loop rounds)

/-- The number of loops around the body of the loop at a place in a statement, its own included. The
place is told by the numbers of the statements on the way. -/
def Stmt.loopDepth : List Nat → Stmt → Option Nat
  | [], .loop .. => some 1
  | i :: place, .loop _ _ _ _ body => (body[i]?.bind (Stmt.loopDepth place)).map (· + 1)
  | i :: place, .call _ (some block) => block[i]?.bind (Stmt.loopDepth place)
  | _, _ => none

def Trace.bodyRuns : List Nat → Trace → Nat
  | [], .loop rounds => rounds.length
  | i :: place, .loop rounds =>
    (rounds.map fun round => round.2[i]?.elim 0 (Trace.bodyRuns place)).sum
  | i :: place, .block inner => inner[i]?.elim 0 (Trace.bodyRuns place)
  | _, _ => 0

namespace Proofs
open Flat

variable {settings : Settings} {env : Env}

/-! ## Larger budgets -/

theorem mem_withBudget {budget : WithTop ℕ+} {n : Nat} :
    n ∈ (settings.withBudget budget).loopBudget ↔ ∃ B : ℕ+, budget = B ∧ n = B := by
  cases budget using WithTop.recTopCoe with
  | top => exact ⟨nofun, nofun⟩
  | coe B =>
    constructor
    · rintro ⟨⟩
      exact ⟨B, rfl, rfl⟩
    · rintro ⟨B', same, rfl⟩
      cases WithTop.coe_injective same
      rfl

section Enlarge
variable {budget budget' : WithTop ℕ+}

theorem allowsRound_of_le (larger : budget ≤ budget') {done : Nat}
    (allowed : (settings.withBudget budget).AllowsRound done) :
    (settings.withBudget budget').AllowsRound done := by
  intro n limited
  obtain ⟨B', rfl, rfl⟩ := mem_withBudget.mp limited
  obtain ⟨B, rfl, fewer⟩ := WithTop.le_coe_iff.mp larger
  exact (allowed B (mem_withBudget.mpr ⟨B, rfl, rfl⟩)).trans_le fewer

def Exceeds {α : Type} (budget : WithTop ℕ+) (result : Except EvalError α) : Prop :=
  ∃ B : ℕ+, budget = B ∧ result = .error (.budgetExceeded B)

theorem Exceeds.map {α β : Type} {result : Except EvalError α} (exceeds : Exceeds budget result)
    (f : α → β) : Exceeds budget (result.map f) := by
  obtain ⟨B, same, rfl⟩ := exceeds
  exact ⟨B, same, rfl⟩

theorem Exceeds.error_eq {α β : Type} {e : EvalError}
    (exceeds : Exceeds budget (.error e : Except EvalError α)) :
    Exceeds budget (.error e : Except EvalError β) := by
  obtain ⟨B, same, failed⟩ := exceeds
  cases failed
  exact ⟨B, same, rfl⟩

theorem not_exceeds_ok {α : Type} {a : α} : ¬ Exceeds budget (.ok a) := by
  rintro ⟨_, _, ⟨⟩⟩

mutual

theorem runs_enlarge (larger : budget ≤ budget') : ∀ {env : Env} {s : Stmt} {trace : Trace}
    {result : Except EvalError (Mesh × Env)},
      Runs (settings.withBudget budget) env s trace result →
        Exceeds budget result ∨ Runs (settings.withBudget budget') env s trace result
  | _, _, _, _, .assign env name e => .inr (.assign env name e)
  | _, _, _, _, .noRange failed => .inr (.noRange failed)
  | _, _, _, _, .loop evaluated repeated =>
    (repeats_enlarge larger repeated).imp (·.map _) (.loop evaluated ·)
  | _, _, _, _, .plain idle => .inr (.plain idle)
  | _, _, _, _, .union called inner =>
    (runsAll_enlarge larger inner).imp (·.map _) (.union called ·)
  | _, _, _, _, .unmoved called failed => .inr (.unmoved called failed)
  | _, _, _, _, .translate called moved inner =>
    (runsAll_enlarge larger inner).imp (·.map _) (.translate called moved ·)

theorem runsAll_enlarge (larger : budget ≤ budget') : ∀ {env : Env} {ss : List Stmt}
    {traces : List Trace} {result : Except EvalError Mesh},
      RunsAll (settings.withBudget budget) env ss traces result →
        Exceeds budget result ∨ RunsAll (settings.withBudget budget') env ss traces result
  | _, _, _, _, .nil env => .inr (.nil env)
  | _, _, _, _, .failed ss first =>
    (runs_enlarge larger first).imp (·.error_eq) (.failed ss ·)
  | _, _, _, _, .cons first later => by
    have first := (runs_enlarge larger first).resolve_left not_exceeds_ok
    exact (runsAll_enlarge larger later).imp (·.map _) (.cons first ·)

theorem repeats_enlarge (larger : budget ≤ budget') : ∀ {env : Env} {counter : String}
    {body : List Stmt} {range : Range} {done : Nat} {value : Float}
    {rounds : List (Float × List Trace)} {result : Except EvalError Mesh},
      Repeats (settings.withBudget budget) env counter body range done value rounds result →
        Exceeds budget result ∨
          Repeats (settings.withBudget budget') env counter body range done value rounds result
  | _, _, _, _, _, _, _, _, .past done past => .inr (.past done past)
  | _, _, _, _, _, _, _, _, .over _ limited _ => by
    obtain ⟨B, same, rfl⟩ := mem_withBudget.mp limited
    exact .inl ⟨B, same, rfl⟩
  | _, _, _, _, _, _, _, _, .failed reached allowed round =>
    (runsAll_enlarge larger round).imp id (.failed reached (allowsRound_of_le larger allowed) ·)
  | _, _, _, _, _, _, _, _, .round reached allowed round later => by
    have round := (runsAll_enlarge larger round).resolve_left not_exceeds_ok
    exact (repeats_enlarge larger later).imp (·.map _)
      (.round reached (allowsRound_of_le larger allowed) round ·)

end

end Enlarge

/-! ## Runs that keep to a budget -/

theorem allowsRound_of_lt {B : ℕ+} {done : Nat} (few : done < B) :
    (settings.withBudget B).AllowsRound done := by
  intro n limited
  obtain ⟨B', same, rfl⟩ := mem_withBudget.mp limited
  cases WithTop.coe_injective same
  exact few

theorem not_limited_top {n : Nat} : (settings.withBudget ⊤).loopBudget ≠ some n := nofun

mutual

theorem runs_shrink {B : ℕ+} : ∀ {env : Env} {s : Stmt} {trace : Trace}
    {result : Except EvalError (Mesh × Env)}, Runs (settings.withBudget ⊤) env s trace result →
      trace.Within B → Runs (settings.withBudget B) env s trace result
  | _, _, _, _, .assign env name e, _ => .assign env name e
  | _, _, _, _, .noRange failed, _ => .noRange failed
  | _, _, _, _, .loop evaluated repeated, .loop few each =>
    .loop evaluated (repeats_shrink repeated ((Nat.zero_add _).trans_le few) each)
  | _, _, _, _, .plain idle, _ => .plain idle
  | _, _, _, _, .union called inner, .block each => .union called (runsAll_shrink inner each)
  | _, _, _, _, .unmoved called failed, _ => .unmoved called failed
  | _, _, _, _, .translate called moved inner, .block each =>
    .translate called moved (runsAll_shrink inner each)

theorem runsAll_shrink {B : ℕ+} : ∀ {env : Env} {ss : List Stmt} {traces : List Trace}
    {result : Except EvalError Mesh}, RunsAll (settings.withBudget ⊤) env ss traces result →
      (∀ trace ∈ traces, trace.Within B) → RunsAll (settings.withBudget B) env ss traces result
  | _, _, _, _, .nil env, _ => .nil env
  | _, _, _, _, .failed ss first, each => .failed ss (runs_shrink first (each _ (.head _)))
  | _, _, _, _, .cons first later, each =>
    .cons (runs_shrink first (each _ (.head _)))
      (runsAll_shrink later fun trace member => each trace (.tail _ member))

theorem repeats_shrink {B : ℕ+} : ∀ {env : Env} {counter : String} {body : List Stmt}
    {range : Range} {done : Nat} {value : Float} {rounds : List (Float × List Trace)}
    {result : Except EvalError Mesh},
      Repeats (settings.withBudget ⊤) env counter body range done value rounds result →
        done + rounds.length ≤ B → (∀ round ∈ rounds, ∀ trace ∈ round.2, trace.Within B) →
          Repeats (settings.withBudget B) env counter body range done value rounds result
  | _, _, _, _, _, _, _, _, .past done past, _, _ => .past done past
  | _, _, _, _, _, _, _, _, .over _ limited _, _, _ => absurd limited not_limited_top
  | _, _, _, _, _, _, _, _, .failed reached _ round, few, each =>
    .failed reached (allowsRound_of_lt few) (runsAll_shrink round (each _ (.head _)))
  | _, _, _, _, _, _, _, _, .round reached _ round later, few, each => by
    rw [List.length_cons, ← Nat.add_assoc, Nat.add_right_comm] at few
    exact .round reached (allowsRound_of_lt (by omega)) (runsAll_shrink round (each _ (.head _)))
      (repeats_shrink later few fun round member => each round (.tail _ member))

end

/-! ## How often a body runs -/

section Count
variable {B : Nat}

theorem length_of_repeats (limited : settings.loopBudget = some B) : ∀ {env : Env}
    {counter : String} {body : List Stmt} {range : Range} {done : Nat} {value : Float}
    {rounds : List (Float × List Trace)} {result : Except EvalError Mesh},
      Repeats settings env counter body range done value rounds result → done ≤ B →
        done + rounds.length ≤ B
  | _, _, _, _, _, _, _, _, .past _ _, start => start
  | _, _, _, _, _, _, _, _, .over _ _ _, start => start
  | _, _, _, _, _, _, _, _, .failed _ allowed _, _ => allowed B limited
  | _, _, _, _, done, _, _, _, .round _ allowed _ later, _ => by
    have rest := length_of_repeats limited later (allowed B limited)
    rw [List.length_cons]
    omega

mutual

theorem within_of_runs (limited : settings.loopBudget = some B) : ∀ {env : Env} {s : Stmt}
    {trace : Trace} {result : Except EvalError (Mesh × Env)},
      Runs settings env s trace result → trace.Within B
  | _, _, _, _, .assign _ _ _ => .step
  | _, _, _, _, .noRange _ => .loop (Nat.zero_le B) nofun
  | _, _, _, _, .loop _ repeated => by
    have few := length_of_repeats limited repeated (Nat.zero_le B)
    exact .loop (by omega) (within_of_repeats limited repeated)
  | _, _, _, _, .plain _ => .step
  | _, _, _, _, .union _ inner => .block (within_of_runsAll limited inner)
  | _, _, _, _, .unmoved _ _ => .step
  | _, _, _, _, .translate _ _ inner => .block (within_of_runsAll limited inner)

theorem within_of_runsAll (limited : settings.loopBudget = some B) : ∀ {env : Env} {ss : List Stmt}
    {traces : List Trace} {result : Except EvalError Mesh},
      RunsAll settings env ss traces result → ∀ trace ∈ traces, trace.Within B
  | _, _, _, _, .nil _ => nofun
  | _, _, _, _, .failed _ first => List.forall_mem_singleton.mpr (within_of_runs limited first)
  | _, _, _, _, .cons first later => List.forall_mem_cons.mpr
    ⟨within_of_runs limited first, within_of_runsAll limited later⟩

theorem within_of_repeats (limited : settings.loopBudget = some B) : ∀ {env : Env}
    {counter : String} {body : List Stmt} {range : Range} {done : Nat} {value : Float}
    {rounds : List (Float × List Trace)} {result : Except EvalError Mesh},
      Repeats settings env counter body range done value rounds result →
        ∀ round ∈ rounds, ∀ trace ∈ round.2, trace.Within B
  | _, _, _, _, _, _, _, _, .past _ _ => nofun
  | _, _, _, _, _, _, _, _, .over _ _ _ => nofun
  | _, _, _, _, _, _, _, _, .failed _ _ round =>
    List.forall_mem_singleton.mpr (within_of_runsAll limited round)
  | _, _, _, _, _, _, _, _, .round _ _ round later => List.forall_mem_cons.mpr
    ⟨within_of_runsAll limited round, within_of_repeats limited later⟩

end

theorem runs_of_getElem : ∀ {env : Env} {ss : List Stmt} {traces : List Trace}
    {result : Except EvalError Mesh}, RunsAll settings env ss traces result →
      ∀ {i : Nat} {trace : Trace}, traces[i]? = some trace →
        ∃ s env' result', ss[i]? = some s ∧ Runs settings env' s trace result'
  | _, _, _, _, .nil _, _, _, found => by cases found
  | _, _, _, _, .failed _ first, i, _, found => by
    cases i with
    | zero =>
      cases found
      exact ⟨_, _, _, rfl, first⟩
    | succ i => cases found
  | _, _, _, _, .cons first later, i, _, found => by
    cases i with
    | zero =>
      cases found
      exact ⟨_, _, _, rfl, first⟩
    | succ i => exact runs_of_getElem later found

theorem runsAll_of_round : ∀ {env : Env} {counter : String} {body : List Stmt} {range : Range}
    {done : Nat} {value : Float} {rounds : List (Float × List Trace)}
    {result : Except EvalError Mesh},
      Repeats settings env counter body range done value rounds result → ∀ round ∈ rounds,
        ∃ env' result', RunsAll settings env' body round.2 result'
  | _, _, _, _, _, _, _, _, .past _ _ => nofun
  | _, _, _, _, _, _, _, _, .over _ _ _ => nofun
  | _, _, _, _, _, _, _, _, .failed _ _ round => List.forall_mem_singleton.mpr ⟨_, _, round⟩
  | _, _, _, _, _, _, _, _, .round _ _ round later =>
    List.forall_mem_cons.mpr ⟨⟨_, _, round⟩, runsAll_of_round later⟩

theorem bodyRuns_le (limited : settings.loopBudget = some B) {place : List Nat} {s : Stmt} {d : Nat}
    (deep : s.loopDepth place = some d) {trace : Trace} {result : Except EvalError (Mesh × Env)}
    (runs : Runs settings env s trace result) : trace.bodyRuns place ≤ B ^ d := by
  induction place generalizing s d env trace result with
  | nil =>
    cases s with
    | assign | call => cases deep
    | loop counter start step finish body =>
      cases deep
      rw [pow_one]
      cases within_of_runs limited runs with
      | loop few => exact few
      | step | block => cases runs
  | cons i place ih =>
    have inner {env : Env} {ss : List Stmt} {traces : List Trace} {result : Except EvalError Mesh}
        {d : Nat} (runs : RunsAll settings env ss traces result)
        (deep : ss[i]?.bind (Stmt.loopDepth place) = some d) :
        traces[i]?.elim 0 (Trace.bodyRuns place) ≤ B ^ d := by
      cases found : traces[i]? with
      | none => exact Nat.zero_le _
      | some trace =>
        obtain ⟨s, _, _, found', runs⟩ := runs_of_getElem runs found
        rw [found'] at deep
        exact ih deep runs
    cases runs with
    | assign | unmoved => exact Nat.zero_le _
    | noRange => exact Nat.zero_le _
    | plain => exact Nat.zero_le _
    | union _ block => exact inner block deep
    | translate _ _ block => exact inner block deep
    | @loop _ _ _ _ _ body _ rounds _ _ repeated =>
      obtain ⟨d, deep', rfl⟩ := Option.map_eq_some_iff.mp deep
      have each : ∀ n ∈ rounds.map (fun round => round.2[i]?.elim 0 (Trace.bodyRuns place)),
          n ≤ B ^ d := by
        intro n member
        obtain ⟨round, began, rfl⟩ := List.mem_map.mp member
        obtain ⟨_, _, runs⟩ := runsAll_of_round repeated round began
        exact inner runs deep'
      have few := length_of_repeats limited repeated (Nat.zero_le B)
      rw [Nat.zero_add] at few
      calc Trace.bodyRuns (i :: place) (.loop rounds) ≤ rounds.length * B ^ d := by
            rw [← smul_eq_mul, ← @List.length_map _ _ rounds]
            exact List.sum_le_card_nsmul _ _ each
        _ ≤ B * B ^ d := Nat.mul_le_mul_right _ few
        _ = B ^ (d + 1) := (pow_succ' B d).symm

end Count

/-! ## Programs -/

theorem not_exceeds_top {program : Program} {params : Frame} {n : Nat} :
    program.eval (settings.withBudget ⊤) params ≠ .error (.budgetExceeded n) := by
  intro failed
  rw [program_eval_eq_flat] at failed
  generalize exceeded : EvalError.budgetExceeded n = e at failed
  cases runAll_error _ program failed with
  | expression fault => cases fault <;> cases exceeded
  | unsupportedCall | countTooLarge | outOfRounds => cases exceeded

theorem eval_enlarge {program : Program} {params : Frame} {B : ℕ+} {budget : WithTop ℕ+}
    (larger : B ≤ budget) :
    program.eval (settings.withBudget B) params = .error (.budgetExceeded B) ∨
      ∃ traces, RunsAll (settings.withBudget budget) params program traces
        (program.eval (settings.withBudget B) params) ∧ ∀ trace ∈ traces, trace.Within B := by
  have limited : (settings.withBudget B).loopBudget = some B := rfl
  obtain ⟨traces, runs⟩ := runsAll_iff_eval.mpr ⟨rfl, ends_of_budget limited program params⟩
  rcases runsAll_enlarge larger runs with ⟨B', same, exceeded⟩ | runs'
  · cases WithTop.coe_injective same
    exact .inl exceeded
  · exact .inr ⟨traces, runs', within_of_runsAll limited runs⟩

/-- A loop budget is noticed only by the error that it was exceeded: otherwise the outcome is the
one with any larger budget, and also the one without, where evaluation then comes to an end. -/
theorem loop_budget_conservative (program : Program) (settings : Settings) (params : Frame)
    (B : ℕ+) :
    let outcome (budget : WithTop ℕ+) := program.eval (settings.withBudget budget) params
    (∀ budget : WithTop ℕ+, B ≤ budget →
      outcome B = .error (.budgetExceeded B) ∨ outcome B = outcome budget) ∧
    (outcome B = .error (.budgetExceeded B) ∨
      ∃ traces, RunsAll (settings.withBudget ⊤) params program traces (outcome B) ∧
        ∀ trace ∈ traces, trace.Within B) ∧
    (∀ mesh, outcome B = .ok mesh → ∀ budget : WithTop ℕ+, B ≤ budget →
      outcome budget = .ok mesh) ∧
    ∀ traces result, RunsAll (settings.withBudget ⊤) params program traces result →
      (∀ trace ∈ traces, trace.Within B) →
        outcome B = result ∧ outcome ⊤ = result ∧ ∀ n, result ≠ .error (.budgetExceeded n) := by
  intro outcome
  have keeps (budget : WithTop ℕ+) (larger : B ≤ budget) :
      outcome B = .error (.budgetExceeded B) ∨ outcome B = outcome budget := by
    refine (eval_enlarge larger).imp_right fun ⟨traces, runs, _⟩ => ?_
    exact (runsAll_iff_eval.mp ⟨traces, runs⟩).1.symm
  refine ⟨keeps, eval_enlarge le_top, fun mesh drawn budget larger => ?_, ?_⟩
  · rcases keeps budget larger with exceeded | same
    · rw [drawn] at exceeded
      cases exceeded
    · exact same.symm.trans drawn
  · intro traces result runs few
    have unlimited := (runsAll_iff_eval.mp ⟨traces, runs⟩).1
    refine ⟨(runsAll_iff_eval.mp ⟨traces, runsAll_shrink runs few⟩).1, unlimited, fun n => ?_⟩
    rw [← unlimited]
    exact not_exceeds_top

theorem told_or_large {B : Nat} (limited : settings.loopBudget = some B) {program : Program}
    {params : Frame} {e : EvalError} (failed : program.eval settings params = .error e) :
    e.IsTold ∨ e = .countTooLarge ∧ ¬ settings.HoldsCounts := by
  rw [program_eval_eq_flat] at failed
  cases runAll_error settings program failed with
  | expression fault => cases fault <;> exact .inl ⟨nofun, nofun⟩
  | unsupportedCall => exact .inl ⟨nofun, nofun⟩
  | countTooLarge large => exact .inr ⟨rfl, large⟩
  | outOfRounds =>
    rw [roundLimit_of_budget limited]
    exact .inl ⟨nofun, nofun⟩

/-- With a loop budget every program ends, in a mesh or in one error, and each execution of a loop
makes at most so many rounds. So the body of a loop inside of others runs no oftener than a power of
the budget. The error is one that is told, if the doubles hold the counts in the settings. -/
theorem loop_budget_bounds (program : Program) (settings : Settings) (params : Frame) (B : Nat)
    (limited : settings.loopBudget = some B) :
    (∃ traces, RunsAll settings params program traces (program.eval settings params) ∧
      ∀ trace ∈ traces, trace.Within B) ∧
    (∀ traces result, RunsAll settings params program traces result →
      result = program.eval settings params) ∧
    (∀ e, program.eval settings params = .error e →
      e.IsTold ∨ e = .countTooLarge ∧ ¬ settings.HoldsCounts) ∧
    ∀ env s trace result, Runs settings env s trace result →
      trace.Within B ∧ ∀ place d, s.loopDepth place = some d → trace.bodyRuns place ≤ B ^ d := by
  obtain ⟨traces, runs⟩ := runsAll_iff_eval.mpr ⟨rfl, ends_of_budget limited program params⟩
  refine ⟨⟨traces, runs, within_of_runsAll limited runs⟩, ?_, fun e => told_or_large limited, ?_⟩
  · intro traces' result runs'
    exact (runsAll_iff_eval.mp ⟨traces', runs'⟩).1.symm
  · intro env s trace result runs'
    exact ⟨within_of_runs limited runs', fun place d deep => bodyRuns_le limited deep runs'⟩

def stillLoops : Program :=
  [.loop "i" (.number 1) (some (.number 1e-17)) (.number 2)
    [.loop "j" (.number 1) (some (.number 1e-17)) (.number 2) []]]

def twoRounds : Settings :=
  { Settings.default.withBudget (2 : ℕ+) with
    loopTolerance := 1 / 0
    tolerance_nonneg := by decide +kernel }

theorem stillLoops_bounds : twoRounds.loopBudget = some 2 ∧
    stillLoops.eval twoRounds [] = .error (.budgetExceeded 2) ∧
    (∃ traces, RunsAll twoRounds [] stillLoops traces (stillLoops.eval twoRounds []) ∧
      ∀ trace ∈ traces, trace.Within 2) ∧
    ∀ trace result, Runs twoRounds [] (stillLoops.head (by decide)) trace result →
      trace.bodyRuns [0] ≤ 4 := by
  have bounds := loop_budget_bounds stillLoops twoRounds [] 2 rfl
  exact ⟨rfl, rfl, bounds.1, fun trace result runs => (bounds.2.2.2 _ _ _ _ runs).2 [0] 2 rfl⟩

def largeCount : Settings :=
  { Settings.default.withBudget (5 : ℕ+) with
    defaultSegments := Nat.pow 10 103 * Nat.pow 10 103 * Nat.pow 10 103
    three_le_default := by decide }

def loneCylinder : Program :=
  [.call ⟨"cylinder", [], [("h", .number 1), ("r", .number 1)], .start⟩ none]

theorem loneCylinder_not_told : largeCount.loopBudget = some 5 ∧
    ∃ e, loneCylinder.eval largeCount [] = .error e ∧ ¬ e.IsTold :=
  ⟨rfl, .countTooLarge, rfl, fun told => told.2 rfl⟩

end Proofs

end SolidScript
