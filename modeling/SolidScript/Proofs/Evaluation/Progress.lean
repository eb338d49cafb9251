import SolidScript.Proofs.Evaluation.Unrolling
import SolidScript.Proofs.Number.Rounding

namespace SolidScript

/-- Whether a counter with this step comes to the one value before it comes to the other. -/
def Range.Before (range : Range) (x y : Float) : Prop := if 0 < range.step then x < y else y < x

namespace Proofs
open Flat

variable {start finish : Expr} {step : Option Expr} {scope : Scope} {range : Range}
  {settings : Settings} {env : Env}

theorem before_irrefl (x : Float) : ¬ range.Before x x := by
  unfold Range.Before
  split <;> exact fun less => not_lt_of_lt less less

theorem before_trans {x y z : Float} (first : range.Before x y) (second : range.Before y z) :
    range.Before x z := by
  unfold Range.Before at *
  split
  · rename_i up
    rw [if_pos up] at first second
    exact float_lt_trans first second
  · rename_i down
    rw [if_neg down] at first second
    exact float_lt_trans second first

theorem value_next (given : range.Given start step finish scope) (k : Nat) :
    range.Before (range.value k) (range.value (k + 1)) ∨
      range.value (k + 1) = range.value k := by
  have number := value_isNaN given k
  have finite := given_step_finite given
  unfold Range.Before
  split
  · rename_i up
    rcases lt_or_beq_of_le (le_add_of_pos number finite up) with less | equal
    · exact .inl less
    · rw [float_beq_comm] at equal
      exact .inr (add_eq_of_beq finite given.moves equal)
  · rename_i up
    rcases lt_or_beq_of_le (add_le_of_neg number finite (given_step_neg given up)) with less | equal
    · exact .inl less
    · exact .inr (add_eq_of_beq finite given.moves equal)

theorem value_of_still {k j : Nat} (still : range.value (k + 1) = range.value k) (later : k ≤ j) :
    range.value j = range.value k := by
  induction j, later using Nat.le_induction with
  | base => rfl
  | succ j _ ih =>
    rw [Range.value, ih]
    exact still

theorem value_before (given : range.Given start step finish scope) {i j : Nat} (earlier : i < j)
    (moves : ∀ k < j, range.value (k + 1) ≠ range.value k) :
    range.Before (range.value i) (range.value j) := by
  induction j, earlier using Nat.le_induction with
  | base => exact (value_next given i).resolve_right (moves i (Nat.lt_succ_self i))
  | succ j _ ih =>
    have next := (value_next given j).resolve_right (moves j (Nat.lt_succ_self j))
    exact before_trans (ih fun k early => moves k (Nat.lt_succ_of_lt early)) next

theorem values_strict_iff (given : range.Given start step finish scope) (n : Nat) :
    ((List.range n).map range.value).Pairwise range.Before ↔
      ∀ k, k + 1 < n → range.value (k + 1) ≠ range.value k := by
  rw [List.pairwise_map]
  constructor
  · intro strict k early still
    have before := List.pairwise_iff_getElem.mp strict k (k + 1) (by simp; omega) (by simpa)
      (Nat.lt_succ_self k)
    rw [List.getElem_range, List.getElem_range, still] at before
    exact before_irrefl _ before
  · intro moves
    refine List.pairwise_lt_range.imp_of_mem fun _ member earlier => ?_
    refine value_before given earlier fun k early => moves k ?_
    have := List.mem_range.mp member
    omega

theorem repeats_values : ∀ {env : Env} {counter : String} {body : List Stmt} {range : Range}
    {done : Nat} {value : Float} {rounds : List (Float × List Trace)}
    {result : Except EvalError Mesh},
      Repeats settings env counter body range done value rounds result →
        value = range.value done →
          rounds.map Prod.fst = (List.range' done rounds.length).map range.value ∧
          (∀ k, done ≤ k → k < done + rounds.length →
            range.reaches settings.loopTolerance (range.value k) = true) ∧
          ∀ mesh, result = .ok mesh →
            range.reaches settings.loopTolerance (range.value (done + rounds.length)) = false
  | _, _, _, _, done, _, _, _, .past _ past, here => by
    subst here
    exact ⟨rfl, fun k after before => absurd before (by simpa using after), fun _ _ => past⟩
  | _, _, _, _, done, _, _, _, .over reached limited spent, here => by
    exact ⟨rfl, fun k after before => absurd before (by simpa using after), nofun⟩
  | _, _, _, range, done, _, _, _, .failed reached allowed round, here => by
    subst here
    refine ⟨rfl, fun k after before => ?_, nofun⟩
    obtain rfl : k = done := by simp at before; omega
    exact reached
  | _, _, _, range, done, _, _, _, .round reached allowed round later, here => by
    subst here
    obtain ⟨values, within, past⟩ := repeats_values later rfl
    have total : ∀ n, done + 1 + n = done + (n + 1) := by omega
    simp only [List.length_cons, List.map_cons, List.range'_succ]
    rw [total] at within past
    refine ⟨by rw [values], fun k after before => ?_, fun mesh drawn => ?_⟩
    · rcases Nat.eq_or_lt_of_le after with rfl | later
      · exact reached
      · exact within k later before
    · obtain ⟨others, ended, -⟩ := map_eq_ok.mp drawn
      exact past others ended

/-- The counter of a loop goes strictly in the direction of its step until a step is lost in
rounding, and then it stays forever. The values that it takes in a run are strictly ordered if no
step between them is lost; and none is in a loop that comes to its end. -/
theorem counter_strict_until_still (settings : Settings) (env : Env) (counter : String)
    (start : Expr) (step : Option Expr) (finish : Expr) (body : List Stmt) (range : Range)
    (evaluated : Range.eval start step finish (.root env) = .ok range) :
    (∀ k, range.Before (range.value k) (range.value (k + 1)) ∨
      ∀ j, k ≤ j → range.value j = range.value k) ∧
    ∀ rounds result,
      Runs settings env (.loop counter start step finish body) (.loop rounds) result →
        rounds.map Prod.fst = (List.range rounds.length).map range.value ∧
        ((rounds.map Prod.fst).Pairwise range.Before ↔
          ∀ k, k + 1 < rounds.length → range.value k + range.step ≠ range.value k) ∧
        ∀ outcome, result = .ok outcome → (rounds.map Prod.fst).Pairwise range.Before := by
  have given := given_of_eval evaluated
  constructor
  · intro k
    exact (value_next given k).imp_right fun still j later => value_of_still still later
  · intro rounds result runs
    cases runs with
    | noRange failed => rw [evaluated] at failed; cases failed
    | loop evaluated' repeated =>
      obtain rfl := Except.ok.inj (evaluated.symm.trans evaluated')
      obtain ⟨values, within, past⟩ := repeats_values repeated rfl
      rw [← List.range_eq_range'] at values
      simp only [Nat.zero_add] at within past
      have strict := values_strict_iff given rounds.length
      rw [← values] at strict
      refine ⟨values, strict, fun outcome ended => ?_⟩
      obtain ⟨mesh, drawn, -⟩ := map_eq_ok.mp ended
      rw [strict]
      intro k early still
      -- A counter that stays is in reach after the last round as it was before it.
      have last := value_of_still still (j := rounds.length) (by omega)
      have reached := within k (Nat.zero_le k) (by omega)
      rw [← last, past mesh drawn] at reached
      cases reached

theorem halfSteps_strict :
    Range.eval (.number 0) (some (.number 0.5)) (.number 1) (.root []) = .ok halfSteps ∧
    ∃ rounds, Runs .default [] (.loop "i" (.number 0) (some (.number 0.5)) (.number 1) [])
        (.loop rounds) (.ok ([], [])) ∧
      rounds.map Prod.fst = [0, 0.5, 1] ∧ (rounds.map Prod.fst).Pairwise halfSteps.Before := by
  have evaluated : Range.eval (.number 0) (some (.number 0.5)) (.number 1) (.root []) =
      .ok halfSteps := rfl
  have strict := counter_strict_until_still .default [] "i" _ _ _ [] halfSteps evaluated
  have allowed (k : Nat) : Settings.default.AllowsRound k := by
    rintro budget ⟨⟩
  have runs : Runs .default [] (.loop "i" (.number 0) (some (.number 0.5)) (.number 1) [])
      (.loop [(0, []), (0.5, []), (1, [])]) (.ok ([], [])) :=
    .loop evaluated (.round rfl (allowed 0) (.nil _) (.round rfl (allowed 1) (.nil _)
      (.round rfl (allowed 2) (.nil _) (.past 3 rfl))))
  exact ⟨evaluated, _, runs, rfl, (strict.2 _ _ runs).2.2 _ rfl⟩

def roundsOfThree : Settings :=
  { Settings.default with loopBudget := some 3, budget_pos := by simp }

def lostStep : Stmt :=
  .loop "i" (.number 9007199254740992) (some (.number 1)) (.number 9007199254740994) []

theorem lostStep_not_strict :
    Program.eval [lostStep] roundsOfThree [] = .error (.budgetExceeded 3) ∧
    ∃ rounds, Runs roundsOfThree [] lostStep (.loop rounds) (.error (.budgetExceeded 3)) ∧
      rounds.map Prod.fst = [9007199254740992, 9007199254740992, 9007199254740992] ∧
      ¬ (rounds.map Prod.fst).Pairwise (· < ·) := by
  let range : Range := ⟨9007199254740992, 1, 9007199254740994⟩
  have still : range.start + range.step = range.start := by decide +kernel
  have reached : range.reaches roundsOfThree.loopTolerance range.start = true := by decide +kernel
  have round {done : Nat} {rounds : List (Float × List Trace)} {result : Except EvalError Mesh}
      (early : done < 3)
      (later : Repeats roundsOfThree [] "i" [] range (done + 1) range.start rounds result) :
      Repeats roundsOfThree [] "i" [] range done range.start ((range.start, []) :: rounds)
        (result.map ([] ++ ·)) := by
    refine .round reached ?_ (.nil _) (still.symm ▸ later)
    rintro budget ⟨⟩
    exact early
  have last : Repeats roundsOfThree [] "i" [] range 3 range.start [] (.error (.budgetExceeded 3)) :=
    .over reached rfl (Nat.le_refl 3)
  have runs : Runs roundsOfThree [] lostStep
      (.loop [(range.start, []), (range.start, []), (range.start, [])])
      (.error (.budgetExceeded 3)) :=
    .loop rfl (round (by decide) (round (by decide) (round (by decide) last)))
  have failed := runAll_of_runsAll (.failed [] runs)
  refine ⟨(program_eval_eq_flat _ _ _).trans failed, _, runs, rfl, ?_⟩
  decide +kernel

end Proofs

end SolidScript
