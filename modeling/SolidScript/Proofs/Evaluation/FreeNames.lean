import SolidScript.Proofs.Evaluation.Flat

namespace SolidScript

/-- The names that a statement binds for the later statements of its list. -/
def Stmt.binds : Stmt → Finset String
  | .assign name _ => {name}
  | .loop .. => ∅
  | .call .. => ∅

mutual

def Stmt.free : Stmt → Finset String
  | .assign _ value => value.names
  | .loop counter start step finish body =>
    Range.names start step finish ∪ (Stmt.freeAll body \ {counter})
  | .call head none => head.names
  | .call head (some block) => head.names ∪ Stmt.freeAll block

def Stmt.freeAll : List Stmt → Finset String
  | [] => ∅
  | s :: ss => s.free ∪ (Stmt.freeAll ss \ s.binds)

end

namespace Proofs
open Flat

variable {settings : Settings} {env env' : Env} {names : Finset String}

/-! ## Parameters that agree -/

theorem get?_root (env : Env) (name : String) : (Scope.root env).get? name = env.get? name :=
  shows_root env name

theorem agree_set {name : String}
    (agree : Agree (names \ {name}) (.root env) (.root env')) (value : Value) :
    Agree names (.root (env.set name value)) (.root (env'.set name value)) := by
  intro other member
  rw [get?_root, get?_root, Bindings.get?_set, Bindings.get?_set]
  by_cases same : other = name
  · rw [if_pos same, if_pos same]
  · rw [if_neg same, if_neg same, ← get?_root, ← get?_root]
    exact agree other (by simp [member, same])

inductive Alike (names : Finset String) :
    Except EvalError (Mesh × Env) → Except EvalError (Mesh × Env) → Prop where
  | error (e : EvalError) : Alike names (.error e) (.error e)
  | ok (mesh : Mesh) {env env' : Env} (agree : Agree names (.root env) (.root env')) :
    Alike names (.ok (mesh, env)) (.ok (mesh, env'))

theorem alike_of_same (agree : Agree names (.root env) (.root env'))
    (result : Except EvalError Mesh) :
    Alike names (do return (← result, env)) (do return (← result, env')) := by
  cases result with
  | error e => exact .error e
  | ok mesh => exact .ok mesh agree

theorem call_agree {head : Head} (agree : Agree head.names (.root env) (.root env'))
    (block : Option (Except EvalError Mesh)) :
    call settings head block env = call settings head block env' := by
  unfold call
  rw [cube_agree agree, cylinder_agree settings agree, offset_agree agree]

mutual

theorem run_agree (settings : Settings) : ∀ (s : Stmt) {names : Finset String} {env env' : Env},
    Agree (s.free ∪ (names \ s.binds)) (.root env) (.root env') →
      Alike names (run settings s env) (run settings s env')
  | .assign name value, names, env, env', agree => by
    rw [Stmt.free, Stmt.binds] at agree
    rw [run, run, eval_agree value agree.left]
    cases value.eval (.root env') with
    | error e => exact .error e
    | ok v => exact .ok [] (agree_set agree.right v)
  | .loop counter start step finish body, names, env, env', agree => by
    rw [Stmt.free, Stmt.binds, Finset.sdiff_empty] at agree
    have body_agree (value : Float) : runAll settings body (env.set counter (.number value)) =
        runAll settings body (env'.set counter (.number value)) :=
      runAll_agree settings body (agree_set agree.left.right _)
    rw [run, run, range_agree agree.left.left]
    simp only [body_agree]
    cases Range.eval start step finish (.root env') with
    | error e => exact .error e
    | ok range => exact alike_of_same agree.right _
  | .call head none, names, env, env', agree => by
    rw [Stmt.free, Stmt.binds, Finset.sdiff_empty] at agree
    rw [run, run, call_agree agree.left]
    exact alike_of_same agree.right _
  | .call head (some block), names, env, env', agree => by
    rw [Stmt.free, Stmt.binds, Finset.sdiff_empty] at agree
    rw [run, run, runAll_agree settings block agree.left.right, call_agree agree.left.left]
    exact alike_of_same agree.right _

theorem runAll_agree (settings : Settings) : ∀ (ss : List Stmt) {env env' : Env},
    Agree (Stmt.freeAll ss) (.root env) (.root env') →
      runAll settings ss env = runAll settings ss env'
  | [], env, env', _ => by rw [runAll, runAll]
  | s :: ss, env, env', agree => by
    rw [Stmt.freeAll] at agree
    rw [runAll, runAll]
    have alike := run_agree settings s agree
    generalize run settings s env = first at alike ⊢
    generalize run settings s env' = first' at alike ⊢
    cases alike with
    | error e => rfl
    | ok mesh agree' =>
      rw [ok_bind, ok_bind]
      dsimp only
      rw [runAll_agree settings ss agree']

end

/-! ## Faults of programs -/

inductive StmtFault (settings : Settings) (names : Finset String) (env : Env) :
    EvalError → Prop where
  | expression {e : EvalError} (fault : ExprFault names (.root env) e) :
    StmtFault settings names env e
  | unsupportedCall (name : String) (p : Position) :
    StmtFault settings names env (.unsupportedCall name p)
  | countTooLarge (large : ¬ settings.HoldsCounts) : StmtFault settings names env .countTooLarge
  | outOfRounds : StmtFault settings names env settings.roundLimit.error

theorem StmtFault.mono {names' : Finset String} {e : EvalError}
    (fault : StmtFault settings names env e) (more : names ⊆ names') :
    StmtFault settings names' env e := by
  cases fault with
  | expression fault => exact .expression (fault.mono more)
  | unsupportedCall name p => exact .unsupportedCall name p
  | countTooLarge large => exact .countTooLarge large
  | outOfRounds => exact .outOfRounds

theorem StmtFault.of_set {name : String} {value : Value} {e : EvalError}
    (fault : StmtFault settings names (env.set name value) e) :
    StmtFault settings (names \ {name}) env e := by
  cases fault with
  | unsupportedCall name p => exact .unsupportedCall name p
  | countTooLarge large => exact .countTooLarge large
  | outOfRounds => exact .outOfRounds
  | expression fault =>
    apply StmtFault.expression
    cases fault with
    | @undefined other named unbound =>
      rw [get?_root, Bindings.get?_set] at unbound
      split at unbound
      · cases unbound
      · rename_i different
        exact .undefined (by simp [named, different]) ((get?_root env other).trans unbound)
    | notANumber v => exact .notANumber v
    | divisionByZero => exact .divisionByZero
    | zeroStep => exact .zeroStep
    | missingArgument call argument => exact .missingArgument call argument
    | notAVector arity v => exact .notAVector arity v

theorem rounds_error {range : Range} {tolerance : Float} {error : EvalError}
    {body : Float → Except EvalError Mesh} {left : Nat} {value : Float} {e : EvalError}
    (failed : rounds range tolerance error body left value = .error e) :
    e = error ∨ ∃ value, body value = .error e := by
  induction left generalizing value with
  | zero =>
    unfold rounds at failed
    split at failed
    · cases failed
      exact .inl rfl
    · cases failed
  | succ left ih =>
    unfold rounds at failed
    split at failed
    · rcases bind_eq_error.mp failed with round | ⟨mesh, -, later⟩
      · exact .inr ⟨value, round⟩
      · rcases bind_eq_error.mp later with others | ⟨_, -, done⟩
        · exact ih others
        · cases done
    · cases failed

theorem call_error {head : Head} {block : Option (Except EvalError Mesh)} {e : EvalError}
    (failed : call settings head block env = .error e) :
    block = some (.error e) ∨ StmtFault settings head.names env e := by
  unfold call at failed
  split at failed
  · cases failed
    exact .inr (.unsupportedCall _ _)
  · exact .inr (.expression (cube_failsBy head _ e failed))
  · cases cylinder_failsBy settings head _ e failed with
    | expression fault => exact .inr (.expression fault)
    | countTooLarge large => exact .inr (.countTooLarge large)
  · cases failed
    exact .inr (.expression (.missingArgument _ _))
  · rw [failed]
    exact .inl rfl
  · cases failed
    exact .inr (.expression (.missingArgument _ _))
  · rcases bind_eq_error.mp failed with unmoved | ⟨offset, -, later⟩
    · exact .inr (.expression (offset_failsBy head _ e unmoved))
    · rcases bind_eq_error.mp later with inner | ⟨_, -, done⟩
      · rw [inner]
        exact .inl rfl
      · cases done

theorem run_binds {s : Stmt} {mesh : Mesh} (ran : run settings s env = .ok (mesh, env')) :
    (s.binds = ∅ ∧ env' = env) ∨ ∃ name value, s.binds = {name} ∧ env' = env.set name value := by
  cases s with
  | assign name e =>
    simp only [run, bind_eq_ok, pure_eq_ok, Prod.mk.injEq] at ran
    obtain ⟨value, -, -, rfl⟩ := ran
    exact .inr ⟨name, value, rfl, rfl⟩
  | loop counter start step finish body =>
    simp only [run, bind_eq_ok, pure_eq_ok, Prod.mk.injEq] at ran
    obtain ⟨_, -, _, -, -, rfl⟩ := ran
    exact .inl ⟨rfl, rfl⟩
  | call head block =>
    cases block with
    | none =>
      simp only [run, bind_eq_ok, pure_eq_ok, Prod.mk.injEq] at ran
      obtain ⟨_, -, -, rfl⟩ := ran
      exact .inl ⟨rfl, rfl⟩
    | some block =>
      simp only [run, bind_eq_ok, pure_eq_ok, Prod.mk.injEq] at ran
      obtain ⟨_, -, -, rfl⟩ := ran
      exact .inl ⟨rfl, rfl⟩

mutual

theorem run_error (settings : Settings) : ∀ (s : Stmt) {env : Env} {e : EvalError},
    run settings s env = .error e → StmtFault settings s.free env e
  | .assign name value, env, e, failed => by
    rw [Stmt.free]
    rw [run] at failed
    rcases bind_eq_error.mp failed with undefined | ⟨_, -, done⟩
    · exact .expression (eval_failsBy _ value e undefined)
    · cases done
  | .loop counter start step finish body, env, e, failed => by
    rw [Stmt.free]
    rw [run] at failed
    rcases bind_eq_error.mp failed with noRange | ⟨range, -, looped⟩
    · exact .expression ((range_failsBy start step finish _ e noRange).mono
        Finset.subset_union_left)
    · rcases bind_eq_error.mp looped with stopped | ⟨_, -, done⟩
      · rcases rounds_error stopped with rfl | ⟨value, inner⟩
        · exact .outOfRounds
        · exact (runAll_error settings body inner).of_set.mono Finset.subset_union_right
      · cases done
  | .call head none, env, e, failed => by
    rw [Stmt.free]
    rw [run] at failed
    rcases bind_eq_error.mp failed with called | ⟨_, -, done⟩
    · rcases call_error called with inner | fault
      · cases inner
      · exact fault
    · cases done
  | .call head (some block), env, e, failed => by
    rw [Stmt.free]
    rw [run] at failed
    rcases bind_eq_error.mp failed with called | ⟨_, -, done⟩
    · rcases call_error called with inner | fault
      · exact (runAll_error settings block (Option.some.inj inner)).mono Finset.subset_union_right
      · exact fault.mono Finset.subset_union_left
    · cases done

theorem runAll_error (settings : Settings) : ∀ (ss : List Stmt) {env : Env} {e : EvalError},
    runAll settings ss env = .error e → StmtFault settings (Stmt.freeAll ss) env e
  | [], env, e, failed => by
    rw [runAll] at failed
    cases failed
  | s :: ss, env, e, failed => by
    rw [Stmt.freeAll]
    rw [runAll] at failed
    rcases bind_eq_error.mp failed with first | ⟨⟨mesh, env'⟩, ran, later⟩
    · exact (run_error settings s first).mono Finset.subset_union_left
    · rcases bind_eq_error.mp later with others | ⟨_, -, done⟩
      · have fault := runAll_error settings ss others
        -- A later name is free in the whole list unless this statement has just bound it.
        rcases run_binds ran with ⟨nothing, rfl⟩ | ⟨name, value, bound, rfl⟩
        · rw [nothing, Finset.sdiff_empty]
          exact fault.mono Finset.subset_union_right
        · rw [bound]
          exact fault.of_set.mono Finset.subset_union_right
      · cases done

end

theorem undefined_free {program : Program} {params : Frame} {name : String}
    (failed : program.eval settings params = .error (.undefinedVariable name)) :
    name ∈ Stmt.freeAll program ∧ params.get? name = none := by
  rw [program_eval_eq_flat] at failed
  generalize undefined : EvalError.undefinedVariable name = e at failed
  cases runAll_error settings program failed with
  | expression fault =>
    cases fault with
    | undefined named unbound =>
      cases undefined
      exact ⟨named, (get?_root params name).symm.trans unbound⟩
    | _ => cases undefined
  | unsupportedCall | countTooLarge => cases undefined
  | outOfRounds =>
    unfold Settings.roundLimit at undefined
    split at undefined <;> cases undefined

/-- Only the free names of a program matter: with parameters that agree on them it has the same
outcome, and a name that it finds undefined is one of them and is no parameter. So with all of them
given, no name is undefined. -/
theorem only_free_names_matter (program : Program) (settings : Settings) :
    (∀ params params' : Frame,
      (∀ name ∈ Stmt.freeAll program, params.get? name = params'.get? name) →
        program.eval settings params = program.eval settings params') ∧
    (∀ (params : Frame) (name : String),
      program.eval settings params = .error (.undefinedVariable name) →
        name ∈ Stmt.freeAll program ∧ params.get? name = none) ∧
    ∀ params : Frame, (∀ name ∈ Stmt.freeAll program, (params.get? name).isSome) →
      ∀ name, program.eval settings params ≠ .error (.undefinedVariable name) := by
  refine ⟨fun params params' same => ?_, fun params name => undefined_free, ?_⟩
  · rw [program_eval_eq_flat, program_eval_eq_flat]
    apply runAll_agree
    intro name free
    rw [get?_root, get?_root]
    exact same name free
  · intro params given name failed
    obtain ⟨free, absent⟩ := undefined_free failed
    have present := given name free
    rw [absent] at present
    cases present

-- The range of a loop is outside of the loop, and what its body assigns is not seen after it.
example : Stmt.freeAll [
    .loop "i" (.var "n") none (.var "i") [.assign "n" (.var "i"), .assign "m" (.var "n")],
    .assign "n" (.var "m"), .assign "k" (.var "n")] = {"n", "i", "m"} := by
  decide

end Proofs

end SolidScript
