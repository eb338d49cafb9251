import SolidScript.Proofs.Evaluation.Names
import SolidScript.Proofs.Parsing.Relocation

namespace SolidScript

def EvalError.relocate (move : Position → Position) : EvalError → EvalError
  | .unsupportedCall name p => .unsupportedCall name (move p)
  | e => e

def Exec.relocate {α : Type} (move : Position → Position) (act : Exec α) : Exec α :=
  fun machine => ((act machine).1.mapError (.relocate move), (act machine).2)

namespace Proofs

variable {α β : Type}

theorem ExprFault.relocate_eq {names : Finset String} {scope : Scope} {e : EvalError}
    (move : Position → Position) (fault : ExprFault names scope e) : e.relocate move = e := by
  cases fault <;> rfl

theorem CylinderFault.relocate_eq {settings : Settings} {names : Finset String} {scope : Scope}
    {e : EvalError} (move : Position → Position) (fault : CylinderFault settings names scope e) :
    e.relocate move = e := by
  cases fault with
  | expression fault => exact fault.relocate_eq move
  | countTooLarge => rfl

variable (move : Position → Position)

theorem relocate_bind (x : Exec α) (f : α → Exec β) :
    (x >>= f).relocate move = x.relocate move >>= fun a => (f a).relocate move := by
  funext machine
  simp only [bind, Exec.relocate]
  cases ran : x machine with
  | mk result machine' => cases result <;> rfl

theorem relocate_read {f : Scope → Except EvalError α} {Fault : Scope → EvalError → Prop}
    (fails : ∀ scope, FailsBy (Fault scope) (f scope))
    (unmoved : ∀ {scope e}, Fault scope e → e.relocate move = e) :
    (Exec.read f).relocate move = Exec.read f := by
  funext machine
  refine congrArg (·, machine) (show (f machine.scope).mapError _ = f machine.scope from ?_)
  cases result : f machine.scope with
  | ok a => rfl
  | error e => exact congrArg Except.error (unmoved (fails machine.scope e result))

theorem relocate_run (range : Range) (tolerance : Float) {error : EvalError}
    (unmoved : error.relocate move = error) (body : Float → Exec Mesh) (left done : Nat)
    (value : Float) (drawn : Mesh) :
    Exec.relocate move (range.run tolerance error body left done value drawn) =
      range.run tolerance error (fun value => (body value).relocate move) left done value
        drawn := by
  funext machine
  -- The rounds before have drawn the same and left the same machine, so only the next one counts.
  induction left generalizing done value drawn machine with
  | zero =>
    simp only [Exec.relocate, Range.run]
    split
    · exact congrArg (fun e => (Except.error e, machine)) unmoved
    · rfl
  | succ left ih =>
    by_cases reached : range.reaches tolerance value = true
    · simp only [Exec.relocate, Range.run, reached, if_true]
      cases round : body value machine with
      | mk result machine' =>
        cases result with
        | error e => rfl
        | ok mesh => exact ih _ _ _ machine'
    · simp only [Exec.relocate, Range.run, reached]
      rfl

theorem relocate_loop (range : Range) (settings : Settings) (counter : String)
    (body : Float → Exec Mesh) :
    (range.loop settings counter body).relocate move =
      range.loop settings counter fun value => (body value).relocate move := by
  have unmoved : settings.roundLimit.error.relocate move = settings.roundLimit.error := by
    unfold Settings.roundLimit
    split <;> rfl
  refine (relocate_bind move _ _).trans ?_
  exact congrArg (fun rounds : Exec (Nat × Mesh) => rounds >>= fun drawn => do
    Exec.note ⟨counter, drawn.1⟩
    return drawn.2) (relocate_run move range _ unmoved body _ _ _ _)

theorem relocate_head (settings : Settings) (head : Head) (block : Option (Exec Mesh)) :
    (head.relocate move).run settings (block.map (Exec.relocate move)) =
      (head.run settings block).relocate move := by
  have same : (head.relocate move).name = head.name := rfl
  unfold Head.run
  rw [same]
  cases Primitive.ofName? head.name with
  | none => rfl
  | some primitive =>
    cases primitive with
    | cube => exact (relocate_read move (cube_failsBy head) (·.relocate_eq move)).symm
    | cylinder =>
      exact (relocate_read move (cylinder_failsBy settings head) (·.relocate_eq move)).symm
    | union => cases block <;> rfl
    | translate =>
      cases block with
      | none => rfl
      | some act =>
        dsimp only [Option.map_some]
        rw [relocate_bind, relocate_read move (offset_failsBy head) (·.relocate_eq move)]
        refine congrArg (Exec.read head.offset >>= ·) (funext fun offset => ?_)
        rw [relocate_bind]
        rfl

mutual

theorem statement_relocate (settings : Settings) :
    ∀ s : Stmt, (s.relocate move).run settings = (s.run settings).relocate move
  | .assign name value => by
    rw [Stmt.relocate, Stmt.run, relocate_bind,
      relocate_read move (fun scope => eval_failsBy scope value) (·.relocate_eq move)]
    rfl
  | .loop counter start step finish body => by
    rw [Stmt.relocate, Stmt.run, Stmt.run, relocate_bind,
      relocate_read move (range_failsBy start step finish) (·.relocate_eq move)]
    refine congrArg (Exec.read (Range.eval start step finish) >>= ·) (funext fun range => ?_)
    rw [relocate_loop, statements_relocate settings body]
    rfl
  | .call head none => by
    rw [Stmt.relocate, Stmt.run, Stmt.run]
    exact relocate_head move settings head none
  | .call head (some block) => by
    rw [Stmt.relocate, Stmt.run, Stmt.run, statements_relocate settings block]
    exact relocate_head move settings head (some (Exec.inFrame [] (Stmt.runAll settings block)))

theorem statements_relocate (settings : Settings) :
    ∀ ss : List Stmt,
      Stmt.runAll settings (Stmt.relocateAll move ss) = (Stmt.runAll settings ss).relocate move
  | [] => by
    rw [Stmt.relocateAll, Stmt.runAll]
    rfl
  | s :: ss => by
    rw [Stmt.relocateAll, Stmt.runAll, Stmt.runAll, relocate_bind, statement_relocate settings s]
    refine congrArg ((s.run settings).relocate move >>= ·) (funext fun mesh => ?_)
    rw [relocate_bind, statements_relocate settings ss]
    rfl

end

end Proofs

end SolidScript
