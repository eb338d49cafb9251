import SolidScript.Evaluation.Statement
import SolidScript.Proofs.Bindings

namespace SolidScript

/-- Run statements one after the other, also after one that fails. -/
def Stmt.runEach (settings : Settings) (ss : List Stmt) (machine : Machine) : Machine :=
  ss.foldl (fun machine s => (s.run settings machine).2) machine

/-- What the assignments among some statements bind, if each is evaluated in the frame that those
before it leave. -/
def Frame.assigned (frame : Frame) : List Stmt → List (String × Value)
  | [] => []
  | .assign name e :: ss =>
    match e.eval (.root frame) with
    | .ok value => (name, value) :: Frame.assigned (frame.set name value) ss
    | .error _ => frame.assigned ss
  | .loop .. :: ss => frame.assigned ss
  | .call .. :: ss => frame.assigned ss

namespace Proofs

def Keeps {α β : Type} (view : Scope → β) (act : Exec α) : Prop :=
  ∀ machine, view (act machine).2.scope = view machine.scope

section
variable {α β γ : Type} {view : Scope → γ}

theorem Keeps.of_scope {act : Exec α} (keeps : Keeps id act) (view : Scope → γ) : Keeps view act :=
  fun machine => congrArg view (keeps machine)

theorem keeps_pure (a : α) : Keeps view (pure a : Exec α) := fun _ => rfl

theorem keeps_fail (e : EvalError) : Keeps view (Exec.fail e : Exec α) := fun _ => rfl

theorem keeps_read (f : Scope → Except EvalError α) : Keeps view (Exec.read f) := fun _ => rfl

theorem keeps_note (entry : LoopNote) : Keeps view (Exec.note entry) := fun _ => rfl

theorem Keeps.bind {x : Exec α} {f : α → Exec β} (keeps : Keeps view x)
    (later : ∀ a, Keeps view (f a)) : Keeps view (x >>= f) := by
  intro machine
  have first := keeps machine
  simp only [Bind.bind]
  cases ran : x machine with
  | mk result after =>
    rw [ran] at first
    cases result with
    | error e => exact first
    | ok a => exact (later a after).trans first

theorem Keeps.inFrame {act : Exec α} (keeps : Keeps Scope.outer act) (frame : Frame) :
    Keeps id (Exec.inFrame frame act) := by
  intro machine
  have outer := keeps { machine with scope := machine.scope.enter frame }
  change Scope.leave _ = machine.scope
  rw [Scope.leave, outer]
  rfl

end

theorem range_run_keeps (range : Range) (tolerance : Float) (error : EvalError)
    {body : Float → Exec Mesh} (keeps : ∀ value, Keeps id (body value)) (left done : Nat)
    (value : Float) (drawn : Mesh) :
    Keeps id (range.run tolerance error body left done value drawn : Exec (Nat × Mesh)) := by
  induction left generalizing done value drawn with
  | zero =>
    intro machine
    unfold Range.run
    split <;> rfl
  | succ left ih =>
    intro machine
    have round := keeps value machine
    unfold Range.run
    split
    · dsimp only
      cases ran : body value machine with
      | mk result after =>
        rw [ran] at round
        cases result with
        | error e => exact round
        | ok mesh => exact (ih (done + 1) _ (mesh.reverseAux drawn) after).trans round
    · rfl

section
variable {settings : Settings} {ss : List Stmt}
  (keeps : Keeps Scope.outer (Stmt.runAll settings ss))
include keeps

theorem loop_keeps (counter : String) (start : Expr) (step : Option Expr) (finish : Expr) :
    Keeps id ((Stmt.loop counter start step finish ss).run settings) := by
  rw [Stmt.run]
  refine (keeps_read _).bind fun range => ?_
  refine Keeps.bind ?_ ?_
  · exact range_run_keeps range _ _ (fun value => keeps.inFrame _) _ _ _ _
  · rintro ⟨rounds, mesh⟩
    exact (keeps_note _).bind fun _ => keeps_pure _

theorem call_keeps (head : Head) : Keeps id ((Stmt.call head (some ss)).run settings) := by
  have block := keeps.inFrame []
  rw [Stmt.run, Head.run]
  cases Primitive.ofName? head.name with
  | none => exact keeps_fail _
  | some primitive =>
    cases primitive with
    | union => exact block
    | translate => exact (keeps_read _).bind fun offset => block.bind fun mesh => keeps_pure _
    | cube | cylinder => exact keeps_read _

end

theorem call_keeps_of_no_block (settings : Settings) (head : Head) :
    Keeps id ((Stmt.call head none).run settings) := by
  rw [Stmt.run, Head.run]
  cases Primitive.ofName? head.name with
  | none => exact keeps_fail _
  | some primitive =>
    cases primitive with
    | union | translate => exact keeps_fail _
    | cube | cylinder => exact keeps_read _

theorem assign_run_eq (settings : Settings) (name : String) (e : Expr) (machine : Machine) :
    (Stmt.assign name e).run settings machine =
      match e.eval machine.scope with
      | .ok value => (.ok [], { machine with scope := machine.scope.set name value })
      | .error error => (.error error, machine) := by
  rw [Stmt.run]
  simp only [Bind.bind, Exec.read]
  cases e.eval machine.scope <;> rfl

mutual

theorem statement_keeps_outer (settings : Settings) : ∀ s : Stmt, Keeps Scope.outer (s.run settings)
  | .assign name e => by
    intro machine
    rw [assign_run_eq]
    cases e.eval machine.scope <;> rfl
  | .loop counter start step finish body =>
    (loop_keeps (statements_keep_outer settings body) counter start step finish).of_scope _
  | .call head none => (call_keeps_of_no_block settings head).of_scope _
  | .call head (some block) => (call_keeps (statements_keep_outer settings block) head).of_scope _

theorem statements_keep_outer (settings : Settings) :
    ∀ ss : List Stmt, Keeps Scope.outer (Stmt.runAll settings ss)
  | [] => by
    rw [Stmt.runAll]
    exact keeps_pure _
  | s :: ss => by
    rw [Stmt.runAll]
    refine (statement_keeps_outer settings s).bind fun mesh => ?_
    exact (statements_keep_outer settings ss).bind fun rest => keeps_pure _

end

theorem loop_keeps_scope (settings : Settings) (counter : String) (start : Expr)
    (step : Option Expr) (finish : Expr) (body : List Stmt) :
    Keeps id ((Stmt.loop counter start step finish body).run settings) :=
  loop_keeps (statements_keep_outer settings body) counter start step finish

theorem call_keeps_scope (settings : Settings) (head : Head) (block : Option (List Stmt)) :
    Keeps id ((Stmt.call head block).run settings) := by
  cases block with
  | none => exact call_keeps_of_no_block settings head
  | some block => exact call_keeps (statements_keep_outer settings block) head

theorem runEach_scope (settings : Settings) (ss : List Stmt) {machine : Machine} {frame : Frame}
    (here : machine.scope = .root frame) :
    (Stmt.runEach settings ss machine).scope =
      .root ((frame.assigned ss).foldl (fun b entry => Bindings.set b entry.1 entry.2) frame) := by
  induction ss generalizing machine frame with
  | nil => exact here
  | cons s ss ih =>
    rw [Stmt.runEach, List.foldl_cons, ← Stmt.runEach]
    cases s with
    | loop counter start step finish body =>
      exact ih ((loop_keeps_scope settings counter start step finish body machine).trans here)
    | call head block => exact ih ((call_keeps_scope settings head block machine).trans here)
    | assign name e =>
      rw [assign_run_eq, Frame.assigned, here]
      cases e.eval (.root frame) with
      | error error => exact ih here
      | ok value => exact @ih _ (frame.set name value) rfl

/-- A loop and a call leave the whole scope as it was, also if they fail. An assignment binds its
name in the innermost frame and changes nothing else, and nothing at all if it fails. So the root
frame after a row of statements, of which some may have failed, has the parameters and over them
what the assignments have bound, the last one first. -/
theorem scope_effect_exact (settings : Settings) :
    (∀ counter start step finish body machine,
      ((Stmt.loop counter start step finish body).run settings machine).2.scope = machine.scope) ∧
    (∀ head block machine,
      ((Stmt.call head block).run settings machine).2.scope = machine.scope) ∧
    (∀ name e machine,
      match e.eval machine.scope, (Stmt.assign name e).run settings machine with
      | .ok value, (result, after) =>
        result = .ok [] ∧ after.scope.outer = machine.scope.outer ∧
        ∀ other, after.scope.inner.get? other =
          if other = name then some value else machine.scope.inner.get? other
      | .error error, (result, after) => result = .error error ∧ after = machine) ∧
    ∀ statements params, ∃ frame,
      (Stmt.runEach settings statements { scope := .root params }).scope = .root frame ∧
      ∀ name, frame.get? name =
        ((params.assigned statements).reverse.lookup name).or (params.get? name) := by
  refine ⟨?_, ?_, ?_, ?_⟩
  · intro counter start step finish body machine
    exact loop_keeps_scope settings counter start step finish body machine
  · intro head block machine
    exact call_keeps_scope settings head block machine
  · intro name e machine
    rw [assign_run_eq]
    cases e.eval machine.scope with
    | error error => exact ⟨rfl, rfl⟩
    | ok value => exact ⟨rfl, rfl, fun other => Bindings.get?_set _ name other value⟩
  · intro statements params
    exact ⟨_, runEach_scope settings statements rfl, Bindings.get?_foldl_set _ params⟩

end Proofs

end SolidScript
