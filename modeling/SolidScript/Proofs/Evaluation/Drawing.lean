import SolidScript.Evaluation.Statement
import SolidScript.Proofs.Results

namespace SolidScript.Proofs

theorem exec_bind_eq_ok {α β : Type} {x : Exec α} {f : α → Exec β} {machine : Machine} {b : β} :
    ((x >>= f) machine).1 = .ok b ↔
      ∃ a, (x machine).1 = .ok a ∧ (f a (x machine).2).1 = .ok b := by
  simp only [bind]
  cases ran : x machine with
  | mk result machine' => cases result <;> simp

theorem runAll_cons_of_nothing {settings : Settings} {s : Stmt} {machine machine' : Machine}
    (ran : s.run settings machine = (.ok [], machine')) (ss : List Stmt) :
    Stmt.runAll settings (s :: ss) machine = Stmt.runAll settings ss machine' := by
  rw [Stmt.runAll]
  simp only [bind, ran]
  cases rest : Stmt.runAll settings ss machine' with
  | mk result machine'' => cases result <;> rfl

structure KeptByDrawing (P : Mesh → Prop) : Prop where
  nil : P []
  append : ∀ mesh mesh', P mesh → P mesh' → P (mesh ++ mesh')
  shift : ∀ mesh offset, P mesh → P (mesh.map (·.shift offset))
  box : ∀ size centered, P (box size centered)
  cylinder : ∀ height radius segments centered, 3 ≤ segments →
    P (cylinder height radius segments centered)

def Draws (P : Mesh → Prop) (act : Exec Mesh) : Prop :=
  ∀ machine mesh, (act machine).1 = .ok mesh → P mesh

variable {P : Mesh → Prop}

theorem Draws.inFrame {act : Exec Mesh} (draws : Draws P act) (frame : Frame) :
    Draws P (Exec.inFrame frame act) :=
  fun _ mesh ran => draws _ mesh ran

theorem run_draws (kept : KeptByDrawing P) (range : Range) (tolerance : Float) (error : EvalError)
    {body : Float → Exec Mesh} (draws : ∀ value, Draws P (body value)) (left done : Nat)
    (value : Float) (drawn : Mesh) (before : P drawn.reverse) (machine : Machine) {rounds : Nat}
    {mesh : Mesh}
    (ran : (range.run tolerance error body left done value drawn machine).1 = .ok (rounds, mesh)) :
    P mesh := by
  induction left generalizing done value drawn machine with
  | zero =>
    unfold Range.run at ran
    split at ran
    · cases ran
    · cases ran
      exact before
  | succ left ih =>
    unfold Range.run at ran
    split at ran
    · dsimp only at ran
      cases round : body value machine with
      | mk result machine' =>
        rw [round] at ran
        cases result with
        | error e => cases ran
        | ok mesh' =>
          have next : P mesh' := draws value machine mesh' (by rw [round])
          refine ih _ _ _ ?_ machine' ran
          rw [List.reverseAux_eq, List.reverse_append, List.reverse_reverse]
          exact kept.append _ _ before next
    · cases ran
      exact before

theorem loop_draws (kept : KeptByDrawing P) (range : Range) (settings : Settings) (counter : String)
    {body : Float → Exec Mesh} (draws : ∀ value, Draws P (body value)) :
    Draws P (range.loop settings counter body) := by
  intro machine mesh ran
  obtain ⟨⟨rounds, mesh'⟩, rounds_ran, ran⟩ := exec_bind_eq_ok.mp ran
  obtain ⟨_, -, ran⟩ := exec_bind_eq_ok.mp ran
  cases ran
  exact run_draws kept range _ _ draws _ _ _ [] kept.nil machine rounds_ran

theorem three_le_segments (settings : Settings) (number : Float) :
    3 ≤ Head.segments settings number :=
  Nat.le_trans settings.three_le_min (Nat.le_max_left ..)

theorem cube_draws (kept : KeptByDrawing P) {head : Head} {scope : Scope} {mesh : Mesh}
    (drawn : head.cube scope = .ok mesh) : P mesh := by
  simp only [Head.cube, bind_eq_ok, pure_eq_ok] at drawn
  obtain ⟨_, -, _, -, size, -, centered, -, rfl⟩ := drawn
  exact kept.box size centered

theorem cylinder_draws (kept : KeptByDrawing P) {settings : Settings} {head : Head} {scope : Scope}
    {mesh : Mesh} (drawn : head.cylinder settings scope = .ok mesh) : P mesh := by
  simp only [Head.cylinder, bind_eq_ok, pure_eq_ok] at drawn
  obtain ⟨_, -, _, -, height, -, across, -, centered, -, count, -, _, -, rfl⟩ := drawn
  exact kept.cylinder _ _ _ _ (three_le_segments settings count)

theorem head_draws (kept : KeptByDrawing P) (settings : Settings) (head : Head)
    {block : Option (Exec Mesh)} (draws : ∀ act ∈ block, Draws P act) :
    Draws P (head.run settings block) := by
  intro machine mesh ran
  unfold Head.run at ran
  cases called : Primitive.ofName? head.name with
  | none =>
    rw [called] at ran
    cases ran
  | some primitive =>
    rw [called] at ran
    cases primitive with
    | cube => exact cube_draws kept ran
    | cylinder => exact cylinder_draws kept ran
    | union =>
      cases block with
      | none => cases ran
      | some act => exact draws act rfl machine mesh ran
    | translate =>
      cases block with
      | none => cases ran
      | some act =>
        obtain ⟨offset, -, ran⟩ := exec_bind_eq_ok.mp ran
        obtain ⟨mesh', inner, ran⟩ := exec_bind_eq_ok.mp ran
        cases ran
        exact kept.shift mesh' offset (draws act rfl _ mesh' inner)

mutual

theorem statement_draws (kept : KeptByDrawing P) (settings : Settings) :
    ∀ s : Stmt, Draws P (s.run settings)
  | .assign name value => by
    intro machine mesh ran
    obtain ⟨_, -, ran⟩ := exec_bind_eq_ok.mp ran
    obtain ⟨_, -, ran⟩ := exec_bind_eq_ok.mp ran
    cases ran
    exact kept.nil
  | .loop counter start step finish body => by
    intro machine mesh ran
    obtain ⟨range, -, ran⟩ := exec_bind_eq_ok.mp ran
    exact loop_draws kept range settings counter
      (fun _ => (statements_draw kept settings body).inFrame _) _ mesh ran
  | .call head none => head_draws kept settings head (by simp)
  | .call head (some block) => by
    refine head_draws kept settings head fun act member => ?_
    cases member
    exact (statements_draw kept settings block).inFrame []

theorem statements_draw (kept : KeptByDrawing P) (settings : Settings) :
    ∀ ss : List Stmt, Draws P (Stmt.runAll settings ss)
  | [] => by
    intro machine mesh ran
    cases ran
    exact kept.nil
  | s :: ss => by
    intro machine mesh ran
    obtain ⟨mesh', first, ran⟩ := exec_bind_eq_ok.mp ran
    obtain ⟨mesh'', rest, ran⟩ := exec_bind_eq_ok.mp ran
    cases ran
    exact kept.append _ _ (statement_draws kept settings s machine mesh' first)
      (statements_draw kept settings ss _ mesh'' rest)

end

theorem program_draws (kept : KeptByDrawing P) {program : Program} {settings : Settings}
    {params : Frame} {mesh : Mesh} (drawn : program.eval settings params = .ok mesh) : P mesh :=
  statements_draw kept settings program _ mesh drawn

end SolidScript.Proofs
