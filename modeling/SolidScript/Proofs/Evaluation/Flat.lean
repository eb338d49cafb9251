import SolidScript.Proofs.Evaluation.Names

/-!
# Evaluation in one flat map

A second evaluator that knows no frames. It hands one map of names from statement to statement; a
block or a round of a loop works on a copy of it, which is dropped. The machine with its frames has
the same outcome: the invariant is that its scope shows the map, and that a statement changes no
frame but the innermost.
-/

namespace SolidScript

namespace Flat

/-- The names that can be seen at one point of a program. -/
abbrev Env := Bindings Value

def rounds (range : Range) (tolerance : Float) (error : EvalError)
    (body : Float → Except EvalError Mesh) (left : Nat) (value : Float) : Except EvalError Mesh :=
  if range.reaches tolerance value then
    match left with
    | 0 => .error error
    | left + 1 => do
      let mesh ← body value
      let others ← rounds range tolerance error body left (value + range.step)
      return mesh ++ others
  else .ok []

def call (settings : Settings) (head : Head) (block : Option (Except EvalError Mesh)) (env : Env) :
    Except EvalError Mesh :=
  match Primitive.ofName? head.name, block with
  | none, _ => .error (.unsupportedCall head.name head.position)
  | some .cube, _ => head.cube (.root env)
  | some .cylinder, _ => head.cylinder settings (.root env)
  | some .union, none => .error (.missingArgument "union" "block")
  | some .union, some mesh => mesh
  | some .translate, none => .error (.missingArgument "translate" "block")
  | some .translate, some mesh => do
    let offset ← head.offset (.root env)
    return (← mesh).map (·.shift offset)

mutual

def run (settings : Settings) : Stmt → Env → Except EvalError (Mesh × Env)
  | .assign name value, env => do
    let value ← value.eval (.root env)
    return ([], env.set name value)
  | .loop counter start step finish body, env => do
    let range ← Range.eval start step finish (.root env)
    let limit := settings.roundLimit
    let mesh ← rounds range settings.loopTolerance limit.error
      (fun value => runAll settings body (env.set counter (.number value))) limit.rounds range.start
    return (mesh, env)
  | .call head none, env => do
    let mesh ← call settings head none env
    return (mesh, env)
  | .call head (some block), env => do
    let mesh ← call settings head (some (runAll settings block env)) env
    return (mesh, env)

def runAll (settings : Settings) : List Stmt → Env → Except EvalError Mesh
  | [], _ => .ok []
  | statement :: statements, env => do
    let (mesh, env) ← run settings statement env
    let others ← runAll settings statements env
    return mesh ++ others

end

def eval (program : Program) (settings : Settings) (params : Env) : Except EvalError Mesh :=
  runAll settings program params

end Flat

namespace Proofs
open Flat

variable {α β : Type}

/-! ## What a scope shows -/

def Shows (scope : Scope) (env : Env) : Prop := ∀ name, scope.get? name = env.get? name

theorem get?_enter (scope : Scope) (frame : Frame) (name : String) :
    (scope.enter frame).get? name = (frame.get? name).or (scope.get? name) := by
  simp only [Scope.get?, Scope.lookup, Scope.frames, Scope.enter, List.findSome?_cons]
  cases frame.get? name <;> rfl

theorem shows_root (env : Env) : Shows (.root env) env := by
  intro name
  simp only [Scope.get?, Scope.lookup, Scope.frames, Scope.root, List.findSome?_cons]
  cases env.get? name <;> rfl

variable {scope : Scope} {env : Env}

theorem Shows.set (shown : Shows scope env) (name : String) (value : Value) :
    Shows (scope.set name value) (env.set name value) := by
  intro other
  rw [Bindings.get?_set]
  by_cases same : other = name
  · rw [same, Scope.get?_set_self, if_pos rfl]
  · rw [Scope.get?_set_of_ne scope value same, if_neg same]
    exact shown other

theorem Shows.enter (shown : Shows scope env) : Shows (scope.enter []) env := by
  intro name
  rw [get?_enter]
  exact shown name

theorem Shows.enter_counter (shown : Shows scope env) (counter : String) (value : Value) :
    Shows (scope.enter [(counter, value)]) (env.set counter value) := by
  intro name
  rw [get?_enter, Bindings.get?_set, shown name]
  by_cases same : name = counter
  · simp [Bindings.get?, same]
  · simp [Bindings.get?, same, Ne.symm same]

theorem Shows.agree (shown : Shows scope env) (names : Finset String) :
    Agree names scope (.root env) :=
  fun name _ => (shown name).trans (shows_root env name).symm

/-! ## Computations -/

def Gives (scope : Scope) (act : Exec α) (result : Except EvalError α) (after : Scope → Prop) :
    Prop :=
  ∀ machine, machine.scope = scope →
    (act machine).1 = result ∧ ∀ a, result = .ok a → after (act machine).2.scope

abbrev Returns (scope : Scope) (act : Exec α) (result : Except EvalError α) : Prop :=
  Gives scope act result (· = scope)

theorem gives_bind {x : Exec α} {f : α → Exec β} {first : Except EvalError α}
    {next : α → Except EvalError β} {between after : Scope → Prop}
    (gives : Gives scope x first between)
    (later : ∀ a inner, first = .ok a → between inner → Gives inner (f a) (next a) after) :
    Gives scope (x >>= f) (first >>= next) after := by
  intro machine here
  obtain ⟨result, left⟩ := gives machine here
  simp only [bind]
  cases ran : x machine with
  | mk got machine' =>
    rw [ran] at result left
    dsimp only at result left
    subst result
    cases got with
    | error e => exact ⟨rfl, nofun⟩
    | ok a => exact later a machine'.scope rfl (left a rfl) machine' rfl

theorem returns_bind {x : Exec α} {f : α → Exec β} {first : Except EvalError α}
    {next : α → Except EvalError β} (returns : Returns scope x first)
    (later : ∀ a, Returns scope (f a) (next a)) : Returns scope (x >>= f) (first >>= next) := by
  refine gives_bind returns fun a inner _ kept => ?_
  rw [kept]
  exact later a

theorem returns_pure (a : α) : Returns scope (pure a) (.ok a) :=
  fun _ here => ⟨rfl, fun _ _ => here⟩

theorem returns_fail (e : EvalError) : Returns scope (Exec.fail e : Exec α) (.error e) :=
  fun _ _ => ⟨rfl, nofun⟩

theorem returns_read {f : Scope → Except EvalError α} {result : Except EvalError α}
    (same : f scope = result) : Returns scope (Exec.read f) result := by
  intro machine here
  rw [← here] at same ⊢
  exact ⟨same, fun _ _ => rfl⟩

theorem returns_inFrame {act : Exec α} {frame : Frame} {result : Except EvalError α}
    (gives : Gives (scope.enter frame) act result (·.outer = scope.frames)) :
    Returns scope (Exec.inFrame frame act) result := by
  intro machine here
  subst here
  obtain ⟨same, left⟩ := gives { machine with scope := machine.scope.enter frame } rfl
  refine ⟨same, fun a succeeded => ?_⟩
  change Scope.leave _ = machine.scope
  rw [Scope.leave, left a succeeded]
  rfl

/-! ## Loops -/

theorem run_rounds (range : Range) (tolerance : Float) (error : EvalError)
    {body : Float → Exec Mesh} {f : Float → Except EvalError Mesh}
    (returns : ∀ value, Returns scope (body value) (f value)) (left done : Nat) (value : Float)
    (drawn : Mesh) (machine : Machine) (here : machine.scope = scope) :
    ∃ count, (range.run tolerance error body left done value drawn machine).1 =
        (do return (count, drawn.reverse ++ (← rounds range tolerance error f left value))) ∧
      ∀ mesh, rounds range tolerance error f left value = .ok mesh →
        (range.run tolerance error body left done value drawn machine).2.scope = scope := by
  unfold Range.run rounds
  cases reached : range.reaches tolerance value with
  | false => exact ⟨done, by simp [pure, Except.pure], fun _ _ => here⟩
  | true =>
    cases left with
    | zero => exact ⟨done, rfl, nofun⟩
    | succ left =>
      obtain ⟨same, kept⟩ := returns value machine here
      simp only [if_true]
      cases round : body value machine with
      | mk got machine' =>
        rw [round] at same kept
        dsimp only at same kept ⊢
        rw [← same] at kept ⊢
        cases got with
        | error e => exact ⟨done, rfl, nofun⟩
        | ok mesh =>
          -- What was drawn before is kept in reverse, so this round goes in front of it.
          obtain ⟨count, same, later⟩ := run_rounds range tolerance error returns left (done + 1)
            (value + range.step) (mesh.reverseAux drawn) machine' (kept mesh rfl)
          refine ⟨count, ?_, fun whole succeeded => ?_⟩
          · dsimp only
            rw [same]
            cases rounds range tolerance error f left (value + range.step) with
            | error e => rfl
            | ok others => simp [List.reverseAux_eq]
          · rw [ok_bind] at succeeded
            obtain ⟨others, rest, -⟩ := bind_eq_ok.mp succeeded
            exact later others rest

theorem loop_returns (range : Range) (settings : Settings) (counter : String)
    {body : Float → Exec Mesh} {f : Float → Except EvalError Mesh}
    (returns : ∀ value, Returns scope (body value) (f value)) :
    Returns scope (range.loop settings counter body)
      (rounds range settings.loopTolerance settings.roundLimit.error f settings.roundLimit.rounds
        range.start) := by
  intro machine here
  obtain ⟨count, same, kept⟩ := run_rounds range settings.loopTolerance settings.roundLimit.error
    returns settings.roundLimit.rounds 0 range.start [] machine here
  simp only [Range.loop, bind]
  generalize range.run settings.loopTolerance settings.roundLimit.error body
    settings.roundLimit.rounds 0 range.start [] machine = ran at same kept ⊢
  obtain ⟨got, machine'⟩ := ran
  dsimp only at same kept
  subst same
  cases drawn : rounds range settings.loopTolerance settings.roundLimit.error f
      settings.roundLimit.rounds range.start with
  | error e => exact ⟨rfl, nofun⟩
  | ok mesh => exact ⟨rfl, fun _ _ => kept mesh drawn⟩

/-! ## Calls -/

theorem head_returns (shown : Shows scope env) (settings : Settings) (head : Head)
    {block : Option (Exec Mesh)} {result : Except EvalError Mesh}
    (returns : ∀ act ∈ block, Returns scope act result) :
    Returns scope (head.run settings block)
      (call settings head (block.map fun _ => result) env) := by
  unfold Head.run call
  cases Primitive.ofName? head.name with
  | none => exact returns_fail _
  | some primitive =>
    cases primitive with
    | cube => exact returns_read (cube_agree (shown.agree _))
    | cylinder => exact returns_read (cylinder_agree settings (shown.agree _))
    | union =>
      cases block with
      | none => exact returns_fail _
      | some act => exact returns act rfl
    | translate =>
      cases block with
      | none => exact returns_fail _
      | some act =>
        refine returns_bind (returns_read (offset_agree (shown.agree _))) fun offset => ?_
        exact returns_bind (returns act rfl) fun mesh => returns_pure _

/-! ## Statements -/

/-- The computation does what the flat evaluator says of a statement: it has the same outcome, and
if it succeeds, its scope shows the new map and has the same frames around the innermost. -/
def Follows (scope : Scope) (act : Exec Mesh) (result : Except EvalError (Mesh × Env)) : Prop :=
  Gives scope act (do return (← result).1) fun after =>
    ∀ mesh env, result = .ok (mesh, env) → Shows after env ∧ after.outer = scope.outer

theorem follows_of_returns (shown : Shows scope env) {act : Exec Mesh}
    {result : Except EvalError Mesh} (returns : Returns scope act result) :
    Follows scope act (do return (← result, env)) := by
  intro machine here
  obtain ⟨same, kept⟩ := returns machine here
  cases result with
  | error e => exact ⟨same, nofun⟩
  | ok mesh =>
    refine ⟨same, fun _ _ _ _ succeeded => ?_⟩
    cases succeeded
    rw [kept mesh rfl]
    exact ⟨shown, rfl⟩

theorem follows_bind {x : Exec Mesh} {f : Mesh → Exec α} {result : Except EvalError (Mesh × Env)}
    {next : Mesh × Env → Except EvalError α} {after : Scope → Prop}
    (follows : Follows scope x result)
    (later : ∀ mesh env inner, Shows inner env → inner.outer = scope.outer →
      Gives inner (f mesh) (next (mesh, env)) after) :
    Gives scope (x >>= f) (result >>= next) after := by
  cases result with
  | error e => exact @gives_bind _ _ _ _ _ (.error e) (fun _ => .error e) _ _ follows nofun
  | ok pair =>
    obtain ⟨mesh, env⟩ := pair
    refine @gives_bind _ _ _ _ _ (.ok mesh) (fun mesh => next (mesh, env)) _ _ follows ?_
    intro _ inner first left
    cases first
    obtain ⟨shown, outer⟩ := left mesh env rfl
    exact later mesh env inner shown outer

mutual

theorem statement_follows (settings : Settings) : ∀ (s : Stmt) {scope : Scope} {env : Env},
    Shows scope env → Follows scope (s.run settings) (run settings s env)
  | .assign name value, scope, env, shown => by
    intro machine here
    subst here
    rw [Stmt.run, run, ← eval_agree value (shown.agree _)]
    simp only [bind, Exec.read]
    cases value.eval machine.scope with
    | error e => exact ⟨rfl, nofun⟩
    | ok v =>
      refine ⟨rfl, fun _ _ _ _ succeeded => ?_⟩
      cases succeeded
      exact ⟨shown.set name v, rfl⟩
  | .loop counter start step finish body, scope, env, shown => by
    have round (value : Float) : Returns scope
        (Exec.inFrame [(counter, .number value)] (Stmt.runAll settings body))
        (runAll settings body (env.set counter (.number value))) :=
      returns_inFrame (statements_give settings body (shown.enter_counter counter _))
    have same := range_agree (shown.agree (Range.names start step finish))
    have returns := returns_bind (returns_read same) fun range =>
      loop_returns range settings counter round
    have follows := follows_of_returns shown returns
    rw [Stmt.run, run]
    simpa using follows
  | .call head none, scope, env, shown => by
    have returns := @head_returns _ _ shown settings head none (.ok []) nofun
    rw [Stmt.run, run]
    exact follows_of_returns shown returns
  | .call head (some block), scope, env, shown => by
    have inner := returns_inFrame (statements_give settings block shown.enter)
    have returns := @head_returns _ _ shown settings head (some _) _ fun act member => by
      cases member
      exact inner
    rw [Stmt.run, run]
    exact follows_of_returns shown returns

theorem statements_give (settings : Settings) : ∀ (ss : List Stmt) {scope : Scope} {env : Env},
    Shows scope env →
      Gives scope (Stmt.runAll settings ss) (runAll settings ss env) (·.outer = scope.outer)
  | [], scope, env, shown => by
    intro machine here
    subst here
    rw [Stmt.runAll, runAll]
    exact ⟨rfl, fun _ _ => rfl⟩
  | s :: ss, scope, env, shown => by
    have follows := statement_follows settings s shown
    rw [Stmt.runAll, runAll]
    refine follows_bind follows fun mesh env' inner shown' outer => ?_
    refine gives_bind (statements_give settings ss shown') fun others last _ outer' => ?_
    rw [outer] at outer'
    exact fun machine here => ⟨rfl, fun _ _ => here ▸ outer'⟩

end

theorem program_eval_eq_flat (program : Program) (settings : Settings) (params : Frame) :
    program.eval settings params = Flat.eval program settings params :=
  (statements_give settings program (shows_root params) _ rfl).1

theorem flat_eval_union (program : Program) (settings : Settings) (params : Frame) (p : Position) :
    Flat.eval [.call ⟨"union", [], [], p⟩ (some program)] settings params =
      Flat.eval program settings params := by
  have union : Primitive.ofName? "union" = some .union := rfl
  simp only [Flat.eval, runAll, run, call, union]
  cases runAll settings program params with
  | error e => rfl
  | ok mesh => simp

/-- Frames refine one flat map: a program has the outcome of the flat evaluator, triangle by
triangle or error by error. So all its statements may as well stand in the block of one union. -/
theorem frames_refine_flat_map (program : Program) (settings : Settings) (params : Frame) :
    program.eval settings params = Flat.eval program settings params ∧
      ∀ p, Program.eval [.call ⟨"union", [], [], p⟩ (some program)] settings params =
        program.eval settings params := by
  refine ⟨program_eval_eq_flat program settings params, fun p => ?_⟩
  rw [program_eval_eq_flat, program_eval_eq_flat, flat_eval_union]

end Proofs

end SolidScript
