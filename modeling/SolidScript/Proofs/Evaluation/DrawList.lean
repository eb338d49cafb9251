import SolidScript.Proofs.Evaluation.Drawing
import SolidScript.Proofs.Evaluation.Flat
import SolidScript.Proofs.Number.Finite

/-!
# The draw list of a program

What a program draws, told as a list: one entry for each call of a primitive solid in the order of
execution, with the measures that its arguments had there and the offsets of the moves around it.
The list is collected from the outside in, with the offsets on a stack, while the evaluator moves
whole meshes on its way out. So the induction is over programs with any stack: what is drawn, moved
by the stack, is the meshes of the list one after the other.
-/

namespace SolidScript

inductive Solid where
  | box (size : Vertex Float) (centered : Bool)
  | cylinder (height radius : Float) (segments : Nat) (round : 3 ≤ segments) (centered : Bool)

namespace Solid

def mesh : Solid → Mesh
  | .box size centered => SolidScript.box size centered
  | .cylinder height radius segments _ centered =>
    SolidScript.cylinder height radius segments centered

def isBox : Solid → Bool
  | .box .. => true
  | .cylinder .. => false

def segments? : Solid → Option Nat
  | .box .. => none
  | .cylinder _ _ segments _ _ => some segments

end Solid

/-- A solid that was drawn, and the offsets of the moves around it, the innermost first. -/
structure Drawn where
  solid : Solid
  offsets : List (Vertex Float)

def Drawn.mesh (drawn : Drawn) : Mesh :=
  drawn.solid.mesh.map fun t => drawn.offsets.foldl Triangle.shift t

namespace Flat

/-! ## Execution -/

section
variable (settings : Settings) (env : Env) (head : Head)

inductive Radius : Float → Prop where
  | radius {e : Expr} {r : Float} (given : head.named.get? "r" = some e)
    (value : e.evalNumber (.root env) = .ok r) : Radius r
  | diameter {e : Expr} {d : Float} (noRadius : head.named.get? "r" = none)
    (given : head.named.get? "d" = some e) (value : e.evalNumber (.root env) = .ok d) :
    Radius (d / 2)

inductive SegmentNumber : Float → Prop where
  | given {e : Expr} {n : Float} (given : head.named.get? "$fn" = some e)
    (value : e.evalNumber (.root env) = .ok n) : SegmentNumber n
  | default {n : Float} (absent : head.named.get? "$fn" = none)
    (value : (Value.number settings.defaultSegments.toFloat).asNumber = .ok n) : SegmentNumber n

/-- The solid that a call stands for where the names have these values. The segments of a cylinder
are its number rounded half upward, but no fewer than the minimum. -/
inductive StandsFor : Solid → Prop where
  | box {e : Expr} {value : Value} {size : Vertex Float} {centered : Bool}
    (called : Primitive.ofName? head.name = some .cube) (given : head.namedOrFirst? "size" = some e)
    (evaluated : e.eval (.root env) = .ok value) (triple : value.asVertex = .ok size)
    (flag : head.flag "center" (.root env) = .ok centered) : StandsFor (.box size centered)
  | cylinder {e : Expr} {height radius number : Float} {centered : Bool} {k : Int} {segments : Nat}
    (called : Primitive.ofName? head.name = some .cylinder)
    (given : head.namedOrFirst? "h" = some e)
    (evaluated : e.evalNumber (.root env) = .ok height) (wide : Radius env head radius)
    (flag : head.flag "center" (.root env) = .ok centered)
    (count : SegmentNumber settings env head number)
    (floor : Number.floor? (number + 0.5) = some k)
    (rounded : (segments : Int) = max (settings.minSegments : Int) k) (round : 3 ≤ segments) :
    StandsFor (.cylinder height radius segments round centered)

end

mutual

/-- A statement draws a list inside moves by some offsets and leaves a map for what follows. -/
inductive Executes (settings : Settings) :
    List (Vertex Float) → Env → Stmt → List Drawn → Env → Prop where
  | assign {offsets : List (Vertex Float)} {env : Env} {name : String} {e : Expr} {value : Value}
    (evaluated : e.eval (.root env) = .ok value) :
    Executes settings offsets env (.assign name e) [] (env.set name value)
  | loop {offsets : List (Vertex Float)} {env : Env} {counter : String} {start finish : Expr}
    {step : Option Expr} {body : List Stmt} {range : Range} {list : List Drawn}
    (evaluated : Range.eval start step finish (.root env) = .ok range)
    (rounds : Rounds settings offsets env counter body range settings.roundLimit.rounds range.start
      list) :
    Executes settings offsets env (.loop counter start step finish body) list env
  | solid {offsets : List (Vertex Float)} {env : Env} {head : Head} {solid : Solid}
    (block : Option (List Stmt)) (stands : StandsFor settings env head solid) :
    Executes settings offsets env (.call head block) [⟨solid, offsets⟩] env
  | union {offsets : List (Vertex Float)} {env : Env} {head : Head} {block : List Stmt}
    {list : List Drawn} (called : Primitive.ofName? head.name = some .union)
    (inner : ExecutesAll settings offsets env block list) :
    Executes settings offsets env (.call head (some block)) list env
  | translate {offsets : List (Vertex Float)} {env : Env} {head : Head} {block : List Stmt}
    {offset : Vertex Float} {list : List Drawn}
    (called : Primitive.ofName? head.name = some .translate)
    (moved : head.offset (.root env) = .ok offset)
    (inner : ExecutesAll settings (offset :: offsets) env block list) :
    Executes settings offsets env (.call head (some block)) list env

inductive ExecutesAll (settings : Settings) :
    List (Vertex Float) → Env → List Stmt → List Drawn → Prop where
  | nil (offsets : List (Vertex Float)) (env : Env) : ExecutesAll settings offsets env [] []
  | cons {offsets : List (Vertex Float)} {env env' : Env} {s : Stmt} {ss : List Stmt}
    {list others : List Drawn} (first : Executes settings offsets env s list env')
    (later : ExecutesAll settings offsets env' ss others) :
    ExecutesAll settings offsets env (s :: ss) (list ++ others)

inductive Rounds (settings : Settings) : List (Vertex Float) → Env → String → List Stmt → Range →
    Nat → Float → List Drawn → Prop where
  | past {offsets : List (Vertex Float)} {env : Env} {counter : String} {body : List Stmt}
    {range : Range} (left : Nat) {value : Float}
    (past : range.reaches settings.loopTolerance value = false) :
    Rounds settings offsets env counter body range left value []
  | round {offsets : List (Vertex Float)} {env : Env} {counter : String} {body : List Stmt}
    {range : Range} {left : Nat} {value : Float} {list others : List Drawn}
    (reached : range.reaches settings.loopTolerance value = true)
    (inner : ExecutesAll settings offsets (env.set counter (.number value)) body list)
    (later : Rounds settings offsets env counter body range left (value + range.step) others) :
    Rounds settings offsets env counter body range (left + 1) value (list ++ others)

end

end Flat

namespace Proofs
open Flat

variable {settings : Settings} {env : Env} {head : Head}

/-! ## Moves -/

def moved (offsets : List (Vertex Float)) (mesh : Mesh) : Mesh :=
  mesh.map fun t => offsets.foldl Triangle.shift t

theorem moved_nil (mesh : Mesh) : moved [] mesh = mesh := List.map_id mesh

theorem moved_cons (offset : Vertex Float) (offsets : List (Vertex Float)) (mesh : Mesh) :
    moved (offset :: offsets) mesh = moved offsets (mesh.map (·.shift offset)) := by
  rw [moved, moved, List.map_map]
  rfl

theorem moved_append (offsets : List (Vertex Float)) (mesh mesh' : Mesh) :
    moved offsets (mesh ++ mesh') = moved offsets mesh ++ moved offsets mesh' := List.map_append

/-! ## Calls -/

theorem asNumber_finite {v : Value} {x : Float} (number : v.asNumber = .ok x) :
    x.isFinite = true := by
  cases v with
  | number y =>
    by_cases finite : y.isFinite = true
    · simp only [Value.asNumber, Value.toNumber?, finite, if_true] at number
      cases number
      exact finite
    · simp [Value.asNumber, Value.toNumber?, finite] at number
  | boolean b => cases b <;> cases number <;> rfl
  | vector items => cases number

theorem segmentNumber_finite {number : Float} (count : SegmentNumber settings env head number) :
    number.isFinite = true := by
  cases count with
  | given _ value =>
    obtain ⟨v, _, number⟩ := bind_eq_ok.mp value
    exact asNumber_finite number
  | default _ value => exact asNumber_finite value

theorem segments_eq_iff {number : Float} {k : Int} (floor : Number.floor? (number + 0.5) = some k)
    {segments : Nat} : (segments : Int) = max (settings.minSegments : Int) k ↔
      segments = Head.segments settings number := by
  rw [Head.segments, floor, Option.getD_some]
  omega

theorem standsFor_cylinder {e : Expr} {height radius number : Float} {centered : Bool}
    (called : Primitive.ofName? head.name = some .cylinder)
    (given : head.namedOrFirst? "h" = some e) (evaluated : e.evalNumber (.root env) = .ok height)
    (wide : Radius env head radius) (flag : head.flag "center" (.root env) = .ok centered)
    (count : SegmentNumber settings env head number) :
    StandsFor settings env head (.cylinder height radius (Head.segments settings number)
      (three_le_segments settings number) centered) := by
  obtain ⟨k, floor⟩ := floor?_add_half (segmentNumber_finite count)
  exact .cylinder called given evaluated wide flag count floor ((segments_eq_iff floor).mpr rfl) _

theorem cube_eq_ok_iff (called : Primitive.ofName? head.name = some .cube) {mesh : Mesh} :
    head.cube (.root env) = .ok mesh ↔
      ∃ solid, StandsFor settings env head solid ∧ solid.mesh = mesh := by
  constructor
  · intro drawn
    simp only [Head.cube, bind_eq_ok, pure_eq_ok, require_eq_ok_iff] at drawn
    obtain ⟨e, given, value, evaluated, size, triple, centered, flag, rfl⟩ := drawn
    exact ⟨_, .box called given evaluated triple flag, rfl⟩
  · rintro ⟨solid, stands, rfl⟩
    cases stands with
    | box _ given evaluated triple flag =>
      simp [Head.cube, Head.require, given, evaluated, triple, flag, Solid.mesh, pure, Except.pure]
    | cylinder other => rw [called] at other; cases other

theorem segmentNumber_eq_ok {number : Float}
    (counted : head.segmentNumber settings (.root env) = .ok number) :
    SegmentNumber settings env head number := by
  unfold Head.segmentNumber at counted
  cases named : head.named.get? "$fn" with
  | some e =>
    rw [named] at counted
    exact .given named counted
  | none =>
    rw [named] at counted
    obtain ⟨count, held, counted⟩ := bind_eq_ok.mp counted
    unfold Head.countAsNumber at held
    split at held
    · cases held
      exact .default named counted
    · cases held

theorem cylinder_eq_ok (called : Primitive.ofName? head.name = some .cylinder) {mesh : Mesh}
    (drawn : head.cylinder settings (.root env) = .ok mesh) :
    ∃ solid, StandsFor settings env head solid ∧ solid.mesh = mesh := by
  simp only [Head.cylinder, bind_eq_ok, pure_eq_ok, require_eq_ok_iff] at drawn
  obtain ⟨e, given, wide, across, height, evaluated, measure, measured, centered, flag, number,
    counted, _, _, rfl⟩ := drawn
  have radius : Radius env head
      (if (head.named.get? "r").isSome then measure else measure / 2) := by
    cases named : head.named.get? "r" with
    | some e' =>
      rw [named] at across
      cases across
      exact .radius named measured
    | none =>
      rw [named] at across
      exact .diameter named across measured
  have count := segmentNumber_eq_ok counted
  exact ⟨_, standsFor_cylinder called given evaluated radius flag count, rfl⟩

/-! ## Every run has a draw list -/

theorem moved_solid (offsets : List (Vertex Float)) (solid : Solid) :
    moved offsets solid.mesh = [Drawn.mk solid offsets].flatMap Drawn.mesh := by
  rw [List.flatMap_singleton]
  rfl

theorem call_drawn {block : Option (List Stmt)} {mesh : Mesh}
    (inner : ∀ body ∈ block, ∀ mesh, runAll settings body env = .ok mesh → ∀ offsets, ∃ list,
      ExecutesAll settings offsets env body list ∧ moved offsets mesh = list.flatMap Drawn.mesh)
    (ran : call settings head (block.map fun body => runAll settings body env) env = .ok mesh)
    (offsets : List (Vertex Float)) :
    ∃ list, Executes settings offsets env (.call head block) list env ∧
      moved offsets mesh = list.flatMap Drawn.mesh := by
  unfold call at ran
  cases called : Primitive.ofName? head.name with
  | none => rw [called] at ran; cases ran
  | some primitive =>
    rw [called] at ran
    cases primitive with
    | cube =>
      obtain ⟨solid, stands, rfl⟩ := (cube_eq_ok_iff called).mp ran
      exact ⟨_, .solid block stands, moved_solid offsets solid⟩
    | cylinder =>
      obtain ⟨solid, stands, rfl⟩ := cylinder_eq_ok called ran
      exact ⟨_, .solid block stands, moved_solid offsets solid⟩
    | union =>
      cases block with
      | none => cases ran
      | some body =>
        obtain ⟨list, executes, same⟩ := inner body rfl mesh ran offsets
        exact ⟨list, .union called executes, same⟩
    | translate =>
      cases block with
      | none => cases ran
      | some body =>
        simp only [Option.map_some, bind_eq_ok, pure_eq_ok] at ran
        obtain ⟨offset, given, mesh, drawn, rfl⟩ := ran
        -- The offset goes on the stack before the block is drawn.
        obtain ⟨list, executes, same⟩ := inner body rfl mesh drawn (offset :: offsets)
        refine ⟨list, .translate called given executes, ?_⟩
        rw [← moved_cons]
        exact same

theorem rounds_drawn {range : Range} {counter : String} {body : List Stmt}
    {offsets : List (Vertex Float)}
    (drawn : ∀ value mesh, runAll settings body (env.set counter (.number value)) = .ok mesh →
      ∃ list, ExecutesAll settings offsets (env.set counter (.number value)) body list ∧
        moved offsets mesh = list.flatMap Drawn.mesh)
    {error : EvalError} (left : Nat) {value : Float} {mesh : Mesh}
    (ran : rounds range settings.loopTolerance error
      (fun value => runAll settings body (env.set counter (.number value))) left value = .ok mesh) :
    ∃ list, Rounds settings offsets env counter body range left value list ∧
      moved offsets mesh = list.flatMap Drawn.mesh := by
  induction left generalizing value mesh with
  | zero =>
    unfold rounds at ran
    cases reached : range.reaches settings.loopTolerance value with
    | false =>
      rw [reached] at ran
      cases ran
      exact ⟨[], .past 0 reached, rfl⟩
    | true =>
      rw [reached] at ran
      cases ran
  | succ left ih =>
    unfold rounds at ran
    cases reached : range.reaches settings.loopTolerance value with
    | false =>
      rw [reached] at ran
      cases ran
      exact ⟨[], .past (left + 1) reached, rfl⟩
    | true =>
      simp only [reached, if_true, bind_eq_ok, pure_eq_ok] at ran
      obtain ⟨first, inner, others, later, rfl⟩ := ran
      obtain ⟨list, draws, same⟩ := drawn value first inner
      obtain ⟨list', draws', same'⟩ := ih later
      refine ⟨list ++ list', .round reached draws draws', ?_⟩
      rw [moved_append, same, same', List.flatMap_append]

mutual

theorem run_drawn : ∀ (s : Stmt) {env env' : Env} {mesh : Mesh},
    run settings s env = .ok (mesh, env') → ∀ offsets, ∃ list,
      Executes settings offsets env s list env' ∧ moved offsets mesh = list.flatMap Drawn.mesh
  | .assign name value, env, env', mesh, ran, offsets => by
    simp only [run, bind_eq_ok, pure_eq_ok, Prod.mk.injEq] at ran
    obtain ⟨v, evaluated, rfl, rfl⟩ := ran
    exact ⟨[], .assign evaluated, rfl⟩
  | .loop counter start step finish body, env, env', mesh, ran, offsets => by
    simp only [run, bind_eq_ok, pure_eq_ok, Prod.mk.injEq] at ran
    obtain ⟨range, evaluated, _, ran, rfl, rfl⟩ := ran
    obtain ⟨list, draws, same⟩ := rounds_drawn
      (fun value mesh inner => runAll_drawn body inner offsets) _ ran
    exact ⟨list, .loop evaluated draws, same⟩
  | .call head none, env, env', mesh, ran, offsets => by
    simp only [run, bind_eq_ok, pure_eq_ok, Prod.mk.injEq] at ran
    obtain ⟨_, ran, rfl, rfl⟩ := ran
    exact @call_drawn _ _ _ none _ nofun ran offsets
  | .call head (some block), env, env', mesh, ran, offsets => by
    simp only [run, bind_eq_ok, pure_eq_ok, Prod.mk.injEq] at ran
    obtain ⟨_, ran, rfl, rfl⟩ := ran
    refine @call_drawn _ _ _ (some block) _ (fun body member _ drawn => ?_) ran offsets
    cases member
    exact runAll_drawn block drawn

theorem runAll_drawn : ∀ (ss : List Stmt) {env : Env} {mesh : Mesh},
    runAll settings ss env = .ok mesh → ∀ offsets, ∃ list,
      ExecutesAll settings offsets env ss list ∧ moved offsets mesh = list.flatMap Drawn.mesh
  | [], env, mesh, ran, offsets => by
    rw [runAll] at ran
    cases ran
    exact ⟨[], .nil offsets env, rfl⟩
  | s :: ss, env, mesh, ran, offsets => by
    simp only [runAll, bind_eq_ok, pure_eq_ok, Prod.exists] at ran
    obtain ⟨first, env', ran, others, later, rfl⟩ := ran
    obtain ⟨list, draws, same⟩ := run_drawn s ran offsets
    obtain ⟨list', draws', same'⟩ := runAll_drawn ss later offsets
    refine ⟨list ++ list', .cons draws draws', ?_⟩
    rw [moved_append, same, same', List.flatMap_append]

end

/-! ## There is one draw list -/

theorem standsFor_primitive {solid : Solid} (stands : StandsFor settings env head solid) :
    Primitive.ofName? head.name = some .cube ∨ Primitive.ofName? head.name = some .cylinder := by
  cases stands with
  | box called => exact .inl called
  | cylinder called => exact .inr called

theorem radius_unique {r r' : Float} (radius : Radius env head r) (radius' : Radius env head r') :
    r = r' := by
  rcases radius with ⟨given, value⟩ | ⟨absent, given, value⟩ <;>
    rcases radius' with ⟨given', value'⟩ | ⟨absent', given', value'⟩ <;>
    simp_all

theorem segmentNumber_unique {n n' : Float} (number : SegmentNumber settings env head n)
    (number' : SegmentNumber settings env head n') : n = n' := by
  rcases number with ⟨given, value⟩ | ⟨absent, value⟩ <;>
    rcases number' with ⟨given', value'⟩ | ⟨absent', value'⟩ <;>
    simp_all

theorem standsFor_unique {solid solid' : Solid} (stands : StandsFor settings env head solid)
    (stands' : StandsFor settings env head solid') : solid = solid' := by
  cases stands with
  | box called given evaluated triple flag =>
    cases stands' with
    | box _ given' evaluated' triple' flag' => simp_all
    | cylinder called' => rw [called] at called'; cases called'
  | cylinder called given evaluated wide flag count floor rounded =>
    cases stands' with
    | box called' => rw [called] at called'; cases called'
    | cylinder _ given' evaluated' wide' flag' count' floor' rounded' =>
      cases radius_unique wide wide'
      cases segmentNumber_unique count count'
      rw [segments_eq_iff floor] at rounded
      rw [segments_eq_iff floor'] at rounded'
      simp_all

mutual

theorem executes_unique {offsets : List (Vertex Float)} : ∀ {env env' env'' : Env} {s : Stmt}
    {list list' : List Drawn}, Executes settings offsets env s list env' →
      Executes settings offsets env s list' env'' → list = list' ∧ env' = env''
  | _, _, _, _, _, _, .assign evaluated, .assign evaluated' => by
    rw [evaluated] at evaluated'
    cases evaluated'
    exact ⟨rfl, rfl⟩
  | _, _, _, _, _, _, .loop evaluated rounds, .loop evaluated' rounds' => by
    rw [evaluated] at evaluated'
    cases evaluated'
    exact ⟨rounds_unique rounds rounds', rfl⟩
  | _, _, _, _, _, _, .solid _ stands, .solid _ stands' => by
    rw [standsFor_unique stands stands']
    exact ⟨rfl, rfl⟩
  | _, _, _, _, _, _, .solid _ stands, .union called _ => by
    have := standsFor_primitive stands
    simp [called] at this
  | _, _, _, _, _, _, .solid _ stands, .translate called _ _ => by
    have := standsFor_primitive stands
    simp [called] at this
  | _, _, _, _, _, _, .union called inner, second => by
    cases second with
    | solid _ stands =>
      have := standsFor_primitive stands
      simp [called] at this
    | union _ inner' => exact ⟨executesAll_unique inner inner', rfl⟩
    | translate called' => rw [called] at called'; cases called'
  | _, _, _, _, _, _, .translate called moved inner, second => by
    cases second with
    | solid _ stands =>
      have := standsFor_primitive stands
      simp [called] at this
    | union called' => rw [called] at called'; cases called'
    | translate _ moved' inner' =>
      rw [moved] at moved'
      cases moved'
      exact ⟨executesAll_unique inner inner', rfl⟩

theorem executesAll_unique {offsets : List (Vertex Float)} : ∀ {env : Env} {ss : List Stmt}
    {list list' : List Drawn}, ExecutesAll settings offsets env ss list →
      ExecutesAll settings offsets env ss list' → list = list'
  | _, _, _, _, .nil _ _, .nil _ _ => rfl
  | _, _, _, _, .cons first later, .cons first' later' => by
    obtain ⟨rfl, rfl⟩ := executes_unique first first'
    rw [executesAll_unique later later']

theorem rounds_unique {offsets : List (Vertex Float)} {counter : String} {body : List Stmt}
    {range : Range} : ∀ {env : Env} {left : Nat} {value : Float} {list list' : List Drawn},
      Rounds settings offsets env counter body range left value list →
        Rounds settings offsets env counter body range left value list' → list = list'
  | _, _, _, _, _, .past _ _, .past _ _ => rfl
  | _, _, _, _, _, .past _ past, .round reached _ _ => by
    rw [past] at reached
    cases reached
  | _, _, _, _, _, .round reached _ _, .past _ past => by
    rw [past] at reached
    cases reached
  | _, _, _, _, _, .round _ inner later, .round _ inner' later' => by
    rw [executesAll_unique inner inner', rounds_unique later later']

end

/-! ## How many triangles -/

theorem length_neighbours {β : Type} (ring : List β) : (neighbours ring).length = ring.length := by
  simp [neighbours]
  omega

theorem length_cylinder (height radius : Float) (segments : Nat) (centered : Bool) :
    (cylinder height radius segments centered).length = 4 * segments := by
  have ring : (neighbours (circle radius segments)).length = segments := by
    rw [length_neighbours, circle, List.length_map, List.length_range]
  rw [cylinder, prism, List.length_flatMap]
  simp [wedge, ring, Nat.mul_comm]

theorem length_drawn (drawn : Drawn) : drawn.mesh.length = drawn.solid.mesh.length :=
  List.length_map _

theorem length_drawList (list : List Drawn) :
    (list.flatMap Drawn.mesh).length =
      12 * list.countP (·.solid.isBox) +
        ((list.filterMap (·.solid.segments?)).map (4 * ·)).sum := by
  induction list with
  | nil => rfl
  | cons drawn list ih =>
    rw [List.flatMap_cons, List.length_append, length_drawn, ih]
    cases kind : drawn.solid with
    | box size centered =>
      have twelve : (Solid.box size centered).mesh.length = 12 := rfl
      simp [twelve, kind, Solid.isBox, Solid.segments?]
      omega
    | cylinder height radius segments round centered =>
      have four : (Solid.cylinder height radius segments round centered).mesh.length =
          4 * segments := length_cylinder ..
      simp [four, kind, Solid.isBox, Solid.segments?]
      omega

theorem three_le_of_mem_segments {list : List Drawn} {n : Nat}
    (member : n ∈ list.filterMap (·.solid.segments?)) : 3 ≤ n := by
  obtain ⟨drawn, -, counted⟩ := List.mem_filterMap.mp member
  cases kind : drawn.solid with
  | box => rw [kind] at counted; cases counted
  | cylinder height radius segments round centered =>
    rw [kind] at counted
    cases counted
    exact round

/-- What a program draws is the meshes of its one draw list, one after the other and each moved by
the offsets around it from the innermost to the outermost. So its length is told by the list. -/
theorem mesh_eq_drawList (program : Program) (settings : Settings) (params : Frame) (mesh : Mesh)
    (drawn : program.eval settings params = .ok mesh) :
    ∃ list : List Drawn,
      ExecutesAll settings [] params program list ∧
      (∀ other, ExecutesAll settings [] params program other → other = list) ∧
      mesh = list.flatMap Drawn.mesh ∧
      mesh.length = 12 * list.countP (·.solid.isBox) +
        ((list.filterMap (·.solid.segments?)).map (4 * ·)).sum ∧
      ∀ n ∈ list.filterMap (·.solid.segments?), 3 ≤ n := by
  rw [program_eval_eq_flat] at drawn
  obtain ⟨list, executes, same⟩ := runAll_drawn program drawn []
  rw [moved_nil] at same
  refine ⟨list, executes, fun other executes' => executesAll_unique executes' executes, same, ?_,
    fun n member => three_le_of_mem_segments member⟩
  rw [same]
  exact length_drawList list

def nestedMoves : Program :=
  [.loop "i" (.number 0) none (.number 1)
    [.call ⟨"translate", [.array [.var "i", .number 0, .number 0]], [], .start⟩ <| some
      [.call ⟨"translate", [.array [.number 0, .var "i", .number 0.1]], [], .start⟩ <| some
        [.call ⟨"cube", [.array [.number 1, .number 2, .number 3]], [], .start⟩ none],
       .call ⟨"cylinder", [.number 1], [("d", .number 2), ("$fn", .number 7.5)], .start⟩ none]]]

theorem nestedMoves_mesh_eq_drawList : ∃ mesh, nestedMoves.eval .default [] = .ok mesh ∧
    mesh.length = 88 ∧ ∃ list : List Drawn,
      ExecutesAll .default [] [] nestedMoves list ∧
      (∀ other, ExecutesAll .default [] [] nestedMoves other → other = list) ∧
      mesh = list.flatMap Drawn.mesh ∧
      mesh.length = 12 * list.countP (·.solid.isBox) +
        ((list.filterMap (·.solid.segments?)).map (4 * ·)).sum ∧
      ∀ n ∈ list.filterMap (·.solid.segments?), 3 ≤ n :=
  ⟨_, rfl, rfl, mesh_eq_drawList nestedMoves .default [] _ rfl⟩

end Proofs

end SolidScript
