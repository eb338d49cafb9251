import Mathlib.Data.Finset.Lattice.Lemmas
import Mathlib.Data.Finset.SDiff
import SolidScript.Evaluation.Statement
import SolidScript.Proofs.Bindings
import SolidScript.Proofs.Number.Finite
import SolidScript.Proofs.Results

namespace SolidScript

mutual

def Expr.names : Expr → Finset String
  | .number _ => ∅
  | .boolean _ => ∅
  | .var name => {name}
  | .array items => Expr.namesAll items
  | .negate operand => operand.names
  | .binary _ left right => left.names ∪ right.names

def Expr.namesAll : List Expr → Finset String
  | [] => ∅
  | e :: es => e.names ∪ Expr.namesAll es

end

def Head.names (head : Head) : Finset String :=
  Expr.namesAll head.positional ∪ Expr.namesAll (head.named.map Prod.snd)

def Range.names (start : Expr) (step : Option Expr) (finish : Expr) : Finset String :=
  start.names ∪ Expr.namesAll step.toList ∪ finish.names

/-- The counts of segments in the settings are in reach of the doubles. -/
def Settings.HoldsCounts (settings : Settings) : Prop :=
  Number.holdsNatural settings.defaultSegments = true ∧
    Number.holdsNatural settings.minSegments = true

namespace Proofs

variable {α β : Type} {names names' : Finset String} {scope scope' : Scope}

theorem names_subset_of_mem {e : Expr} {es : List Expr} (member : e ∈ es) :
    e.names ⊆ Expr.namesAll es := by
  induction es with
  | nil => cases member
  | cons first others ih =>
    rw [Expr.namesAll]
    rcases List.mem_cons.mp member with rfl | later
    · exact Finset.subset_union_left
    · exact (ih later).trans Finset.subset_union_right

theorem mem_of_get? {b : Bindings α} {key : String} {a : α} (found : b.get? key = some a) :
    a ∈ b.map Prod.snd := by
  induction b with
  | nil => cases found
  | cons entry rest ih =>
    obtain ⟨name, value⟩ := entry
    rw [Bindings.get?] at found
    split at found
    · cases found
      exact List.mem_cons_self
    · exact List.mem_cons_of_mem _ (ih found)

theorem names_subset_of_named {head : Head} {key : String} {e : Expr}
    (given : head.named.get? key = some e) : e.names ⊆ head.names :=
  (names_subset_of_mem (mem_of_get? given)).trans Finset.subset_union_right

theorem names_subset_of_first {head : Head} {e : Expr} (given : head.positional.head? = some e) :
    e.names ⊆ head.names :=
  (names_subset_of_mem (List.mem_of_head? given)).trans Finset.subset_union_left

theorem names_subset_of_namedOrFirst {head : Head} {key : String} {e : Expr}
    (given : head.namedOrFirst? key = some e) : e.names ⊆ head.names := by
  rcases (Option.orElse_eq_some _ _ _).mp given with named | ⟨-, first⟩
  · exact names_subset_of_named named
  · exact names_subset_of_first first

theorem names_subset_of_measure {head : Head} {e : Expr}
    (given : (head.named.get? "r" <|> head.named.get? "d") = some e) : e.names ⊆ head.names := by
  rcases (Option.orElse_eq_some _ _ _).mp given with named | ⟨-, named⟩
  · exact names_subset_of_named named
  · exact names_subset_of_named named

/-! ## Agreement -/

def Agree (names : Finset String) (scope scope' : Scope) : Prop :=
  ∀ name ∈ names, scope.get? name = scope'.get? name

theorem Agree.mono (agree : Agree names scope scope') (fewer : names' ⊆ names) :
    Agree names' scope scope' :=
  fun name member => agree name (fewer member)

theorem Agree.left (agree : Agree (names ∪ names') scope scope') : Agree names scope scope' :=
  agree.mono Finset.subset_union_left

theorem Agree.right (agree : Agree (names ∪ names') scope scope') : Agree names' scope scope' :=
  agree.mono Finset.subset_union_right

mutual

theorem eval_agree : ∀ e : Expr, Agree e.names scope scope' → e.eval scope = e.eval scope'
  | .number value, _ => by rw [Expr.eval, Expr.eval]
  | .boolean value, _ => by rw [Expr.eval, Expr.eval]
  | .var name, agree => by
    have same := agree name (by rw [Expr.names]; exact Finset.mem_singleton_self name)
    rw [Expr.eval, Expr.eval, same]
  | .array items, agree => by
    rw [Expr.names] at agree
    rw [Expr.eval, Expr.eval, evalAll_agree items agree]
  | .negate operand, agree => by
    rw [Expr.names] at agree
    rw [Expr.eval, Expr.eval, eval_agree operand agree]
  | .binary op left right, agree => by
    rw [Expr.names] at agree
    rw [Expr.eval, Expr.eval, eval_agree left agree.left, eval_agree right agree.right]

theorem evalAll_agree : ∀ es : List Expr, Agree (Expr.namesAll es) scope scope' →
    Expr.evalAll scope es = Expr.evalAll scope' es
  | [], _ => by rw [Expr.evalAll, Expr.evalAll]
  | e :: es, agree => by
    rw [Expr.namesAll] at agree
    rw [Expr.evalAll, Expr.evalAll, eval_agree e agree.left, evalAll_agree es agree.right]

end

theorem evalNumber_agree (e : Expr) (agree : Agree e.names scope scope') :
    e.evalNumber scope = e.evalNumber scope' := by
  rw [Expr.evalNumber, Expr.evalNumber, eval_agree e agree]

theorem range_agree {start : Expr} {step : Option Expr} {finish : Expr}
    (agree : Agree (Range.names start step finish) scope scope') :
    Range.eval start step finish scope = Range.eval start step finish scope' := by
  rw [Range.eval, Range.eval, evalNumber_agree start agree.left.left,
    evalNumber_agree finish agree.right]
  cases step with
  | none => rfl
  | some step =>
    have member : step ∈ (some step).toList := List.mem_singleton_self step
    dsimp only
    rw [evalNumber_agree step (agree.left.right.mono (names_subset_of_mem member))]

theorem require_bind_congr {primitive : Primitive} {argument : String} {given : Option Expr}
    {f g : Expr → Except EvalError α} (same : ∀ e, given = some e → f e = g e) :
    (Head.require primitive argument given >>= f) =
      Head.require primitive argument given >>= g := by
  cases given with
  | none => rfl
  | some e => exact same e rfl

theorem flag_agree {head : Head} (agree : Agree head.names scope scope') (key : String) :
    head.flag key scope = head.flag key scope' := by
  unfold Head.flag
  cases given : head.named.get? key with
  | none => rfl
  | some e =>
    dsimp only
    rw [eval_agree e (agree.mono (names_subset_of_named given))]

theorem cube_agree {head : Head} (agree : Agree head.names scope scope') :
    head.cube scope = head.cube scope' := by
  refine require_bind_congr fun e given => ?_
  rw [eval_agree e (agree.mono (names_subset_of_namedOrFirst given)), flag_agree agree]

theorem segmentNumber_agree {head : Head} (settings : Settings)
    (agree : Agree head.names scope scope') :
    head.segmentNumber settings scope = head.segmentNumber settings scope' := by
  unfold Head.segmentNumber
  cases number : head.named.get? "$fn" with
  | none => rfl
  | some e => exact evalNumber_agree e (agree.mono (names_subset_of_named number))

theorem cylinder_agree {head : Head} (settings : Settings)
    (agree : Agree head.names scope scope') :
    head.cylinder settings scope = head.cylinder settings scope' := by
  refine require_bind_congr fun height given => ?_
  refine require_bind_congr fun measure given' => ?_
  rw [evalNumber_agree height (agree.mono (names_subset_of_namedOrFirst given)),
    evalNumber_agree measure (agree.mono (names_subset_of_measure given')), flag_agree agree,
    segmentNumber_agree settings agree]

theorem offset_agree {head : Head} (agree : Agree head.names scope scope') :
    head.offset scope = head.offset scope' := by
  refine require_bind_congr fun e given => ?_
  rw [eval_agree e (agree.mono (names_subset_of_first given))]

/-! ## Faults -/

inductive ExprFault (names : Finset String) (scope : Scope) : EvalError → Prop where
  | undefined {name : String} (named : name ∈ names) (unbound : scope.get? name = none) :
    ExprFault names scope (.undefinedVariable name)
  | notANumber (value : Value) : ExprFault names scope (.notANumber value)
  | divisionByZero : ExprFault names scope .divisionByZero
  | zeroStep : ExprFault names scope .zeroStep
  | missingArgument (call argument : String) :
    ExprFault names scope (.missingArgument call argument)
  | notAVector (arity : Nat) (value : Value) : ExprFault names scope (.notAVector arity value)

def FailsBy (Fault : EvalError → Prop) (x : Except EvalError α) : Prop :=
  ∀ e, x = .error e → Fault e

section
variable {Fault Fault' : EvalError → Prop}

theorem failsBy_ok (a : α) : FailsBy Fault (.ok a) := nofun

theorem failsBy_error {e : EvalError} (fault : Fault e) :
    FailsBy Fault (.error e : Except EvalError α) := by
  intro e' same
  cases same
  exact fault

theorem failsBy_bind {x : Except EvalError α} {f : α → Except EvalError β}
    (first : FailsBy Fault x) (later : ∀ a, x = .ok a → FailsBy Fault (f a)) :
    FailsBy Fault (x >>= f) := by
  intro e failed
  rcases bind_eq_error.mp failed with early | ⟨a, reached, late⟩
  · exact first e early
  · exact later a reached e late

theorem FailsBy.imp {x : Except EvalError α} (fails : FailsBy Fault x)
    (weaker : ∀ {e}, Fault e → Fault' e) : FailsBy Fault' x :=
  fun e failed => weaker (fails e failed)

end

theorem ExprFault.mono {e : EvalError} (fault : ExprFault names scope e) (more : names ⊆ names') :
    ExprFault names' scope e := by
  cases fault with
  | undefined named unbound => exact .undefined (more named) unbound
  | notANumber value => exact .notANumber value
  | divisionByZero => exact .divisionByZero
  | zeroStep => exact .zeroStep
  | missingArgument call argument => exact .missingArgument call argument
  | notAVector arity value => exact .notAVector arity value

theorem FailsBy.mono {x : Except EvalError α} (fails : FailsBy (ExprFault names scope) x)
    (more : names ⊆ names') : FailsBy (ExprFault names' scope) x :=
  fails.imp fun fault => fault.mono more

theorem asNumber_failsBy (value : Value) : FailsBy (ExprFault names scope) value.asNumber := by
  unfold Value.asNumber
  split
  · exact failsBy_ok _
  · exact failsBy_error (.notANumber value)

theorem asVertex_failsBy (value : Value) : FailsBy (ExprFault names scope) value.asVertex := by
  unfold Value.asVertex
  split
  · exact failsBy_bind (asNumber_failsBy _) fun _ _ => failsBy_bind (asNumber_failsBy _) fun _ _ =>
      failsBy_bind (asNumber_failsBy _) fun _ _ => failsBy_ok _
  · exact failsBy_error (.notAVector 3 _)

theorem apply_failsBy (op : Operator) (x y : Float) :
    FailsBy (ExprFault names scope) (op.apply x y) := by
  cases op with
  | add | sub | mul => exact failsBy_ok _
  | div =>
    rw [Operator.apply]
    split
    · exact failsBy_error .divisionByZero
    · exact failsBy_ok _

mutual

theorem eval_failsBy (scope : Scope) : ∀ e : Expr, FailsBy (ExprFault e.names scope) (e.eval scope)
  | .number value => by
    rw [Expr.eval]
    exact failsBy_ok _
  | .boolean value => by
    rw [Expr.eval]
    exact failsBy_ok _
  | .var name => by
    rw [Expr.eval, Expr.names]
    split
    · exact failsBy_ok _
    · rename_i unbound
      exact failsBy_error (.undefined (Finset.mem_singleton_self name) unbound)
  | .array items => by
    rw [Expr.eval, Expr.names]
    exact failsBy_bind (evalAll_failsBy scope items) fun _ _ => failsBy_ok _
  | .negate operand => by
    rw [Expr.eval, Expr.names]
    exact failsBy_bind (eval_failsBy scope operand) fun _ _ =>
      failsBy_bind (asNumber_failsBy _) fun _ _ => failsBy_ok _
  | .binary op left right => by
    rw [Expr.eval, Expr.names]
    have first :=
      (eval_failsBy scope left).mono (@Finset.subset_union_left _ _ left.names right.names)
    have second :=
      (eval_failsBy scope right).mono (@Finset.subset_union_right _ _ left.names right.names)
    exact failsBy_bind first fun _ _ => failsBy_bind (asNumber_failsBy _) fun x _ =>
      failsBy_bind second fun _ _ => failsBy_bind (asNumber_failsBy _) fun y _ =>
      failsBy_bind (apply_failsBy op x y) fun _ _ => failsBy_ok _

theorem evalAll_failsBy (scope : Scope) :
    ∀ es : List Expr, FailsBy (ExprFault (Expr.namesAll es) scope) (Expr.evalAll scope es)
  | [] => by
    rw [Expr.evalAll]
    exact failsBy_ok _
  | e :: es => by
    rw [Expr.evalAll, Expr.namesAll]
    have first := (eval_failsBy scope e).mono
      (@Finset.subset_union_left _ _ e.names (Expr.namesAll es))
    have others := (evalAll_failsBy scope es).mono
      (@Finset.subset_union_right _ _ e.names (Expr.namesAll es))
    exact failsBy_bind first fun _ _ => failsBy_bind others fun _ _ => failsBy_ok _

end

theorem evalNumber_failsBy {e : Expr} (known : e.names ⊆ names) (scope : Scope) :
    FailsBy (ExprFault names scope) (e.evalNumber scope) :=
  failsBy_bind ((eval_failsBy scope e).mono known) fun _ _ => asNumber_failsBy _

theorem range_failsBy (start : Expr) (step : Option Expr) (finish : Expr) (scope : Scope) :
    FailsBy (ExprFault (Range.names start step finish) scope)
      (Range.eval start step finish scope) := by
  have checked (first step' last : Float) :
      FailsBy (ExprFault (Range.names start step finish) scope) (do
      if step' == 0 then throw EvalError.zeroStep
      return (⟨first, step', last⟩ : Range)) := by
    split
    · exact failsBy_error .zeroStep
    · exact failsBy_ok _
  have starts : start.names ⊆ Range.names start step finish :=
    Finset.subset_union_left.trans Finset.subset_union_left
  have finishes : finish.names ⊆ Range.names start step finish := Finset.subset_union_right
  refine failsBy_bind (evalNumber_failsBy starts scope) fun first _ =>
    failsBy_bind (evalNumber_failsBy finishes scope) fun last _ => ?_
  cases step with
  | none => exact checked first _ last
  | some step =>
    have steps : step.names ⊆ Range.names start (some step) finish :=
      (names_subset_of_mem (List.mem_singleton_self step)).trans
        (Finset.subset_union_right.trans Finset.subset_union_left)
    exact failsBy_bind (evalNumber_failsBy steps scope) fun step _ => checked first step last

theorem require_failsBy (primitive : Primitive) (argument : String) (given : Option Expr) :
    FailsBy (ExprFault names scope) (Head.require primitive argument given) := by
  cases given with
  | none => exact failsBy_error (.missingArgument _ argument)
  | some e => exact failsBy_ok e

theorem require_eq_ok_iff {primitive : Primitive} {argument : String} {given : Option Expr}
    {e : Expr} : Head.require primitive argument given = .ok e ↔ given = some e := by
  cases given <;> simp [Head.require]

theorem flag_failsBy (head : Head) (key : String) (scope : Scope) :
    FailsBy (ExprFault head.names scope) (head.flag key scope) := by
  unfold Head.flag
  split
  · rename_i e given
    exact failsBy_bind ((eval_failsBy scope e).mono (names_subset_of_named given)) fun _ _ =>
      failsBy_ok _
  · exact failsBy_ok _

theorem cube_failsBy (head : Head) (scope : Scope) :
    FailsBy (ExprFault head.names scope) (head.cube scope) := by
  refine failsBy_bind (require_failsBy _ _ _) fun size given => ?_
  have known := names_subset_of_namedOrFirst (require_eq_ok_iff.mp given)
  exact failsBy_bind ((eval_failsBy scope size).mono known) fun _ _ =>
    failsBy_bind (asVertex_failsBy _) fun _ _ =>
    failsBy_bind (flag_failsBy head "center" scope) fun _ _ => failsBy_ok _

theorem offset_failsBy (head : Head) (scope : Scope) :
    FailsBy (ExprFault head.names scope) (head.offset scope) := by
  refine failsBy_bind (require_failsBy _ _ _) fun e given => ?_
  have known := names_subset_of_first (require_eq_ok_iff.mp given)
  exact failsBy_bind ((eval_failsBy scope e).mono known) fun _ _ => asVertex_failsBy _

/-! ## Counts of segments -/

inductive CylinderFault (settings : Settings) (names : Finset String) (scope : Scope) :
    EvalError → Prop where
  | expression {e : EvalError} (fault : ExprFault names scope e) :
    CylinderFault settings names scope e
  | countTooLarge (large : ¬ settings.HoldsCounts) :
    CylinderFault settings names scope .countTooLarge

theorem holdsNatural_segments {settings : Settings} (held : settings.HoldsCounts) (number : Float) :
    Number.holdsNatural (Head.segments settings number) = true := by
  refine holdsNatural_max held.2 ?_
  cases floor : Number.floor? (number + 0.5) with
  | none => rfl
  | some k => exact holdsNatural_floor floor

theorem countAsNumber_failsBy {settings : Settings} {count : Nat}
    (held : settings.HoldsCounts → Number.holdsNatural count = true) :
    FailsBy (CylinderFault settings names scope) (Head.countAsNumber count) := by
  unfold Head.countAsNumber
  split
  · exact failsBy_ok _
  · rename_i large
    exact failsBy_error (.countTooLarge fun counts => large (held counts))

theorem segmentNumber_failsBy (settings : Settings) (head : Head) (scope : Scope) :
    FailsBy (CylinderFault settings head.names scope) (head.segmentNumber settings scope) := by
  unfold Head.segmentNumber
  split
  · rename_i number
    exact (evalNumber_failsBy (names_subset_of_named number) scope).imp .expression
  · exact failsBy_bind (countAsNumber_failsBy And.left) fun _ _ =>
      (asNumber_failsBy _).imp .expression

theorem cylinder_failsBy (settings : Settings) (head : Head) (scope : Scope) :
    FailsBy (CylinderFault settings head.names scope) (head.cylinder settings scope) := by
  refine failsBy_bind ((require_failsBy _ _ _).imp .expression) fun height given => ?_
  refine failsBy_bind ((require_failsBy _ _ _).imp .expression) fun across given' => ?_
  have tall := names_subset_of_namedOrFirst (require_eq_ok_iff.mp given)
  have wide := names_subset_of_measure (require_eq_ok_iff.mp given')
  exact failsBy_bind ((evalNumber_failsBy tall scope).imp .expression) fun _ _ =>
    failsBy_bind ((evalNumber_failsBy wide scope).imp .expression) fun _ _ =>
    failsBy_bind ((flag_failsBy head "center" scope).imp .expression) fun _ _ =>
    failsBy_bind (segmentNumber_failsBy settings head scope) fun number _ =>
    failsBy_bind (countAsNumber_failsBy (holdsNatural_segments · number)) fun _ _ => failsBy_ok _

end Proofs

end SolidScript
