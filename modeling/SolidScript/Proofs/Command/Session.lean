import SolidScript.Command.Session
import SolidScript.Proofs.Evaluation.FreeNames
import SolidScript.Proofs.Results

namespace SolidScript

variable {α β : Type}

def Session.answer (x : Session α) (see : String → Sight) (journal : Journal) :
    Except Stop α × Journal :=
  (StateT.run (ExceptT.run x) journal).answer see

def Stop.Within (untold : Stop → Prop) : Stop → Prop
  | .breakdown cause => untold (.breakdown cause)
  | .endless => untold .endless
  | _ => True

/-- A session gives only results that are right, and its stops are told but for some. -/
structure Session.Meets (see : String → Sight) (untold : Stop → Prop) (x : Session α)
    (right : α → Prop) : Prop where
  ends : ∀ journal, match (x.answer see journal).1 with
    | .ok a => right a
    | .error stop => stop.Within untold

namespace Proofs
open Session

variable {readers : Readers} {see : String → Sight} {untold : Stop → Prop} {right : α → Prop}

/-! ## Steps of any kind -/

theorem session_bind (x : Session α) (f : α → Session β) (journal : Journal) :
    (x >>= f).answer see journal =
      match x.answer see journal with
      | (.ok a, journal) => (f a).answer see journal
      | (.error stop, journal) => (.error stop, journal) := by
  simp only [Session.answer, ExceptT.run_bind, StateT.run_bind, Inquiry.answer_bind]
  cases (StateT.run (ExceptT.run x) journal).answer see with
  | mk result after => cases result <;> rfl

theorem meets_bind {x : Session α} {f : α → Session β} {right : β → Prop} {between : α → Prop}
    (first : Meets see untold x between)
    (later : ∀ a, between a → Meets see untold (f a) right) : Meets see untold (x >>= f) right := by
  refine ⟨fun journal => ?_⟩
  have step := first.ends journal
  rw [session_bind]
  cases ended : x.answer see journal with
  | mk result after =>
    rw [ended] at step
    cases result with
    | error stop => exact step
    | ok a => exact (later a step).ends after

theorem meets_pure {a : α} (holds : right a) : Meets see untold (pure a) right :=
  ⟨fun _ => holds⟩

theorem meets_map {x : Session α} (meets : Meets see untold x right) (f : α → β) :
    Meets see untold (f <$> x) fun b => ∃ a, right a ∧ f a = b := by
  have same : f <$> x = x >>= fun a => pure (f a) := rfl
  rw [same]
  exact meets_bind meets fun a holds => meets_pure ⟨a, holds, rfl⟩

theorem meets_throw {stop : Stop} (within : stop.Within untold) :
    Meets see untold (throw stop : Session α) right :=
  ⟨fun _ => within⟩

theorem meets_misuse (command : Option Command) (fault : UsageFault) :
    Meets see untold (misuse command fault : Session α) right :=
  ⟨fun _ => trivial⟩

theorem meets_fail (message : String) : Meets see untold (fail message : Session α) right :=
  ⟨fun _ => trivial⟩

theorem meets_see (path : String) : Meets see untold (Session.see path) (· = see path) :=
  ⟨fun _ => rfl⟩

theorem meets_modify (f : Journal → Journal) :
    Meets see untold (modify f : Session Unit) fun _ => True :=
  ⟨fun _ => trivial⟩

theorem meets_inquiry (x : Inquiry α) :
    Meets see untold (liftM x : Session α) (· = x.answer see) := by
  refine ⟨fun journal => ?_⟩
  have same : (liftM x : Session α).answer see journal = (.ok (x.answer see), journal) := by
    induction x with
    | done a => rfl
    | look path next ih => exact ih (see path)
  rw [same]

/-! ## Reading the command line -/

theorem meets_readArguments (command : Option Command) (rules : List (OptionRule OptionKey))
    (mixed : Bool) (args : List String) :
    Meets see untold (readArguments readers command rules mixed args)
      fun arguments => readers.arguments rules mixed args = .ok arguments := by
  unfold readArguments
  split
  · exact meets_pure ‹_›
  · exact meets_misuse _ _

theorem meets_showPage (command : Option Command) (arguments : Arguments OptionKey) :
    Meets see untold (showPage command arguments) fun _ => True := by
  unfold showPage
  split
  · exact meets_throw trivial
  · exact meets_throw trivial
  · exact meets_pure trivial

theorem meets_requireFile (command : Option Command) (parameter : String) {path : String}
    (named : see path = .noPath → untold (.breakdown .noPath)) :
    Meets see untold (requireFile command parameter path) (· = .ofText path) := by
  refine meets_bind (meets_see path) fun sight same => ?_
  cases sight with
  | noPath => exact meets_throw (named same.symm)
  | absent fault => exact meets_misuse _ _
  | directory names => exact meets_misuse _ _
  | forbidden isFolder => cases isFolder <;> exact meets_misuse _ _
  | failing fault | file text => exact meets_pure rfl

theorem meets_requirePath {command : Command} {path : Option String}
    (named : ∀ text ∈ path, see text = .noPath → untold (.breakdown .noPath)) :
    Meets see untold (requirePath command path) fun _ => True := by
  cases path with
  | none => exact meets_pure trivial
  | some path =>
    refine meets_bind (meets_see path) fun sight same => ?_
    cases sight with
    | noPath => exact meets_throw (named path rfl same.symm)
    | forbidden isFolder => exact meets_misuse _ _
    | absent | directory | failing | file => exact meets_pure trivial

/-! ## Loading and rendering -/

theorem meets_note (entry : Note) : Meets see untold (note entry) fun _ => True :=
  meets_modify _

theorem meets_loadSettings {path : Path}
    (broken : ∀ cause, (readers.settings.ofFile path).answer see = .error (.breakdown cause) →
      untold (.breakdown cause)) :
    Meets see untold (loadSettings readers path)
      fun settings => (readers.settings.ofFile path).answer see = .ok settings := by
  refine meets_bind (meets_inquiry _) fun found same => ?_
  cases found with
  | ok settings => exact meets_bind (meets_note _) fun _ _ => meets_pure same.symm
  | error e =>
    cases e with
    | breakdown cause => exact meets_throw (broken cause same.symm)
    | unreadable | malformed | notAMapping | invalid => exact meets_fail _

theorem meets_loadTemplate {path : Path}
    (broken : ∀ cause, (Template.ofFile path none).answer see = .error (.breakdown cause) →
      untold (.breakdown cause)) :
    Meets see untold (loadTemplate path)
      fun t => (Template.ofFile path none).answer see = .ok t := by
  refine meets_bind (meets_inquiry _) fun found same => ?_
  cases found with
  | ok t =>
    refine meets_bind (meets_note _) fun _ _ => ?_
    exact meets_bind (meets_note _) fun _ _ => meets_pure same.symm
  | error e =>
    cases e with
    | breakdown cause => exact meets_throw (broken cause same.symm)
    | unreadable | noDirectory | template => exact meets_fail _

theorem loadTemplate_answer {see : String → Sight} {path : Path} {t : Template}
    (loaded : (Template.ofFile path none).answer see = .ok t) (journal : Journal) :
    (loadTemplate path).answer see journal =
      (.ok t, (journal.add (.parsed (tokenCount t.source) t.program.length)).add
        (.loaded t.id t.metadata.params.length)) := by
  have found : (liftM (Template.ofFile path none) : Session _).answer see journal =
      (.ok (.ok t), journal) := by
    rw [← loaded]
    rfl
  rw [loadTemplate, session_bind, found]
  rfl

theorem not_holdsCounts {program : Program} {settings : Settings} {params : Frame}
    (failed : program.eval settings params = .error .countTooLarge) : ¬ settings.HoldsCounts := by
  -- A call can ask for no count but in a double, so only a count in the settings can be too large.
  rw [program_eval_eq_flat] at failed
  generalize cause : EvalError.countTooLarge = e at failed
  cases runAll_error settings program failed with
  | expression fault => cases fault <;> cases cause
  | unsupportedCall => cases cause
  | countTooLarge large => exact large
  | outOfRounds =>
    unfold Settings.roundLimit at cause
    split at cause <;> cases cause

theorem unlimited_of_endless {program : Program} {settings : Settings} {params : Frame}
    (failed : program.eval settings params = .error .endlessLoop) : settings.loopBudget = none := by
  rw [program_eval_eq_flat] at failed
  generalize cause : EvalError.endlessLoop = e at failed
  cases runAll_error settings program failed with
  | expression fault => cases fault <;> cases cause
  | unsupportedCall => cases cause
  | countTooLarge => cases cause
  | outOfRounds =>
    unfold Settings.roundLimit at cause
    split at cause
    · cases cause
    · assumption

theorem eval_of_render {t : Template} {overrides : Bindings Float} {settings : Settings}
    {clamp : Bool} {e : EvalError} (failed : t.render overrides settings clamp = .error (.eval e)) :
    ∃ params, t.program.eval settings (Template.frame params) = .error e := by
  unfold Template.render Template.rendering at failed
  cases resolved : t.resolve overrides clamp with
  | error unknown =>
    rw [resolved] at failed
    cases failed
  | ok params =>
    rw [resolved] at failed
    obtain ⟨_, ran, same⟩ := mapError_eq_error.mp failed
    cases same
    exact ⟨params, ran⟩

theorem meets_render {t : Template} {overrides : Bindings Float} {settings : Settings}
    {clamp : Bool} (large : ¬ settings.HoldsCounts → untold (.breakdown .countTooLarge))
    (endless : t.render overrides settings clamp = .error (.eval .endlessLoop) →
      settings.loopBudget = none → untold .endless) :
    Meets see untold (render t overrides settings clamp)
      fun mesh => t.render overrides settings clamp = .ok mesh := by
  have noted (loops : List LoopNote) :
      Meets see untold (loops.forM fun entry => note (.loop entry)) fun _ => True := by
    induction loops with
    | nil => exact meets_pure trivial
    | cons entry loops ih => exact meets_bind (meets_note _) fun _ _ => ih
  unfold Session.render
  cases rendered : t.rendering overrides settings clamp with
  | error e => exact meets_fail _
  | ok rendering =>
    have mesh_eq : t.render overrides settings clamp = rendering.mesh := by
      rw [Template.render, rendered, ok_bind]
    refine meets_bind (meets_note _) fun _ _ => meets_bind (noted _) fun _ _ => ?_
    rw [mesh_eq]
    cases drawn : rendering.mesh with
    | ok mesh => exact meets_bind (meets_note _) fun _ _ => meets_pure rfl
    | error e =>
      cases e with
      | unknownParameter e => exact meets_fail _
      | eval e =>
        cases e with
        | countTooLarge =>
          obtain ⟨params, failed⟩ := eval_of_render (mesh_eq.trans drawn)
          exact meets_throw (large (not_holdsCounts failed))
        | endlessLoop =>
          have rendered := mesh_eq.trans drawn
          obtain ⟨params, failed⟩ := eval_of_render rendered
          exact meets_throw (endless rendered (unlimited_of_endless failed))
        | _ => exact meets_fail _

theorem meets_resolve (t : Template) (overrides : Bindings Float) :
    Meets see untold (resolve t overrides)
      fun values => t.resolve overrides true = .ok values := by
  unfold resolve
  split
  · exact meets_pure ‹_›
  · exact meets_fail _

end Proofs

end SolidScript
