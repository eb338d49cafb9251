import SolidScript.Proofs.Command.Arguments
import SolidScript.Proofs.Command.ErrorLine
import SolidScript.Proofs.Command.Session
import SolidScript.Proofs.Files.Writing
import SolidScript.Proofs.Template.Resolved

namespace SolidScript

namespace Readers

variable (readers : Readers) (see : String → Sight) (args : List String)

structure Calls (globals : Arguments OptionKey) (command : Command)
    (arguments : Arguments OptionKey) (input : String) : Prop where
  front : readers.arguments Command.globalRules false args = .ok globals
  named : ∃ rest, globals.others = command.name :: rest ∧
    readers.arguments command.rules true rest = .ok arguments
  alone : arguments.others = [input]

def Configures (globals : Arguments OptionKey) (settings : Settings) : Prop :=
  match globals.value? .config with
  | none => settings = .default
  | some path => (readers.settings.ofFile (.ofText path)).answer see = .ok settings

structure Loads (globals : Arguments OptionKey) (command : Command)
    (arguments : Arguments OptionKey) (input : String) (overrides : Bindings Float) (t : Template) :
    Prop where
  calls : readers.Calls args globals command arguments input
  overridden : Session.readOverrides (arguments.values .define) = .ok overrides
  loaded : (Template.ofFile (.ofText input) none).answer see = .ok t

/-- What a command line is to do: the file it is to write, and the report on it. -/
inductive Plans : Plan → Prop where
  | exports {globals arguments : Arguments OptionKey} {input : String} {overrides : Bindings Float}
    {t : Template} {settings : Settings} {mesh : Mesh} {output : Path} {name : String}
    (loads : readers.Loads see args globals .exportMesh arguments input overrides t)
    (configured : readers.Configures see globals settings)
    (rendered : t.render overrides settings (!arguments.has .noClamp) = .ok mesh)
    (placed : output = match arguments.value? .output with
      | some path => .ofText path
      | none => (Path.ofText input).withSuffix ".stl")
    (named : name = match arguments.value? .name with
      | some given => if given.isEmpty then t.id else given
      | none => t.id) :
    Plans
      { save := some { path := output, text := Stl.document mesh name ++ "\n", what := "STL to " }
        report := "Exported: " ++ output.text ++ " (" ++ toString mesh.length ++ " triangles)\n" }
  | inspects {globals arguments : Arguments OptionKey} {input : String}
    {overrides : Bindings Float} {t : Template} {settings : Settings} {inspection : Inspection}
    (loads : readers.Loads see args globals .inspect arguments input overrides t)
    (configured : readers.Configures see globals settings)
    (inspected : t.inspect overrides settings true = .ok inspection) :
    Plans
      { report := if arguments.value? .format = some "json" then inspection.json.render ++ "\n"
          else inspection.text }
  | prints {globals arguments : Arguments OptionKey} {input : String}
    {overrides values : Bindings Float} {t : Template}
    (loads : readers.Loads see args globals .resolve arguments input overrides t)
    (resolved : t.resolve overrides true = .ok values) (placed : arguments.value? .output = none) :
    Plans { report := resolvedSource t.source values }
  | resolves {globals arguments : Arguments OptionKey} {input : String}
    {overrides values : Bindings Float} {t : Template} {output : String}
    (loads : readers.Loads see args globals .resolve arguments input overrides t)
    (resolved : t.resolve overrides true = .ok values)
    (placed : arguments.value? .output = some output) :
    Plans
      { save := some { path := .ofText output, text := resolvedSource t.source values }
        report := "Resolved: " ++ (Path.ofText output).text ++ "\n" }

def SettingsSeen (sight : Sight) : Prop :=
  ∃ globals path, readers.arguments Command.globalRules false args = .ok globals ∧
    globals.value? .config = some path ∧ see (Path.ofText path).text = sight

/-- In what a command line may end without a word, or never. -/
inductive Untold : Stop → Prop where
  | settingsBytes (seen : readers.SettingsSeen see args (.file none)) :
    Untold (.breakdown .undecodable)
  | templateBytes {globals arguments : Arguments OptionKey} {command : Command} {input : String}
    (calls : readers.Calls args globals command arguments input)
    (seen : see (Path.ofText input).text = .file none) : Untold (.breakdown .undecodable)
  | terminated (held : ∃ arg ∈ args, Path.terminator ∈ arg.toList) : Untold (.breakdown .noPath)
  | document {text : String} {source : String} {fault : Yaml.Fault}
    (seen : readers.SettingsSeen see args (.file (some text)))
    (folded : source = String.ofList (Text.foldLineEndings text.toList))
    (faulty : readers.settings.document source = .error fault) (formed : fault ≠ .malformed) :
    Untold (.breakdown (.document fault))
  | nameless {text : String} {source : String} {entries : List (Datum × Datum)} {key value : Datum}
    (seen : readers.SettingsSeen see args (.file (some text)))
    (folded : source = String.ofList (Text.foldLineEndings text.toList))
    (mapping : readers.settings.document source = .ok (.mapping entries))
    (member : (key, value) ∈ entries) (unnamed : ∀ name, key ≠ .text name) :
    Untold (.breakdown .namelessSetting)
  | large {globals : Arguments OptionKey} {settings : Settings}
    (front : readers.arguments Command.globalRules false args = .ok globals)
    (configured : readers.Configures see globals settings) (large : ¬ settings.HoldsCounts) :
    Untold (.breakdown .countTooLarge)
  | endless {globals arguments : Arguments OptionKey} {command : Command} {input : String}
    {given overrides : Bindings Float} {t : Template} {settings : Settings} {clamp : Bool}
    (loads : readers.Loads see args globals command arguments input given t)
    (configured : readers.Configures see globals settings) (unlimited : settings.loopBudget = none)
    (endless : t.render overrides settings clamp = .error (.eval .endlessLoop)) : Untold .endless

end Readers

/-- A plan is carried out: its file is written, and nothing else is touched. -/
def Plan.CarriedOut (plan : Plan) (fs : FileSystem) (state after : fs.State) : Prop :=
  match plan.save with
  | none => after = state
  | some save => fs.Changes state save.path.text save.text after

namespace Proofs
open Session

variable {readers : Readers} {see : String → Sight} {args : List String} {cause : Breakdown}

/-! ## Causes -/

theorem terminator_of_ofText {path : String}
    (noPath : ∀ {path}, see path = .noPath → Path.terminator ∈ path.toList)
    (gone : see (Path.ofText path).text = .noPath) : Path.terminator ∈ path.toList := by
  by_contra absent
  exact text_lacks absent (by decide) (by decide) (noPath gone)

theorem text_breakdown {sight : Sight} (failed : sight.text = .error (.breakdown cause)) :
    sight = .noPath ∧ cause = .noPath ∨ sight = .file none ∧ cause = .undecodable := by
  cases sight with
  | noPath =>
    cases failed
    exact .inl ⟨rfl, rfl⟩
  | absent | directory | forbidden | failing => cases failed
  | file text =>
    cases text with
    | some text => cases failed
    | none =>
      cases failed
      exact .inr ⟨rfl, rfl⟩

theorem text_eq_ok {sight : Sight} {source : String} (read : sight.text = .ok source) :
    ∃ content, sight = .file (some content) ∧
      source = String.ofList (Text.foldLineEndings content.toList) := by
  cases sight with
  | noPath | absent | directory | forbidden | failing => cases read
  | file text =>
    cases text with
    | none => cases read
    | some content => exact ⟨content, rfl, (Except.ok.inj read).symm⟩

theorem fieldsOf?_eq_none {entries : List (Datum × Datum)}
    (failed : Settings.fieldsOf? entries = none) :
    ∃ entry ∈ entries, ∀ name, entry.1 ≠ .text name := by
  by_contra named
  simp only [not_exists, not_and, not_forall, not_not] at named
  suffices ∃ fields, Settings.fieldsOf? entries = some fields by
    obtain ⟨fields, read⟩ := this
    rw [failed] at read
    cases read
  clear failed
  induction entries with
  | nil => exact ⟨[], rfl⟩
  | cons entry entries ih =>
    obtain ⟨⟨name, same⟩, later⟩ := List.forall_mem_cons.mp named
    obtain ⟨fields, read⟩ := ih later
    refine ⟨(name, entry.2) :: fields, ?_⟩
    unfold Settings.fieldsOf? at read ⊢
    rw [List.mapM_cons, same, read]
    rfl

theorem ofDocument_breakdown {source : String}
    (failed : readers.settings.ofDocument source = .error (.breakdown cause)) :
    (∃ fault, cause = .document fault ∧ readers.settings.document source = .error fault ∧
      fault ≠ .malformed) ∨
    cause = .namelessSetting ∧
      ∃ entries, readers.settings.document source = .ok (.mapping entries) ∧
        Settings.fieldsOf? entries = none := by
  unfold Settings.Reader.ofDocument at failed
  split at failed
  · cases failed
  · rename_i fault other faulty
    cases failed
    exact .inl ⟨fault, rfl, faulty, other⟩
  · cases failed
  · rename_i entries mapping
    split at failed
    · obtain ⟨_, -, same⟩ := mapError_eq_error.mp failed
      cases same
    · cases failed
      exact .inr ⟨rfl, entries, mapping, ‹_›⟩
  · cases failed

theorem ofFile_breakdown {path : Path}
    (failed : (readers.settings.ofFile path).answer see = .error (.breakdown cause)) :
    (see path.text).text = .error (.breakdown cause) ∨
    ∃ source, (see path.text).text = .ok source ∧
      readers.settings.ofDocument source = .error (.breakdown cause) := by
  simp only [Settings.Reader.ofFile, Inquiry.answer_bind, Inquiry.answer_sight] at failed
  split at failed
  · cases failed
  · rename_i unread
    cases failed
    exact .inl unread
  · exact .inr ⟨_, ‹_›, failed⟩

/-! ## Sessions -/

section
variable {globals : Arguments OptionKey} (faithful : readers.Faithful)
  (noPath : ∀ {path}, see path = .noPath → Path.terminator ∈ path.toList)

include faithful in
theorem mem_arg_of_rest (front : readers.arguments Command.globalRules false args = .ok globals)
    {name : String} {rest : List String} (others : globals.others = name :: rest) {c : Char}
    (later : ∃ arg ∈ rest, c ∈ arg.toList) : ∃ arg ∈ args, c ∈ arg.toList := by
  obtain ⟨arg, member, held⟩ := later
  exact mem_arg_of_other faithful front (by rw [others]; exact List.mem_cons_of_mem _ member) held

include faithful noPath

theorem untold_of_settings (front : readers.arguments Command.globalRules false args = .ok globals)
    {path : String} (given : globals.value? .config = some path)
    (failed : (readers.settings.ofFile (.ofText path)).answer see = .error (.breakdown cause)) :
    readers.Untold see args (.breakdown cause) := by
  have seen : readers.SettingsSeen see args (see (Path.ofText path).text) :=
    ⟨globals, path, front, given, rfl⟩
  rcases ofFile_breakdown failed with unread | ⟨source, text, failed⟩
  · rcases text_breakdown unread with ⟨gone, rfl⟩ | ⟨bytes, rfl⟩
    · exact .terminated (mem_arg_of_value? faithful front given (terminator_of_ofText noPath gone))
    · exact .settingsBytes (bytes ▸ seen)
  · obtain ⟨content, file, folded⟩ := text_eq_ok text
    rw [file] at seen
    rcases ofDocument_breakdown failed with
      ⟨fault, rfl, faulty, formed⟩ | ⟨rfl, entries, mapping, none⟩
    · exact .document seen folded faulty formed
    · obtain ⟨⟨key, value⟩, member, unnamed⟩ := fieldsOf?_eq_none none
      exact .nameless seen folded mapping member unnamed

theorem untold_of_template {command : Command} {arguments : Arguments OptionKey} {input : String}
    (calls : readers.Calls args globals command arguments input)
    (failed : (Template.ofFile (.ofText input) none).answer see = .error (.breakdown cause)) :
    readers.Untold see args (.breakdown cause) := by
  have unread : (see (Path.ofText input).text).text = .error (.breakdown cause) := by
    simp only [Template.ofFile, Inquiry.answer_bind, Inquiry.answer_sight, Inquiry.answer_pure,
      Template.ofSight] at failed
    split at failed
    · cases failed
    · cases failed
      assumption
    · obtain ⟨_, -, same⟩ := mapError_eq_error.mp failed
      cases same
  rcases text_breakdown unread with ⟨gone, rfl⟩ | ⟨bytes, rfl⟩
  · obtain ⟨rest, others, read⟩ := calls.named
    have single : input ∈ arguments.others := by simp [calls.alone]
    exact .terminated (mem_arg_of_rest faithful calls.front others
      (mem_arg_of_other faithful read single (terminator_of_ofText noPath gone)))
  · exact .templateBytes calls bytes

theorem meets_globalOptions {line : List String}
    (given : (∃ arg ∈ line, Path.terminator ∈ arg.toList) →
      ∃ arg ∈ args, Path.terminator ∈ arg.toList) :
    Meets see (readers.Untold see args) (globalOptions readers line) fun (globals, config) =>
      readers.arguments Command.globalRules false line = .ok globals ∧
        config = (globals.value? .config).map .ofText := by
  refine meets_bind (meets_readArguments _ _ _ _) fun globals front => ?_
  refine meets_bind (meets_showPage _ _) fun _ _ => ?_
  cases chosen : globals.value? .config with
  | none => exact meets_pure ⟨front, by rw [chosen]; rfl⟩
  | some path =>
    have named (gone : see path = .noPath) : readers.Untold see args (.breakdown .noPath) :=
      .terminated (given (mem_arg_of_value? faithful front chosen (noPath gone)))
    rw [Option.mapM_some]
    refine meets_bind (meets_map (meets_requireFile none "--config" named) some) ?_
    rintro _ ⟨config, rfl, rfl⟩
    exact meets_pure ⟨front, by rw [chosen]; rfl⟩

theorem meets_request {command : Command} {rest : List String}
    (front : readers.arguments Command.globalRules false args = .ok globals)
    (others : globals.others = command.name :: rest) (settings : Settings) :
    Meets see (readers.Untold see args) (request readers command settings rest) fun request =>
      request.command = command ∧ request.settings = settings ∧ ∃ input,
        readers.Calls args globals command request.arguments input ∧
          request.input = .ofText input := by
  unfold Session.request
  refine meets_bind (meets_readArguments _ _ _ _) fun arguments read => ?_
  refine meets_bind (meets_showPage _ _) fun _ _ => ?_
  refine meets_bind (meets_requirePath ?_) fun _ _ => ?_
  · intro path given gone
    exact .terminated (mem_arg_of_rest faithful front others
      (mem_arg_of_value? faithful read given (noPath gone)))
  dsimp only
  split
  · exact meets_misuse _ _
  · split
    · exact meets_misuse _ _
    · rename_i path extra inputs
      refine meets_bind (meets_requireFile (some command) "INPUT_FILE" ?_) fun input same => ?_
      · intro gone
        have first : path ∈ arguments.others := by simp [inputs]
        exact .terminated (mem_arg_of_rest faithful front others
          (mem_arg_of_other faithful read first (noPath gone)))
      · split
        · exact meets_misuse _ _
        · rename_i alone
          have single : arguments.others = [path] := by simpa [inputs] using alone
          exact meets_pure ⟨rfl, rfl, path, ⟨front, ⟨rest, others, read⟩, single⟩, same⟩

theorem meets_globalSettings
    (front : readers.arguments Command.globalRules false args = .ok globals) :
    Meets see (readers.Untold see args)
      (globalSettings readers ((globals.value? .config).map .ofText))
      (readers.Configures see globals) := by
  unfold Readers.Configures
  cases given : globals.value? .config with
  | none => exact meets_pure rfl
  | some path =>
    exact meets_loadSettings fun cause => untold_of_settings faithful noPath front given

omit faithful noPath in
theorem meets_overrides (request : Request) :
    Meets see (readers.Untold see args) request.overrides
      fun overrides => readOverrides (request.arguments.values .define) = .ok overrides := by
  unfold Request.overrides
  split
  · exact meets_pure ‹_›
  · exact meets_misuse _ _

section
variable {request : Request} {input : String} (path : request.input = .ofText input)
include path

theorem meets_loads {command : Command} {right : Plan → Prop}
    {next : Bindings Float → Template → Session Plan}
    (calls : readers.Calls args globals command request.arguments input)
    (later : ∀ overrides t,
      readers.Loads see args globals command request.arguments input overrides t →
        Meets see (readers.Untold see args) (next overrides t) right) :
    Meets see (readers.Untold see args) (do
      let overrides ← request.overrides
      let t ← loadTemplate request.input
      next overrides t) right := by
  refine meets_bind (meets_overrides request) fun overrides overridden => ?_
  rw [path]
  refine meets_bind (meets_loadTemplate fun cause => untold_of_template faithful noPath calls)
    fun t loaded => ?_
  exact later overrides t ⟨calls, overridden, loaded⟩

omit faithful noPath path in
theorem meets_rendered {command : Command} {arguments : Arguments OptionKey}
    {given overrides : Bindings Float} {t : Template} {settings : Settings} {clamp : Bool}
    (loads : readers.Loads see args globals command arguments input given t)
    (configured : readers.Configures see globals settings) :
    Meets see (readers.Untold see args) (render t overrides settings clamp)
      fun mesh => t.render overrides settings clamp = .ok mesh :=
  meets_render (fun large => .large loads.calls.front configured large)
    fun endless unlimited => .endless loads configured unlimited endless

theorem meets_exportMesh (calls : readers.Calls args globals .exportMesh request.arguments input)
    (configured : readers.Configures see globals request.settings) :
    Meets see (readers.Untold see args) request.exportMesh (readers.Plans see args) := by
  refine meets_loads faithful noPath path calls fun overrides t loads => ?_
  refine meets_bind (meets_rendered loads configured) fun mesh rendered => ?_
  refine meets_pure (.exports loads configured rendered ?_ ?_)
  · unfold Request.output?
    rw [path]
    cases request.arguments.value? .output <;> rfl
  · cases request.arguments.value? .name <;> rfl

theorem meets_inspect (calls : readers.Calls args globals .inspect request.arguments input)
    (configured : readers.Configures see globals request.settings) :
    Meets see (readers.Untold see args) request.inspect (readers.Plans see args) := by
  refine meets_loads faithful noPath path calls fun overrides t loads => ?_
  refine meets_bind (meets_resolve t overrides) fun values resolved => ?_
  refine meets_bind (meets_rendered loads configured) fun mesh rendered => ?_
  have inspected : t.inspect overrides request.settings true =
      .ok (.ofMesh t.metadata values mesh) := by
    refine bind_eq_ok.mpr ⟨values, mapError_eq_ok.mpr resolved, ?_⟩
    exact bind_eq_ok.mpr ⟨mesh, rendered, rfl⟩
  exact meets_pure (.inspects loads configured inspected)

theorem meets_resolveSource
    (calls : readers.Calls args globals .resolve request.arguments input) :
    Meets see (readers.Untold see args) request.resolve (readers.Plans see args) := by
  refine meets_loads faithful noPath path calls fun overrides t loads => ?_
  refine meets_bind (meets_resolve t overrides) fun values resolved => ?_
  unfold Request.output?
  dsimp only
  cases placed : request.arguments.value? .output with
  | none => exact meets_pure (.prints loads resolved placed)
  | some output => exact meets_pure (.resolves loads resolved placed)

end

theorem meets_unknownCommand {right : Plan → Prop} {name : String} {rest : List String}
    (given : (∃ arg ∈ name :: rest, Path.terminator ∈ arg.toList) →
      ∃ arg ∈ args, Path.terminator ∈ arg.toList) :
    Meets see (readers.Untold see args) (unknownCommand readers name rest) right := by
  unfold unknownCommand
  dsimp only
  split
  · exact meets_bind (meets_globalOptions faithful noPath given) fun _ _ => meets_misuse _ _
  · exact meets_misuse _ _

omit faithful noPath in
theorem name_of_ofName? {name : String} {command : Command}
    (found : Command.ofName? name = some command) : name = command.name := by
  simpa [eq_comm] using List.find?_some found

theorem meets_commandLine (args : List String) :
    Meets see (readers.Untold see args) (commandLine readers args) (readers.Plans see args) := by
  unfold commandLine
  dsimp only
  split
  · exact meets_throw trivial
  · refine meets_bind (meets_globalOptions faithful noPath id) ?_
    rintro ⟨globals, config⟩ ⟨front, rfl⟩
    dsimp only at front ⊢
    split
    · exact meets_misuse _ _
    · rename_i name rest others
      split
      · refine meets_unknownCommand faithful noPath ?_
        rintro ⟨arg, member, held⟩
        exact mem_arg_of_other faithful front (others ▸ member) held
      · rename_i command found
        rw [name_of_ofName? found] at others
        refine meets_bind (meets_modify _) fun _ _ => ?_
        refine meets_bind (meets_globalSettings faithful noPath front) fun settings configured => ?_
        refine meets_bind (meets_request faithful noPath front others settings) ?_
        rintro request ⟨same, rfl, input, calls, path⟩
        unfold Request.run
        rw [same]
        cases command with
        | exportMesh => exact meets_exportMesh faithful noPath path calls configured
        | inspect => exact meets_inspect faithful noPath path calls configured
        | resolve => exact meets_resolveSource faithful noPath path calls

end

/-! ## Whole command lines -/

theorem name_injective {command other : Command} (same : command.name = other.name) :
    command = other := by
  cases command <;> cases other <;> first | rfl | exact absurd same (by decide)

theorem command_eq {globals globals' arguments : Arguments OptionKey} {command other : Command}
    {input : String} {rest : List String}
    (calls : readers.Calls args globals command arguments input)
    (front : readers.arguments Command.globalRules false args = .ok globals')
    (others : globals'.others = other.name :: rest) : command = other := by
  obtain ⟨rest', named, -⟩ := calls.named
  rw [Except.ok.inj (calls.front.symm.trans front), others] at named
  exact (name_injective (List.cons.inj named).1).symm

section
variable {fs : FileSystem}

inductive Ran (fs : FileSystem) (readers : Readers) (state : fs.State) (args : List String) :
    Outcome → fs.State → Prop
  | done {plan : Plan} {after : fs.State} (planned : readers.Plans (fs.sight state) args plan)
    (carried : plan.CarriedOut fs state after) (journal : Journal) :
    Ran fs readers state args ⟨.ok plan.report, journal⟩ after
  | stopped {stop : Stop} (within : stop.Within (readers.Untold (fs.sight state) args))
    (journal : Journal) : Ran fs readers state args ⟨.error stop, journal⟩ state

theorem run_ran (lawful : fs.Lawful) (faithful : readers.Faithful) (state : fs.State)
    (args : List String) :
    Ran fs readers state args (fs.run readers state args).1 (fs.run readers state args).2 := by
  have noPath {path : String} (gone : fs.sight state path = .noPath) :
      Path.terminator ∈ path.toList := lawful.noPath gone
  have meets : Meets (fs.sight state) (readers.Untold (fs.sight state) args)
      (commandLine readers args) (readers.Plans (fs.sight state) args) :=
    meets_commandLine faithful noPath args
  have ends := meets.ends {}
  have same : (commandLine readers args).answer (fs.sight state) {} =
    (Session.plan readers args).answer (fs.sight state) := rfl
  rw [same] at ends
  unfold FileSystem.run
  rcases ended : (Session.plan readers args).answer (fs.sight state) with ⟨stop | plan, journal⟩
  · rw [ended] at ends
    exact .stopped ends journal
  · rw [ended] at ends
    cases saved : plan.save with
    | none =>
      have carried : plan.CarriedOut fs state state := by
        unfold Plan.CarriedOut
        rw [saved]
      simp only [saved]
      exact .done ends carried journal
    | some save =>
      simp only [saved]
      change Ran fs readers state args
        ⟨plan.ending save (fs.write state save.path.text save.text).1, journal⟩
        (fs.write state save.path.text save.text).2
      rcases written : fs.write state save.path.text save.text with ⟨fault | _, after⟩
      · rw [lawful.refused written]
        have within : (Stop.failure (save.complaint fault)).Within
            (readers.Untold (fs.sight state) args) := trivial
        exact .stopped within journal
      · have carried : plan.CarriedOut fs state after := by
          unfold Plan.CarriedOut
          rw [saved]
          exact lawful.written written
        exact .done ends carried journal

/-- A command line that does not exit with code zero changes nothing. It tells why, unless it ends
for one of the listed reasons or not at all. One that exits with code zero shows a page, or does
what it planned: it writes the one file of its plan, where the path leads, or none, as every
inspection. -/
theorem failing_command_changes_nothing (fs : FileSystem) (lawful : fs.Lawful) (readers : Readers)
    (faithful : readers.Faithful) (state : fs.State) (args : List String) :
    let outcome := (fs.run readers state args).1
    let after := (fs.run readers state args).2
    (outcome.exit? ≠ some 0 → after = state) ∧
    (outcome.exit? ≠ some 0 → outcome.Told ∨
      ∃ stop, outcome.ending = .error stop ∧ readers.Untold (fs.sight state) args stop) ∧
    (outcome.exit? = some 0 →
      (∃ page, outcome.ending = .error (.page page)) ∧ after = state ∨
      ∃ plan, readers.Plans (fs.sight state) args plan ∧ outcome.ending = .ok plan.report ∧
        plan.CarriedOut fs state after) ∧
    ∀ globals rest, readers.arguments Command.globalRules false args = .ok globals →
      globals.others = Command.inspect.name :: rest → after = state := by
  intro outcome after
  have ran : Ran fs readers state args outcome after := run_ran lawful faithful state args
  clear_value outcome after
  cases ran with
  | done planned carried journal =>
    refine ⟨fun failed => absurd rfl failed, fun failed => absurd rfl failed,
      fun _ => .inr ⟨_, planned, rfl, carried⟩, fun globals rest front others => ?_⟩
    cases planned with
    | exports loads => cases command_eq loads.calls front others
    | resolves loads => cases command_eq loads.calls front others
    | inspects | prints => exact carried
  | @stopped stop within journal =>
    refine ⟨fun _ => rfl, fun failed => ?_, fun succeeded => ?_, fun _ _ _ _ => rfl⟩
    · cases stop with
      | breakdown | endless => exact .inr ⟨_, rfl, within⟩
      | page | idle | misuse | failure => exact .inl (told_of_stop journal failed nofun nofun)
    · cases stop with
      | page text => exact .inl ⟨⟨text, rfl⟩, rfl⟩
      | breakdown | idle | misuse | failure | endless => cases succeeded

end

/-! ## An export through the root -/

def boxDirectory : Directory := .ofEntries [] [(["box.scad"], some boxSource)]

def boxExport : List String := ["export", "/work/box.scad", "-o", "../out.stl"]

def boxRequest : Request where
  command := .exportMesh
  arguments := { given := [(.output, "../out.stl")], others := ["/work/box.scad"] }
  input := .ofText "/work/box.scad"
  settings := .default

theorem boxDirectory_loaded :
    (Template.ofFile boxRequest.input none).answer boxDirectory.sight = .ok boxTemplate := by
  have seen : boxDirectory.sight boxRequest.input.text = .file (some boxSource) := by
    decide +kernel
  have text : Sight.text (.file (some boxSource)) = .ok boxSource := by decide +kernel
  have stem : boxRequest.input.stem = "box" := by decide +kernel
  simp only [Template.ofFile, Inquiry.answer_bind, Inquiry.answer_sight, Inquiry.answer_pure,
      Template.ofSight, seen, text, stem, Option.getD_none, boxSource_loaded]
  rfl

theorem boxExport_ending :
    (boxDirectory.run boxExport).1.ending = .ok "Exported: ../out.stl (12 triangles)\n" := by
  have overridden : boxRequest.overrides.answer boxDirectory.sight {} = (.ok [], {}) := rfl
  have loads := loadTemplate_answer boxDirectory_loaded {}
  have starts : (Session.plan .own boxExport).answer (Directory.fileSystem.sight boxDirectory) =
    boxRequest.exportMesh.answer boxDirectory.sight {} := rfl
  unfold Directory.run FileSystem.run
  rw [starts]
  simp only [Request.exportMesh, session_bind, overridden, loads]
  decide +kernel

theorem boxExport_calls {globals arguments : Arguments OptionKey} {command : Command}
    {input : String} (calls : Readers.own.Calls boxExport globals command arguments input) :
    command = .exportMesh ∧ globals = { others := boxExport } ∧
      arguments = boxRequest.arguments ∧ input = "/work/box.scad" := by
  have front : Readers.own.arguments Command.globalRules false boxExport =
    .ok { others := boxExport } := rfl
  have later : Readers.own.arguments Command.exportMesh.rules true
    ["/work/box.scad", "-o", "../out.stl"] = .ok boxRequest.arguments := rfl
  obtain rfl : command = .exportMesh := command_eq calls front rfl
  obtain ⟨rest, named, read⟩ := calls.named
  cases calls.front.symm.trans front
  cases named
  cases read.symm.trans later
  cases calls.alone
  exact ⟨rfl, rfl, rfl, rfl⟩

/-- The paths of the call lead through the root and above the working directory. -/
theorem boxDirectory_export : ∃ mesh,
    boxTemplate.render [] .default true = .ok mesh ∧ mesh.length = 12 ∧
    (boxDirectory.run boxExport).1.ending = .ok "Exported: ../out.stl (12 triangles)\n" ∧
    Directory.fileSystem.Changes boxDirectory "../out.stl" (Stl.document mesh "box" ++ "\n")
      (boxDirectory.run boxExport).2 := by
  obtain ⟨mesh, drawn, twelve⟩ :=
    @ok_of_any _ _ (boxTemplate.render [] .default true) (·.length == 12) (by decide +kernel)
  refine ⟨mesh, drawn, by simpa using twelve, boxExport_ending, ?_⟩
  have succeeded : (boxDirectory.run boxExport).1.exit? = some 0 := by
    rw [Outcome.exit?, boxExport_ending]
  obtain ⟨-, -, effects, -⟩ := failing_command_changes_nothing Directory.fileSystem
    directory_lawful .own own_faithful boxDirectory boxExport
  rcases effects succeeded with ⟨⟨page, shown⟩, -⟩ | ⟨plan, planned, -, carried⟩
  · cases boxExport_ending.symm.trans shown
  · cases planned with
    | inspects loads => cases (boxExport_calls loads.calls).1
    | prints loads => cases (boxExport_calls loads.calls).1
    | resolves loads => cases (boxExport_calls loads.calls).1
    | exports loads configured rendered placed named =>
      obtain ⟨-, rfl, rfl, rfl⟩ := boxExport_calls loads.calls
      cases loads.overridden
      cases boxDirectory_loaded.symm.trans loads.loaded
      cases configured
      cases drawn.symm.trans rendered
      rw [placed, named] at carried
      exact carried

/-! ## A setting without a name -/

def numberedDirectory : Directory :=
  .ofEntries [] [(["c.yaml"], some "1: 2\n"), (["t.scad"], some "cube([1, 1, 1]);\n")]

/-- All files are text, and yet the command breaks down without a word. -/
theorem numberedDirectory_not_told :
    (∀ entry ∈ numberedDirectory.files, entry.2.isSome = true) ∧
    let outcome := (numberedDirectory.run ["--config", "c.yaml", "inspect", "t.scad"]).1
    outcome.exit? = some 1 ∧ ¬ outcome.Told := by
  refine ⟨by decide, ?_⟩
  intro outcome
  have failed : outcome.exit? = some 1 := by decide +kernel
  have silent : outcome.stderr.toList = [] := by decide +kernel
  refine ⟨failed, ?_⟩
  rintro (⟨-, before, rest, line, -⟩ | ⟨misused, -⟩)
  · rw [silent] at line
    simp at line
  · rw [failed] at misused
    cases misused

end Proofs

end SolidScript
