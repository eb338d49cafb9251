import SolidScript.Command.Fault
import SolidScript.Command.Journal
import SolidScript.Files.Inquiry
import SolidScript.Inspection
import SolidScript.Mesh.Stl
import SolidScript.Settings.File
import SolidScript.Template.File

/-!
# Sessions

A session turns a command line into a plan: what to print, and perhaps a file to write before. It
looks at files and keeps a journal, but it changes nothing.
-/

namespace SolidScript

/-- What a session reads with: the options in arguments under some rules, and settings. -/
structure Readers where
  arguments : List (OptionRule OptionKey) → Bool → List String →
    Except OptionFault (Arguments OptionKey)
  settings : Settings.Reader

def Readers.own : Readers := { arguments := Arguments.read, settings := .own }

/-- A computation that looks at files, keeps a journal and may stop. The journal outlives a stop. -/
abbrev Session := ExceptT Stop (StateT Journal Inquiry)

structure Save where
  path : Path
  text : String
  /-- What is written, for the message of a failure. -/
  what : String := ""

def Save.complaint (save : Save) (fault : PathFault) : String :=
  "Cannot write " ++ save.what ++ save.path.text ++ ": " ++ fault.message save.path.text

structure Plan where
  save : Option Save := none
  /-- What is printed once the file is written. -/
  report : String

namespace Session

def see (path : String) : Session Sight := liftM (Inquiry.sight path : Inquiry Sight)

def note (entry : Note) : Session Unit := modify (·.add entry)

def misuse {α : Type} (command : Option Command) (fault : UsageFault) : Session α :=
  throw (.misuse command fault)

def fail {α : Type} (message : String) : Session α := throw (.failure message)

/-! ## Reading the command line -/

def readArguments (readers : Readers) (command : Option Command)
    (rules : List (OptionRule OptionKey)) (mixed : Bool) (args : List String) :
    Session (Arguments OptionKey) :=
  match readers.arguments rules mixed args with
  | .ok arguments => return arguments
  | .error fault => misuse command (.option fault)

def showPage (command : Option Command) (arguments : Arguments OptionKey) : Session Unit :=
  match arguments.first? [.version, .help] with
  | some .version => throw (.page versionLine)
  | some _ => throw (.page (Command.helpPage command))
  | none => return

def requireFile (command : Option Command) (parameter path : String) : Session Path := do
  match ← see path with
  | .noPath => throw (.breakdown .noPath)
  | .absent _ => misuse command (.noSuchFile parameter path)
  | .directory _ | .forbidden true => misuse command (.notAFile parameter path)
  | .forbidden false => misuse command (.notReadable parameter "File" path)
  | .file _ | .failing _ => return .ofText path

/-- A file to be written need not be there, but it has to be named by a path, and what is there has
to be readable. -/
def requirePath (command : Command) (path : Option String) : Session Unit :=
  match path with
  | some path => do
    match ← see path with
    | .noPath => throw (.breakdown .noPath)
    | .forbidden _ => misuse (some command) (.notReadable "-o' / '--output" "Path" path)
    | _ => return
  | none => return

/-- The value of a parameter before and after the first equals sign. The value is a number. -/
def readOverride (item : String) : Except UsageFault (String × Float) :=
  let key := Text.trim (item.toList.takeWhile (· ≠ '='))
  match item.toList.dropWhile (· ≠ '=') with
  | [] => .error (.notAnOverride item)
  | _ :: value =>
    if key.isEmpty then .error (.notAnOverride item)
    else
      match Number.ofText? value with
      | some x => .ok (String.ofList key, x)
      | none => .error (.notNumeric (String.ofList key) (String.ofList (Text.trim value)))

def readOverrides (items : List String) : Except UsageFault (Bindings Float) := do
  return .ofPairs (← items.mapM readOverride)

/-! ## Steps -/

def loadSettings (readers : Readers) (path : Path) : Session Settings := do
  match ← liftM (readers.settings.ofFile path : Inquiry (Except SettingsFileError Settings)) with
  | .ok settings =>
    note (.usingSettings path.text)
    return settings
  | .error (.breakdown cause) => throw (.breakdown cause)
  | .error e => fail e.message

def tokenCount (source : String) : Nat :=
  match scan source with
  | .ok stream => stream.tokens.length + 1
  | .error _ => 0

def loadTemplate (path : Path) : Session Template := do
  match ← liftM (Template.ofFile path none : Inquiry (Except TemplateFileError Template)) with
  | .ok t =>
    note (.parsed (tokenCount t.source) t.program.length)
    note (.loaded t.id t.metadata.params.length)
    return t
  | .error (.breakdown cause) => throw (.breakdown cause)
  | .error e => fail e.message

def render (t : Template) (overrides : Bindings Float) (settings : Settings) (clamp : Bool) :
    Session Mesh := do
  match t.rendering overrides settings clamp with
  | .error e => fail e.message
  | .ok rendering =>
    note (.rendering t.id rendering.params)
    rendering.loops.forM fun entry => note (.loop entry)
    match rendering.mesh with
    | .error (.eval .countTooLarge) => throw (.breakdown .countTooLarge)
    | .error (.eval .endlessLoop) => throw .endless
    | .error e => fail e.message
    | .ok mesh =>
      note (.evaluated t.program.length mesh.length)
      return mesh

def resolve (t : Template) (overrides : Bindings Float) : Session (Bindings Float) :=
  match t.resolve overrides true with
  | .ok values => return values
  | .error e => fail e.message

/-! ## Commands -/

structure Request where
  command : Command
  arguments : Arguments OptionKey
  input : Path
  settings : Settings

namespace Request

def overrides (request : Request) : Session (Bindings Float) :=
  match readOverrides (request.arguments.values .define) with
  | .ok overrides => return overrides
  | .error fault => misuse (some request.command) fault

def output? (request : Request) : Option Path := (request.arguments.value? .output).map .ofText

/-- Write the mesh of a template. The solid has the template's identifier, unless it is given a
name. -/
def exportMesh (request : Request) : Session Plan := do
  let overrides ← request.overrides
  let t ← loadTemplate request.input
  let mesh ← render t overrides request.settings (!request.arguments.has .noClamp)
  let output := request.output?.getD (request.input.withSuffix ".stl")
  let name := (request.arguments.value? .name).getD ""
  let document := Stl.document mesh (if name.isEmpty then t.id else name)
  return {
    save := some { path := output, text := document ++ "\n", what := "STL to " }
    report := "Exported: " ++ output.text ++ " (" ++ toString mesh.length ++ " triangles)\n" }

def inspect (request : Request) : Session Plan := do
  let overrides ← request.overrides
  let t ← loadTemplate request.input
  let values ← resolve t overrides
  let mesh ← render t values request.settings false
  let inspection := Inspection.ofMesh t.metadata values mesh
  let json := request.arguments.value? .format = some "json"
  return { report := if json then inspection.json.render ++ "\n" else inspection.text }

def resolve (request : Request) : Session Plan := do
  let overrides ← request.overrides
  let t ← loadTemplate request.input
  let values ← Session.resolve t overrides
  let text := resolvedSource t.source values
  match request.output? with
  | none => return { report := text }
  | some output =>
    return { save := some { path := output, text }, report := "Resolved: " ++ output.text ++ "\n" }

def run (request : Request) : Session Plan :=
  match request.command with
  | .exportMesh => request.exportMesh
  | .inspect => request.inspect
  | .resolve => request.resolve

end Request

def formats : List String := ["text", "json"]

def request (readers : Readers) (command : Command) (settings : Settings) (args : List String) :
    Session Request := do
  let arguments ← readArguments readers (some command) command.rules true args
  showPage (some command) arguments
  requirePath command (arguments.value? .output)
  let format := (arguments.value? .format).getD "text"
  if !formats.contains format then misuse (some command) (.unknownFormat format)
  match arguments.others with
  | [] => misuse (some command) .missingInput
  | path :: extra =>
    let input ← requireFile (some command) "INPUT_FILE" path
    if !extra.isEmpty then misuse (some command) (.extraArguments extra)
    return { command, arguments, input, settings }

def globalSettings (readers : Readers) (config : Option Path) : Session Settings :=
  match config with
  | some path => loadSettings readers path
  | none => return .default

/-- The options in front of the command: they may ask for a page, or name a file with settings. -/
def globalOptions (readers : Readers) (args : List String) :
    Session (Arguments OptionKey × Option Path) := do
  let arguments ← readArguments readers none Command.globalRules false args
  showPage none arguments
  let config ← (arguments.value? .config).mapM (requireFile none "--config")
  return (arguments, config)

/-- There is no such command. If its name looks like an option, the line is first read once more
from there, since what comes after two dashes may well be meant as options. -/
def unknownCommand {α : Type} (readers : Readers) (name : String) (rest : List String) :
    Session α := do
  if Arguments.isOption name.toList then
    let _ ← globalOptions readers (name :: rest)
  misuse none (.unknownCommand name)

def commandLine (readers : Readers) (args : List String) : Session Plan := do
  if args.isEmpty then throw .idle
  let (arguments, config) ← globalOptions readers args
  match arguments.others with
  | [] => misuse none .missingCommand
  | name :: rest =>
    match Command.ofName? name with
    | none => unknownCommand readers name rest
    | some command =>
      modify fun journal => { journal with verbosity := arguments.count .verbose }
      let settings ← globalSettings readers config
      let request ← request readers command settings rest
      request.run

end Session

end SolidScript
