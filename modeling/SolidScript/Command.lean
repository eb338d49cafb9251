import SolidScript.Command.Arguments

namespace SolidScript

inductive Command where
  | exportMesh
  | inspect
  | resolve
deriving DecidableEq, Repr

inductive OptionKey where
  | help
  | version
  | verbose
  | config
  | output
  | define
  | name
  | noClamp
  | format
deriving DecidableEq, Repr

def programName : String := "tinyscad"

def versionLine : String := programName ++ ", version 0.1.0\n"

namespace Command

def all : List Command := [.exportMesh, .inspect, .resolve]

def name : Command → String
  | .exportMesh => "export"
  | .inspect => "inspect"
  | .resolve => "resolve"

def ofName? (name : String) : Option Command := all.find? fun command => command.name = name

def about : Command → String
  | .exportMesh => "Evaluate a template and write an ASCII STL file."
  | .inspect => "Show template metadata, triangle count and bounds without exporting."
  | .resolve => "Print the template source with parameter values prepended."

/-! ## Options -/

def helpRule : OptionRule OptionKey :=
  { key := .help, long := "--help", about := "Show this message and exit." }

def globalRules : List (OptionRule OptionKey) :=
  [{ key := .version, long := "--version", about := "Show the version and exit." },
   { key := .verbose, letter := some 'v', long := "--verbose",
     about := "Increase log verbosity (-v info, -vv debug)." },
   { key := .config, long := "--config", value := some "FILE",
     about := "YAML file with engine settings (segments, loop limits)." },
   helpRule]

def defineRule : OptionRule OptionKey :=
  { key := .define, letter := some 'D', long := "--define", value := some "KEY=VALUE",
    about := "Override a template parameter. May be repeated." }

def outputRule (about : String) : OptionRule OptionKey :=
  { key := .output, letter := some 'o', long := "--output", value := some "PATH", about }

def rules : Command → List (OptionRule OptionKey)
  | .exportMesh =>
    [outputRule "Output STL path. Defaults to the input name with .stl extension.", defineRule,
     { key := .name, long := "--name", value := some "TEXT",
       about := "Solid name. Defaults to the template id." },
     { key := .noClamp, long := "--no-clamp",
       about := "Do not clamp parameter overrides to their declared range." },
     helpRule]
  | .inspect =>
    [defineRule,
     { key := .format, long := "--format", value := some "[text|json]",
       about := "Inspection output format.  [default: text]" },
     helpRule]
  | .resolve =>
    [defineRule, outputRule "Write the resolved source to this file instead of stdout.", helpRule]

/-! ## Pages

The group of commands as a whole stands for no command. -/

def title : Option Command → String
  | none => programName
  | some command => programName ++ " " ++ command.name

def usageLine (command : Option Command) : String :=
  "Usage: " ++ title command ++
    if command.isSome then " [OPTIONS] INPUT_FILE\n" else " [OPTIONS] COMMAND [ARGS]...\n"

def table (heading : String) (rows : List (String × String)) : String :=
  let width := rows.foldl (fun n row => max n row.1.length) 0
  let line (row : String × String) : String :=
    "  " ++ row.1 ++ String.ofList (List.replicate (width - row.1.length + 2) ' ') ++ row.2 ++ "\n"
  "\n" ++ heading ++ ":\n" ++ String.join (rows.map line)

def optionRow (rule : OptionRule OptionKey) : String × String :=
  let letter := match rule.letter with
    | some c => String.ofList ['-', c, ',', ' ']
    | none => ""
  let value := match rule.value with
    | some value => " " ++ value
    | none => ""
  (letter ++ rule.long ++ value, rule.about)

def helpPage : Option Command → String
  | none =>
    usageLine none ++ "\n  tinyscad: parameterized solid templates to printable meshes.\n" ++
      table "Options" (globalRules.map optionRow) ++
      table "Commands" (all.map fun command => (command.name, command.about))
  | some command =>
    usageLine (some command) ++ "\n  " ++ command.about ++ "\n" ++
      table "Options" (command.rules.map optionRow)

end Command

end SolidScript
