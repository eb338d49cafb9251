import SolidScript.Breakdown
import SolidScript.Command

/-!
# How a command stops

A command that does not come to its end failed, was called in a wrong way, or runs on. A wrong call
is told together with the usage, except when an option lacks its value or has one too many.
-/

namespace SolidScript

inductive UsageFault where
  | option (fault : OptionFault)
  | missingCommand
  | unknownCommand (name : String)
  | missingInput
  | noSuchFile (parameter path : String)
  | notAFile (parameter path : String)
  | notReadable (parameter kind path : String)
  | unknownFormat (given : String)
  | extraArguments (args : List String)
  | notAnOverride (item : String)
  | notNumeric (key value : String)
deriving DecidableEq, Repr

namespace UsageFault

def message : UsageFault → String
  | .option (.unknown name similar) =>
    "No such option " ++ Text.quoted name ++ "." ++ Text.suggestion similar
  | .option (.valueMissing name) => "Option " ++ Text.quoted name ++ " requires an argument."
  | .option (.valueUnwanted name) => "Option " ++ Text.quoted name ++ " does not take a value."
  | .missingCommand => "Missing command."
  | .unknownCommand name =>
    "No such command " ++ Text.quoted name ++ "." ++
      Text.suggestion (Text.similar (Command.all.map Command.name) name)
  | .missingInput => "Missing argument 'INPUT_FILE'."
  | .noSuchFile parameter path =>
    "Invalid value for '" ++ parameter ++ "': File " ++ Text.quoted path ++ " does not exist."
  | .notAFile parameter path =>
    "Invalid value for '" ++ parameter ++ "': File " ++ Text.quoted path ++ " is a directory."
  | .notReadable parameter kind path =>
    "Invalid value for '" ++ parameter ++ "': " ++ kind ++ " " ++ Text.quoted path ++
      " is not readable."
  | .unknownFormat given =>
    "Invalid value for '--format': " ++ Text.quoted given ++ " is not one of 'text', 'json'."
  | .extraArguments args =>
    "Got unexpected extra argument" ++ (if args.length = 1 then "" else "s") ++ " (" ++
      String.intercalate " " args ++ ")"
  | .notAnOverride item =>
    "Invalid parameter override " ++ Text.quoted item ++ ", expected KEY=VALUE"
  | .notNumeric key value =>
    "Parameter " ++ Text.quoted key ++ " must be numeric, got " ++ Text.quoted value

def showsUsage : UsageFault → Bool
  | .option (.valueMissing _) => false
  | .option (.valueUnwanted _) => false
  | _ => true

end UsageFault

inductive Stop where
  /-- A page was asked for. -/
  | page (text : String)
  /-- There was nothing to do; the page tells what there is. -/
  | idle
  | misuse (command : Option Command) (fault : UsageFault)
  | failure (message : String)
  | breakdown (cause : Breakdown)
  /-- A loop never ends, and neither does the command. -/
  | endless
deriving DecidableEq, Repr

namespace Stop

/-- The exit code, if the command ends. -/
def exit? : Stop → Option Nat
  | .page _ => some 0
  | .idle => some 2
  | .misuse .. => some 2
  | .failure _ => some 1
  | .breakdown _ => some 1
  | .endless => none

def stdout : Stop → String
  | .page text => text
  | _ => ""

def usageHint (command : Option Command) : String :=
  Command.usageLine command ++ "Try '" ++ Command.title command ++ " --help' for help.\n\n"

def stderr : Stop → String
  | .page _ => ""
  | .idle => Command.helpPage none
  | .misuse command fault =>
    (if fault.showsUsage then usageHint command else "") ++ "Error: " ++ fault.message ++ "\n"
  | .failure message => "Error: " ++ message ++ "\n"
  | .breakdown _ => ""
  | .endless => ""

end Stop

end SolidScript
