import SolidScript.Files.Inquiry
import SolidScript.Settings.Check
import SolidScript.Yaml.Document

namespace SolidScript

inductive SettingsFileError where
  | unreadable (path : String) (fault : PathFault)
  | malformed
  | notAMapping
  | invalid (faults : List (String × SettingFault))
  | breakdown (cause : Breakdown)
deriving DecidableEq, Repr

def SettingsFileError.message : SettingsFileError → String
  | .unreadable path fault => "Cannot read config file: " ++ fault.message path
  | .malformed => "Invalid YAML in config"
  | .notAMapping => "Config top-level YAML value must be a mapping"
  | .invalid _ => "Config validation failed"
  | .breakdown cause => cause.message

namespace Settings

/-- The entries of a mapping as fields; all keys have to be texts. A text that is broken is no name
of a setting either way. -/
def fieldsOf? (entries : List (Datum × Datum)) : Option (Bindings Datum) :=
  entries.mapM fun entry =>
    match entry.1 with
    | .text name => some (name, entry.2)
    | .broken name => some (name, entry.2)
    | _ => none

/-- How settings are read: what a document says, and which settings the fields of a mapping give. -/
structure Reader where
  document : String → Except Yaml.Fault Datum
  fields : Bindings Datum → Except (List (String × SettingFault)) Settings

namespace Reader

def own : Reader := { document := Yaml.datumOf, fields := Settings.ofFields }

def ofDocument (reader : Reader) (source : String) : Except SettingsFileError Settings :=
  match reader.document source with
  | .error .malformed => .error .malformed
  | .error fault => .error (.breakdown (.document fault))
  | .ok .null => .ok default
  | .ok (.mapping entries) =>
    match fieldsOf? entries with
    | some fields => (reader.fields fields).mapError .invalid
    | none => .error (.breakdown .namelessSetting)
  | .ok _ => .error .notAMapping

def ofFile (reader : Reader) (path : Path) : Inquiry (Except SettingsFileError Settings) := do
  match (← Inquiry.sight path.text).text with
  | .error (.path fault) => return .error (.unreadable path.text fault)
  | .error (.breakdown cause) => return .error (.breakdown cause)
  | .ok source => return reader.ofDocument source

end Reader

def ofFile (path : Path) : Inquiry (Except SettingsFileError Settings) := Reader.own.ofFile path

end Settings

end SolidScript
