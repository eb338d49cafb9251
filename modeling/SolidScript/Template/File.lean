import SolidScript.Files.Inquiry
import SolidScript.Template

namespace SolidScript

inductive TemplateFileError where
  | unreadable (path : String) (fault : PathFault)
  | noDirectory (path : String)
  | template (fault : TemplateFault)
  | breakdown (cause : Breakdown)
deriving Repr

def TemplateFileError.message : TemplateFileError → String
  | .unreadable path fault => "Cannot read template: " ++ fault.message path
  | .noDirectory path => "Template directory not found: " ++ path
  | .template fault => fault.message
  | .breakdown cause => cause.message

namespace Template

def suffix : String := ".scad"

/-- The template in a file that is in sight. Without an identifier to fall back on the file's name
is taken. -/
def ofSight (path : Path) (fallback : Option String) (sight : Sight) :
    Except TemplateFileError Template :=
  match sight.text with
  | .error (.path fault) => .error (.unreadable path.text fault)
  | .error (.breakdown cause) => .error (.breakdown cause)
  | .ok source => (ofSource source (fallback.getD path.stem)).mapError .template

def ofFile (path : Path) (fallback : Option String) : Inquiry (Except TemplateFileError Template) :=
  do return ofSight path fallback (← Inquiry.sight path.text)

def ofFiles : List Path → Inquiry (Except TemplateFileError (List Template))
  | [] => return .ok []
  | path :: paths => do
    match ← ofFile path none with
    | .error e => return .error e
    | .ok template =>
      match ← ofFiles paths with
      | .error e => return .error e
      | .ok templates => return .ok (template :: templates)

def isTemplateName (name : String) : Bool := suffix.toList.isSuffixOf name.toList

/-- The templates of a directory, in the order of the names of their files. A path that is too long
is not merely one where no directory is found. -/
def ofDirectory (path : Path) : Inquiry (Except TemplateFileError (List Template)) := do
  match ← Inquiry.sight path.text with
  | .directory names =>
    let names := (names.filter isTemplateName).mergeSort fun a b => a ≤ b
    ofFiles (names.map path.child)
  | .forbidden true => return .ok []
  | .absent fault =>
    if fault = .nameTooLong then return .error (.breakdown (.refused path.text fault))
    else return .error (.noDirectory path.text)
  | _ => return .error (.noDirectory path.text)

end Template

end SolidScript
