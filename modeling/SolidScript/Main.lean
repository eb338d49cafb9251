import SolidScript.Command.Outcome

/-!
# The program

The outer layer: it answers a session's inquiries from the disk, writes the file that the session
planned, and prints what it said.
-/

namespace SolidScript

/-- The fault behind an error of the system, whose number may come negated. -/
def PathFault.ofError : IO.Error → PathFault
  | .noFileOrDirectory .. => noEntry
  | .inappropriateType _ code _ => if code = 20 || code = -20 then notADirectory else isADirectory
  | .invalidArgument _ code _ => if code = 36 then nameTooLong else invalid
  | .permissionDenied .. => permissionDenied
  | .resourceExhausted .. => noSpace
  | e => { code := 5, reason := toString e }

def PathFault.absences : List PathFault := [noEntry, notADirectory, nameTooLong]

def Sight.ofDisk (path : String) : IO Sight := do
  if path.toList.contains Path.terminator then return .noPath
  try
    let bytes ← IO.FS.readBinFile path
    return .file (String.fromUTF8? bytes)
  catch e =>
    let fault := PathFault.ofError e
    if fault = .isADirectory then return .directory []
    if fault = .permissionDenied then return .forbidden false
    if PathFault.absences.contains fault then return .absent fault
    return .failing fault

def Inquiry.perform {α : Type} : Inquiry α → IO α
  | .done a => return a
  | .look path next => do perform (next (← Sight.ofDisk path))

def Save.perform (save : Save) : IO (Except PathFault Unit) := do
  try
    IO.FS.writeFile save.path.text save.text
    return .ok ()
  catch e => return .error (.ofError e)

def Plan.perform (plan : Plan) : IO (Except Stop String) :=
  match plan.save with
  | none => return .ok plan.report
  | some save => return plan.ending save (← save.perform)

end SolidScript

open SolidScript in
def main (args : List String) : IO UInt32 := do
  let (result, journal) ← (Session.plan .own args).perform
  let ending ← match result with
    | .ok plan => plan.perform
    | .error stop => pure (.error stop)
  let outcome : Outcome := ⟨ending, journal⟩
  IO.eprint outcome.stderr
  IO.print outcome.stdout
  return outcome.exitCode.toUInt32
