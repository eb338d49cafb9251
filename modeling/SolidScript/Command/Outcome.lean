import SolidScript.Command.Session
import SolidScript.Files.Directory
import SolidScript.Text.Plain

/-!
# Outcomes

What a command leaves behind: its exit code, what it printed, and the file system. A file is written
only at the very end of a session that did not stop. Reports and messages are printed as plain
text; the journal is printed as it is.
-/

namespace SolidScript

/-- How a command ended: with a report, or by a stop; and its journal. -/
structure Outcome where
  ending : Except Stop String
  journal : Journal

namespace Outcome

/-- The exit code of a command that ends. -/
def exit? (outcome : Outcome) : Option Nat :=
  match outcome.ending with
  | .ok _ => some 0
  | .error stop => stop.exit?

/-- The exit code as it is handed over, which a command without end never does. -/
def exitCode (outcome : Outcome) : Nat := outcome.exit?.getD 1

/-- What is printed has its paired line endings folded, also where two pieces meet. -/
def printed (s : String) : String := String.ofList (Text.foldPairedEndings s.toList)

def stdout (outcome : Outcome) : String :=
  printed <| Text.plain <|
    match outcome.ending with
    | .ok report => report
    | .error stop => stop.stdout

/-- The journal comes before the message of a stop. -/
def stderr (outcome : Outcome) : String :=
  printed <| outcome.journal.text ++
    match outcome.ending with
    | .ok _ => ""
    | .error stop => Text.plain stop.stderr

end Outcome

def Session.plan (readers : Readers) (args : List String) :
    Inquiry (Except Stop Plan × Journal) :=
  StateT.run (ExceptT.run (commandLine readers args)) {}

def Plan.ending (plan : Plan) (save : Save) : Except PathFault Unit → Except Stop String
  | .ok () => .ok plan.report
  | .error fault => .error (.failure (save.complaint fault))

/-- Run a command line in a state of a file system. -/
def FileSystem.run (fs : FileSystem) (readers : Readers) (state : fs.State) (args : List String) :
    Outcome × fs.State :=
  match (Session.plan readers args).answer (fs.sight state) with
  | (.error stop, journal) => (⟨.error stop, journal⟩, state)
  | (.ok plan, journal) =>
    match plan.save with
    | none => (⟨.ok plan.report, journal⟩, state)
    | some save =>
      let (written, after) := fs.write state save.path.text save.text
      (⟨plan.ending save written, journal⟩, after)

def Directory.run (dir : Directory) (args : List String) : Outcome × Directory :=
  fileSystem.run .own dir args

end SolidScript
