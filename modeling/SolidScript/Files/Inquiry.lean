import SolidScript.Breakdown
import SolidScript.Files.Path

/-!
# Inquiries

A computation that looks at files: it ends with a result, or it asks what stands at a path and
goes on with the answer. An inquiry changes nothing, so it can be answered from any file system.
-/

namespace SolidScript

/-- What stands at a path: nothing, a directory with its names, or a file with its text, unless its
bytes are none. A text that holds the character that ends a path is no path at all. -/
inductive Sight where
  | noPath
  | absent (fault : PathFault)
  | directory (names : List String)
  | file (text : Option String)
  /-- A file or a directory that may not be read. -/
  | forbidden (isFolder : Bool)
  /-- A file that may be read, and yet reading it fails. -/
  | failing (fault : PathFault)
deriving DecidableEq, Repr

inductive ReadFault where
  | path (fault : PathFault)
  | breakdown (cause : Breakdown)
deriving DecidableEq, Repr

/-- The text of a file that is in sight, its line endings folded. -/
def Sight.text : Sight → Except ReadFault String
  | .noPath => .error (.breakdown .noPath)
  | .absent fault => .error (.path fault)
  | .directory _ => .error (.path .isADirectory)
  | .forbidden _ => .error (.path .permissionDenied)
  | .failing fault => .error (.path fault)
  | .file none => .error (.breakdown .undecodable)
  | .file (some text) => .ok (String.ofList (Text.foldLineEndings text.toList))

inductive Inquiry (α : Type) where
  | done (a : α)
  | look (path : String) (next : Sight → Inquiry α)

namespace Inquiry

variable {α β : Type}

def bind : Inquiry α → (α → Inquiry β) → Inquiry β
  | .done a, f => f a
  | .look path next, f => .look path fun sight => bind (next sight) f

instance : Monad Inquiry where
  pure := .done
  bind := bind

def sight (path : String) : Inquiry Sight := .look path .done

def answer (see : String → Sight) : Inquiry α → α
  | .done a => a
  | .look path next => answer see (next (see path))

@[simp] theorem answer_pure (see : String → Sight) (a : α) : answer see (pure a) = a := rfl

@[simp] theorem answer_sight (see : String → Sight) (path : String) :
    (sight path).answer see = see path := rfl

@[simp] theorem answer_bind (see : String → Sight) (x : Inquiry α) (f : α → Inquiry β) :
    (x >>= f).answer see = (f (x.answer see)).answer see := by
  induction x with
  | done a => rfl
  | look path next ih => exact ih (see path)

end Inquiry

end SolidScript
