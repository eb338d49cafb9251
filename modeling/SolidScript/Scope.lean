import SolidScript.Bindings
import SolidScript.Value

/-!
# Scopes

A scope is a frame of bindings inside the frames around it. A name is looked up from the inside
out; a binding is made in the innermost frame only, so it hides an outer one and never changes it.
-/

namespace SolidScript

abbrev Frame := Bindings Value

/-- The innermost frame and the frames around it, nearest first. -/
structure Scope where
  inner : Frame
  outer : List Frame

namespace Scope

def root (frame : Frame) : Scope := ⟨frame, []⟩

/-- The value of a name in the nearest of some frames that binds it. -/
def lookup (frames : List Frame) (name : String) : Option Value :=
  frames.findSome? (·.get? name)

def frames (scope : Scope) : List Frame := scope.inner :: scope.outer

def get? (scope : Scope) (name : String) : Option Value := lookup scope.frames name

def set (scope : Scope) (name : String) (value : Value) : Scope :=
  { scope with inner := scope.inner.set name value }

def enter (scope : Scope) (frame : Frame) : Scope := ⟨frame, scope.frames⟩

/-- The scope around the innermost frame; the root has none around it. -/
def leave (scope : Scope) : Scope :=
  match scope.outer with
  | [] => scope
  | frame :: outer => ⟨frame, outer⟩

theorem get?_set_self (scope : Scope) (name : String) (value : Value) :
    (scope.set name value).get? name = some value := by
  simp [get?, lookup, frames, set, Bindings.get?_set_self]

theorem get?_set_of_ne (scope : Scope) {name other : String} (value : Value) (h : other ≠ name) :
    (scope.set name value).get? other = scope.get? other := by
  simp [get?, lookup, frames, set, List.findSome?_cons, Bindings.get?_set_of_ne _ value h]

end Scope

end SolidScript
