import SolidScript.Text.Line

/-!
# Paths

A path as its parts between slashes. Empty parts and single dots say nothing and are left out;
double dots are kept, since they may lead elsewhere than they seem to.
-/

namespace SolidScript

structure Path where
  /-- The slashes in front, if the path does not start from the working directory. -/
  root : String
  parts : List String
deriving DecidableEq, Repr

namespace Path

/-- The slashes in front of a path: exactly two have a meaning of their own. -/
def rootOf : List Char → String
  | '/' :: '/' :: '/' :: _ => "/"
  | '/' :: '/' :: _ => "//"
  | '/' :: _ => "/"
  | _ => ""

/-- All parts of a path, those that say nothing included. -/
def rawParts (s : String) : List String := (Text.fields '/' s.toList).map String.ofList

def ofText (s : String) : Path where
  root := rootOf s.toList
  parts := (rawParts s).filter fun part => part ≠ "" && part ≠ "."

/-- The text of a path; one without parts is the working directory. -/
def text (p : Path) : String :=
  let text := p.root ++ String.intercalate "/" p.parts
  if text.isEmpty then "." else text

def child (p : Path) (name : String) : Path := { p with parts := p.parts ++ [name] }

/-- The character that no path may hold. -/
def terminator : Char := Char.ofNat 0

def nameLimit : Nat := 255

def textLimit : Nat := 4095

/-! ## Names -/

def name (p : Path) : String := p.parts.getLast?.getD ""

/-- The name of a file without its suffix. A suffix starts at the last dot, which is neither the
first nor the last character of the name. -/
def stemOf (name : String) : String :=
  let reversed := name.toList.reverse
  match reversed.takeWhile (· ≠ '.'), reversed.dropWhile (· ≠ '.') with
  | _ :: _, _ :: c :: stem => String.ofList (c :: stem).reverse
  | _, _ => name

def stem (p : Path) : String := stemOf p.name

def withSuffix (p : Path) (suffix : String) : Path :=
  { p with parts := p.parts.dropLast ++ [p.stem ++ suffix] }

end Path

end SolidScript
