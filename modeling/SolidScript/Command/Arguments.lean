import SolidScript.Text.Similar

/-!
# Arguments

A command line is read against rules for its options. An option has a long name and perhaps a
letter; its value follows an equals sign, follows the letter directly, or is the next argument.
Letters may be joined. Two dashes alone end the options.
-/

namespace SolidScript

/-- How an option is spelled, and what its value is called if it has one. -/
structure OptionRule (κ : Type) where
  key : κ
  letter : Option Char := none
  long : String
  value : Option String := none
  about : String

inductive OptionFault where
  /-- An option that is not there, and those that are spelled like it. -/
  | unknown (name : String) (similar : List String)
  | valueMissing (name : String)
  | valueUnwanted (name : String)
deriving DecidableEq, Repr

/-- The options of a command line in order, those without a value with an empty one, and the other
arguments. -/
structure Arguments (κ : Type) where
  given : List (κ × String) := []
  others : List String := []
deriving Repr

namespace Arguments

variable {κ : Type}

/-! ## What was given -/

section

variable [DecidableEq κ]

def values (a : Arguments κ) (key : κ) : List String :=
  a.given.filterMap fun option => if option.1 = key then some option.2 else none

/-- The value of an option; of several, the last. -/
def value? (a : Arguments κ) (key : κ) : Option String := (a.values key).getLast?

def has (a : Arguments κ) (key : κ) : Bool := !(a.values key).isEmpty

def count (a : Arguments κ) (key : κ) : Nat := (a.values key).length

def first? (a : Arguments κ) (keys : List κ) : Option κ :=
  (a.given.map Prod.fst).find? fun key => keys.contains key

end

/-! ## Reading -/

/-- The options in one argument, and perhaps one more under its spelling, whose value is to come. -/
structure Piece (κ : Type) where
  given : List (κ × String) := []
  waiting : Option (κ × String) := none

def splitEquals (cs : List Char) : String × Option String :=
  match cs.dropWhile (· ≠ '=') with
  | [] => (String.ofList cs, none)
  | _ :: value => (String.ofList (cs.takeWhile (· ≠ '=')), some (String.ofList value))

def readLong (rule : OptionRule κ) (name : String) (value : Option String) :
    Except OptionFault (Piece κ) :=
  match rule.value, value with
  | some _, some value => .ok { given := [(rule.key, value)] }
  | some _, none => .ok { waiting := some (rule.key, name) }
  | none, some _ => .error (.valueUnwanted name)
  | none, none => .ok { given := [(rule.key, "")] }

/-- Options by their letters. What follows the letter of an option with a value is the value. -/
def readLetters (rules : List (OptionRule κ)) : List Char → Except OptionFault (Piece κ)
  | [] => .ok {}
  | c :: cs =>
    let name := String.ofList ['-', c]
    match rules.find? fun rule => rule.letter = some c with
    | none => .error (.unknown name [])
    | some rule =>
      if rule.value.isSome then
        if cs.isEmpty then .ok { waiting := some (rule.key, name) }
        else .ok { given := [(rule.key, String.ofList cs)] }
      else do
        let piece ← readLetters rules cs
        return { piece with given := (rule.key, "") :: piece.given }

def readOption (rules : List (OptionRule κ)) (cs : List Char) : Except OptionFault (Piece κ) :=
  let (name, value) := splitEquals cs
  match rules.find? fun rule => rule.long = name with
  | some rule => readLong rule name value
  | none =>
    if cs.take 2 = ['-', '-'] then
      .error (.unknown name (Text.similar (rules.map OptionRule.long) name))
    else readLetters rules (cs.drop 1)

def isOption (cs : List Char) : Bool := cs.head? = some '-' && 1 < cs.length

def prepend (given : List (κ × String)) (a : Arguments κ) : Arguments κ :=
  { a with given := given ++ a.given }

/-- Read a command line. Unless `mixed` is set, the first argument that is no option ends them. -/
def read (rules : List (OptionRule κ)) (mixed : Bool) :
    List String → Except OptionFault (Arguments κ)
  | [] => .ok {}
  | arg :: rest =>
    if arg = "--" then .ok { others := rest }
    else if isOption arg.toList then
      match readOption rules arg.toList with
      | .error fault => .error fault
      | .ok ⟨given, none⟩ => (read rules mixed rest).map (prepend given)
      | .ok ⟨given, some (key, name)⟩ =>
        match rest with
        | [] => .error (.valueMissing name)
        | value :: rest => (read rules mixed rest).map (prepend (given ++ [(key, value)]))
    else if mixed then
      (read rules mixed rest).map fun a => { a with others := arg :: a.others }
    else .ok { others := arg :: rest }

end Arguments

end SolidScript
