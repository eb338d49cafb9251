import SolidScript.Number.Layout
import SolidScript.Text.Quoted

/-!
# JSON

A report as JSON, one entry to a line and indented by two spaces a level. Texts are ASCII: any other
character is given by its UTF-16 units. Doubles have the fewest digits that identify them; those
that are not finite are named, which JSON itself does not provide for.
-/

namespace SolidScript

inductive Json where
  | null
  | integer (n : Int)
  | real (x : Float)
  | text (s : String)
  | array (items : List Json)
  | object (fields : List (String × Json))
deriving Repr, Inhabited

namespace Json

/-! ## Texts -/

/-- One UTF-16 unit after a backslash. -/
def unitEscape (n : Nat) : List Char := '\\' :: 'u' :: Text.hexDigits 4 n

/-- A code point above the first plane is a pair of units, ten bits in each. -/
def pointEscape (n : Nat) : List Char :=
  if n < 0x10000 then unitEscape n
  else unitEscape (0xD800 + (n - 0x10000) / 0x400) ++ unitEscape (0xDC00 + (n - 0x10000) % 0x400)

def charText (c : Char) : List Char :=
  if c = '"' || c = '\\' then ['\\', c]
  else if c = '\n' then ['\\', 'n']
  else if c = '\r' then ['\\', 'r']
  else if c = '\t' then ['\\', 't']
  else if c.toNat = 0x08 then ['\\', 'b']
  else if c.toNat = 0x0C then ['\\', 'f']
  else if ' ' ≤ c && c ≤ '~' then [c]
  else pointEscape c.toNat

def quoted (s : String) : String := String.ofList ('"' :: s.toList.flatMap charText ++ ['"'])

/-! ## Numbers -/

def realText (x : Float) : String :=
  match Number.exact x with
  | .nan => "NaN"
  | .infinite negative => if negative then "-Infinity" else "Infinity"
  | .finite .. => Number.text x

/-! ## Values -/

def lineBreak (level : Nat) : String := "\n" ++ String.ofList (List.replicate (2 * level) ' ')

mutual

def renderAt (level : Nat) : Json → String
  | .null => "null"
  | .integer n => String.ofList (Number.integerText n)
  | .real x => realText x
  | .text s => quoted s
  | .array [] => "[]"
  | .array (item :: rest) =>
    "[" ++ lineBreak (level + 1) ++ item.renderAt (level + 1) ++ itemsAt (level + 1) rest ++
      lineBreak level ++ "]"
  | .object [] => "\x7b\x7d"
  | .object ((key, value) :: rest) =>
    "\x7b" ++ lineBreak (level + 1) ++ quoted key ++ ": " ++ value.renderAt (level + 1) ++
      fieldsAt (level + 1) rest ++ lineBreak level ++ "\x7d"

def itemsAt (level : Nat) : List Json → String
  | [] => ""
  | item :: rest => "," ++ lineBreak level ++ item.renderAt level ++ itemsAt level rest

def fieldsAt (level : Nat) : List (String × Json) → String
  | [] => ""
  | (key, value) :: rest =>
    "," ++ lineBreak level ++ quoted key ++ ": " ++ value.renderAt level ++ fieldsAt level rest

end

def render (j : Json) : String := j.renderAt 0

end Json

end SolidScript
