import SolidScript.Number.Reading

/-!
# Numbers in settings given as texts

A setting that is a number may be given as a text. An integer may then have zeros in front, a point
with zeros after it and marks between its digits; a real may have marks anywhere inside. A mark is
an underscore.
-/

namespace SolidScript.Settings

open SolidScript.Text

/-! ## Marks -/

/-- Whether every mark is alone and has something on both sides. -/
def marksInside : (before : Bool) → List Char → Bool
  | _, [] => true
  | before, c :: cs =>
    if c = '_' then before && !cs.isEmpty && marksInside false cs else marksInside true cs

/-- Take the marks out if they stand well; a text with others is left as it is. -/
def dropMarks (cs : List Char) : List Char :=
  if marksInside false cs then cs.filter (· ≠ '_') else cs

/-! ## Integers -/

/-- The text without the zeros and marks in front, given that `last` is one of them. A point keeps
the character in front of it, and so does the end. -/
def dropZeros? (last : Char) : List Char → Option (List Char)
  | [] => some [last]
  | c :: cs =>
    if c = '0' || c = '_' then dropZeros? c cs
    else if c.isDigit || c = '-' then some (c :: cs)
    else if c = '.' then some (last :: c :: cs)
    else none

/-- The digits of an unsigned integer, the zeros in front left out. -/
def stripFront? : List Char → Option (List Char)
  | [] => none
  | c :: cs => if c = '0' then dropZeros? c cs else if c.isDigit then some (c :: cs) else none

/-- The text without a point that has only zeros after it, at least one. -/
def stripFraction (cs : List Char) : List Char :=
  match cs.dropWhile (· ≠ '.') with
  | _ :: d :: ds => if (d :: ds).all (· = '0') then cs.takeWhile (· ≠ '.') else cs
  | _ => cs

/-- An integer written in the shortest way: no sign but a minus, and no zero in front. -/
def ofShortest? (cs : List Char) : Option Int :=
  let magnitude (ds : List Char) : Option Nat :=
    if ds.isEmpty || !ds.all Char.isDigit || (ds.head? = some '0' && 1 < ds.length) then none
    else some (Number.ofDigits (ds.map fun d => d.toNat - '0'.toNat))
  match cs with
  | '-' :: ds => (magnitude ds).map fun n => -Int.ofNat n
  | ds => (magnitude ds).map Int.ofNat

def clearInteger? (s : String) : Option (List Char) := do
  let cs := trimBy Number.isMargin s.toList
  let (negative, magnitude) := Number.spanSign cs
  let digits := dropMarks (stripFraction (← stripFront? magnitude))
  return if negative then '-' :: digits else digits

def integerLength : Nat := 4300

/-! ## Reals -/

def asciiReal? (cs : List Char) : Option Float :=
  if cs.all (·.toNat < 0x80) then Number.ofWhole? cs else none

/-- A text that reads as a real. Blanks around it do not count, unless there are marks inside. -/
def realOfText? (s : String) : Option Float :=
  match asciiReal? (trimBy Number.isMargin s.toList) with
  | some x => some x
  | none =>
    if s.toList.contains '_' && marksInside false s.toList then
      asciiReal? (s.toList.filter (· ≠ '_'))
    else none

end SolidScript.Settings
