import SolidScript.Text.Blank
import SolidScript.Text.Digit

/-!
# Reading numbers

Three grammars share one conversion. A numeral of the script language is digits with at most one
point. A metadata field may also carry a sign and digits of any script. A value given on the
command line may further have an exponent, single underscores between digits, blanks around it,
and may name an infinity or the value that is no number.
-/

namespace SolidScript.Number

open SolidScript.Text

def ofDigits (digits : List Nat) : Nat := digits.foldl (fun n d => 10 * n + d) 0

/-- The double nearest to the digits before and after a point, times a power of ten. -/
def ofParts (whole fraction : List Nat) (exponent : Int) : Float :=
  let scale := exponent - fraction.length
  Float.ofScientific (ofDigits (whole ++ fraction)) (scale < 0) scale.natAbs

def ofNumeral (cs : List Char) : Float :=
  let value (d : Char) : Nat := d.toNat - '0'.toNat
  let whole := cs.takeWhile (· ≠ '.')
  let fraction := (cs.dropWhile (· ≠ '.')).drop 1
  ofParts (whole.map value) (fraction.map value) 0

def spanDigits : List Char → List Nat × List Char
  | [] => ([], [])
  | c :: cs =>
    match digit? c with
    | some d => let (digits, rest) := spanDigits cs; (d :: digits, rest)
    | none => ([], c :: cs)

/-- Digits, a point, digits: one side may be empty, and the point may be missing. -/
def spanParts? (cs : List Char) : Option (List Nat × List Nat × List Char) :=
  match spanDigits cs with
  | (whole, '.' :: rest) =>
    let (fraction, rest) := spanDigits rest
    if whole.isEmpty && fraction.isEmpty then none else some (whole, fraction, rest)
  | (whole, rest) => if whole.isEmpty then none else some (whole, [], rest)

def spanSign : List Char → Bool × List Char
  | '-' :: cs => (true, cs)
  | '+' :: cs => (false, cs)
  | cs => (false, cs)

def applySign (negative : Bool) (x : Float) : Float := if negative then -x else x

/-- The value of a signed decimal without exponent, in the digits of any script. -/
def ofDecimal? (cs : List Char) : Option Float :=
  let (negative, magnitude) := spanSign cs
  match spanParts? magnitude with
  | some (whole, fraction, []) => some (applySign negative (ofParts whole fraction 0))
  | _ => none

/-! ## Values with an exponent -/

/-- Take out the underscores that stand between two digits; any other underscore is refused. -/
def dropUnderscores? : (afterDigit : Bool) → List Char → Option (List Char)
  | _, [] => some []
  | afterDigit, '_' :: c :: cs =>
    if afterDigit && (digit? c).isSome then (dropUnderscores? true cs).map (c :: ·) else none
  | _, ['_'] => none
  | _, c :: cs => (dropUnderscores? (digit? c).isSome cs).map (c :: ·)

def infinity : Float := 1.0 / 0.0

def nan : Float := 0.0 / 0.0

def named? (cs : List Char) : Option Float :=
  match String.ofList (cs.map Char.toLower) with
  | "inf" => some infinity
  | "infinity" => some infinity
  | "nan" => some nan
  | _ => none

def exponent? : List Char → Option Int
  | [] => some 0
  | c :: cs =>
    if c = 'e' || c = 'E' then
      let (negative, rest) := spanSign cs
      match spanDigits rest with
      | (d :: digits, []) =>
        let magnitude : Int := Int.ofNat (ofDigits (d :: digits))
        some (if negative then -magnitude else magnitude)
      | _ => none
    else none

/-- The blanks that may stand around a value: all but the four information separators. -/
def isMargin (c : Char) : Bool := isBlank c && !(0x1C ≤ c.toNat && c.toNat ≤ 0x1F)

/-- The value of a text that is a number from end to end: an infinity or the value that is no number
by name, or a decimal that may have an exponent, after an optional sign. -/
def ofWhole? (cs : List Char) : Option Float :=
  let (negative, magnitude) := spanSign cs
  match named? magnitude with
  | some x => some (applySign negative x)
  | none => do
    let (whole, fraction, rest) ← spanParts? magnitude
    let exponent ← exponent? rest
    some (applySign negative (ofParts whole fraction exponent))

/-- The value of a number text in the widest of the three grammars. -/
def ofText? (cs : List Char) : Option Float := do
  ofWhole? (← dropUnderscores? false (trimBy isMargin cs))

end SolidScript.Number
