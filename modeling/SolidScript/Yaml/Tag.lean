import SolidScript.Yaml.Cursor
import SolidScript.Yaml.Version

/-!
# Tags

The tag of a node tells what it stands for. A plain scalar without one has a tag by its form. Of the
versions of the format, the first has more truth values, and numbers to the base of sixty.
-/

namespace SolidScript.Yaml

inductive Tag where
  | null
  | boolean
  | integer
  | real
  | text
  | bytes
  | instant
  | sequence
  | mapping
  | set
  | orderedMapping
  | pairs
  /-- A key that brings in the entries of other mappings. -/
  | merge
  /-- A key that stands for its mapping. -/
  | value
  | unknown
deriving DecidableEq, Repr

def tagStart : String := "tag:yaml.org,2002:"

def Tag.ofUri (uri : String) : Tag :=
  if !uri.startsWith tagStart then .unknown
  else
    match (uri.drop tagStart.length).toString with
    | "null" => .null
    | "bool" => .boolean
    | "int" => .integer
    | "float" => .real
    | "str" => .text
    | "binary" => .bytes
    | "timestamp" => .instant
    | "seq" => .sequence
    | "map" => .mapping
    | "set" => .set
    | "omap" => .orderedMapping
    | "pairs" => .pairs
    | "merge" => .merge
    | "value" => .value
    | _ => .unknown

/-! ## Forms of numbers -/

def isSign (c : Char) : Bool := c = '+' || c = '-'

def dropSign : List Char → List Char
  | [] => []
  | c :: cs => if isSign c then cs else c :: cs

def isDigitOrMark (c : Char) : Bool := c.isDigit || c = '_'

def isOctalOrMark (c : Char) : Bool := ('0' ≤ c && c ≤ '7') || c = '_'

def allSome (p : Char → Bool) (cs : List Char) : Bool := !cs.isEmpty && cs.all p

/-- Numbers below sixty after colons, at least one, up to a rest. -/
def sixties (rest : List Char → Bool) : (fuel : Nat) → List Char → Bool
  | 0, _ => false
  | fuel + 1, ':' :: a :: b :: cs =>
    if a.isDigit && b.isDigit then
      (a < '6' && (rest cs || sixties rest fuel cs))
    else a.isDigit && (rest (b :: cs) || sixties rest fuel (b :: cs))
  | _ + 1, [':', a] => a.isDigit && rest []
  | _ + 1, _ => false

def isInteger (version : Version) (cs : List Char) : Bool :=
  match cs with
  | '0' :: 'b' :: ds => allSome (fun c => c = '0' || c = '1' || c = '_') ds
  | '0' :: 'x' :: ds => allSome (fun c => isHexDigit c || c = '_') ds
  | _ =>
    if version = .first then
      allSome isOctalOrMark cs ||
        ((cs.head?.map fun c => c.isDigit && c ≠ '0').getD false &&
          (cs.all isDigitOrMark ||
            sixties List.isEmpty cs.length (cs.dropWhile isDigitOrMark)))
    else
      match cs with
      | '0' :: 'o' :: ds => allSome isOctalOrMark ds
      | _ => allSome isDigitOrMark cs

/-- An exponent may end a real; after a bare fraction it must have a sign. -/
def isExponent (signed : Bool) : List Char → Bool
  | [] => true
  | c :: cs =>
    (c = 'e' || c = 'E') && (!signed || (cs.head?.map isSign).getD false) &&
      allSome Char.isDigit (dropSign cs)

/-- Whether an unsigned text has the form of a real: it has a point or an exponent. -/
def isReal (version : Version) : List Char → Bool
  | '.' :: cs =>
    !(cs.takeWhile isDigitOrMark).isEmpty && isExponent true (cs.dropWhile isDigitOrMark)
  | c :: cs =>
    c.isDigit &&
      match cs.dropWhile isDigitOrMark with
      | '.' :: rest => isExponent false (rest.dropWhile isDigitOrMark)
      | [] => false
      | rest =>
        isExponent false rest ||
          (version = .first &&
            sixties (fun tail => tail.head? = some '.' && tail.tail.all isDigitOrMark)
              rest.length rest)
  | [] => false

def namesInfinity (cs : List Char) : Bool := [".inf", ".Inf", ".INF"].contains (String.ofList cs)

def namesNoNumber (cs : List Char) : Bool := [".nan", ".NaN", ".NAN"].contains (String.ofList cs)

/-! ## Forms of moments -/

def spanTwo (least : Nat) (cs : List Char) : Option (Nat × List Char) :=
  let digits := (cs.take 2).takeWhile Char.isDigit
  if digits.length < least then none else some (ofBase 10 digits, cs.drop digits.length)

def after? (c : Char) : List Char → Option (List Char)
  | d :: cs => if c = d then some cs else none
  | [] => none

structure Instant where
  year : Nat
  month : Nat
  day : Nat
  hour : Nat := 0
  minute : Nat := 0
  second : Nat := 0

def isZone (cs : List Char) : Bool :=
  let ends (cs : List Char) : Bool :=
    cs.isEmpty || ((after? ':' cs).bind (spanTwo 2)).any (·.2.isEmpty)
  let cs := cs.dropWhile isTabOrSpace
  cs = ['Z'] ||
    match cs with
    | c :: rest => isSign c && (spanTwo 1 rest).any fun (_, rest) => ends rest
    | [] => false

def clock? (instant : Instant) (cs : List Char) : Option Instant := do
  let cs ← match cs with
    | c :: rest =>
      if c = 'T' || c = 't' then some rest
      else if isTabOrSpace c then some (rest.dropWhile isTabOrSpace) else none
    | [] => none
  let (hour, cs) ← spanTwo 1 cs
  let (minute, cs) ← (after? ':' cs).bind (spanTwo 2)
  let (second, cs) ← (after? ':' cs).bind (spanTwo 2)
  let cs := match cs with
    | '.' :: rest => rest.dropWhile Char.isDigit
    | _ => cs
  if cs.isEmpty || isZone cs then some { instant with hour, minute, second } else none

/-- A day or a moment. Where the form is to be told from the text alone, the month and the day of a
mere day have two digits. -/
def instant? (strict : Bool) (cs : List Char) : Option Instant := do
  let digits := cs.take 4
  if digits.length < 4 || !digits.all Char.isDigit then none
  let (month, rest) ← (after? '-' (cs.drop 4)).bind (spanTwo 1)
  let (day, rest) ← (after? '-' rest).bind (spanTwo 1)
  let instant : Instant := { year := ofBase 10 digits, month, day }
  if rest.isEmpty then if strict && cs.length ≠ 10 then none else some instant
  else clock? instant rest

/-! ## Tags by form -/

def truthWords (version : Version) : List String :=
  ["true", "True", "TRUE", "false", "False", "FALSE"] ++
    if version = .first then
      ["y", "Y", "yes", "Yes", "YES", "n", "N", "no", "No", "NO", "on", "On", "ON", "off", "Off",
        "OFF"]
    else []

/-- Whether a text has the form of a real, its sign included. The first version has no sign in front
of a bare fraction. -/
def hasRealForm (version : Version) (cs : List Char) : Bool :=
  let bare := dropSign cs
  namesInfinity bare || namesNoNumber cs ||
    (isReal version bare && !(version = .first && bare.length < cs.length && bare.head? = some '.'))

/-- Whether a text has the form of an integer, its sign included. -/
def hasIntegerForm (version : Version) (cs : List Char) : Bool :=
  (cs.head?.map fun c => isSign c || c.isDigit).getD false && isInteger version (dropSign cs)

/-- The form of a text: a newline at its end is no part of it, unless nothing else is there. -/
def formOf (s : String) : List Char :=
  match s.toList.reverse with
  | '\n' :: c :: cs => (c :: cs).reverse
  | _ => s.toList

def Tag.ofForm (version : Version) (s : String) : Tag :=
  let form := formOf s
  let word := String.ofList form
  if (truthWords version).contains word then .boolean
  else if hasRealForm version form then .real
  else if hasIntegerForm version form then .integer
  else if word = "<<" then .merge
  else if ["", "~", "null", "Null", "NULL"].contains word then .null
  else if (instant? true form).isSome then .instant
  else if word = "=" then .value
  else .text

end SolidScript.Yaml
