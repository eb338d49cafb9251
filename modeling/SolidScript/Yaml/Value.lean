import SolidScript.Datum
import SolidScript.Number.Exact
import SolidScript.Number.Reading
import SolidScript.Text.Line
import SolidScript.Yaml.Tag
import SolidScript.Yaml.Token

/-!
# Values of scalars

What the text of a scalar stands for under a tag. A tag may be given to any scalar, so every text
has to be dealt with, not only one whose form led to the tag.
-/

namespace SolidScript.Yaml

open SolidScript.Text

/-! ## Integers -/

def digitOf? (base : Nat) (c : Char) : Option Nat :=
  let digit := match digit? c with
    | some d => some d
    | none => if isHexDigit c then some (ofBase 16 [c]) else none
  digit.filter (· < base)

def dropBaseMark (base : Nat) (cs : List Char) : List Char :=
  match cs with
  | '0' :: c :: rest =>
    if (base = 2 && c.toLower = 'b') || (base = 8 && c.toLower = 'o') ||
        (base = 16 && c.toLower = 'x') then rest
    else cs
  | _ => cs

/-- An integer in a base, with blanks around it and a sign. -/
def integerIn (base : Nat) (cs : List Char) : Except Fault Int :=
  let (negative, magnitude) := Number.spanSign (trimBy Number.isMargin cs)
  let magnitude := dropBaseMark base magnitude
  let digits := magnitude.map (digitOf? base)
  let count := (digits.takeWhile Option.isSome).length
  if base = 10 && digitLimit < count then .error (.tooManyDigits count)
  else if count = 0 || count < magnitude.length then
    .error (.notAnInteger base (String.ofList cs))
  else
    let n : Int := Int.ofNat ((digits.filterMap id).foldl (fun n d => base * n + d) 0)
    .ok (if negative then -n else n)

/-- An integer to the base of sixty, its places apart by colons. -/
def integerInSixty (cs : List Char) : Except Fault Int :=
  (fields ':' cs).foldlM (fun n place => return 60 * n + (← integerIn 10 place)) 0

/-- The value of a text as an integer. Underscores do not count. A letter after a zero tells the
base; in the first version of the format a mere zero does. -/
def integerOf (version : Version) (s : String) : Except Fault Int := do
  let cs := s.toList.filter (· ≠ '_')
  let magnitude := dropSign cs
  if cs.isEmpty || (version = .first && magnitude.isEmpty) then throw .emptyNumber
  let n ← match magnitude with
    | ['0'] => pure 0
    | '0' :: 'b' :: digits => integerIn 2 digits
    | '0' :: 'x' :: digits => integerIn 16 digits
    | '0' :: 'o' :: digits => integerIn 8 digits
    | _ =>
      if version = .first && magnitude.head? = some '0' then integerIn 8 magnitude
      else if version = .first && magnitude.contains ':' then integerInSixty magnitude
      else integerIn 10 magnitude
  return if cs.head? = some '-' then -n else n

/-! ## Reals -/

def realIn (cs : List Char) : Except Fault Float :=
  match Number.ofText? cs with
  | some x => .ok x
  | none => .error (.notAReal (String.ofList cs))

/-- A real to the base of sixty: the last place counts once, the one before sixty times. -/
def realInSixty (cs : List Char) : Except Fault Float := do
  let places ← (fields ':' cs).mapM realIn
  return (places.reverse.foldl (fun (x, unit) place => (x + place * unit, unit * 60))
    ((0 : Float), (1 : Float))).1

/-- The value of a text as a real. The first version of the format looks for its exponent. -/
def realOf (version : Version) (s : String) : Except Fault Float := do
  let cs := (s.toList.filter (· ≠ '_')).map Char.toLower
  if cs.isEmpty then throw .emptyNumber
  let negative := cs.head? = some '-'
  let magnitude := dropSign cs
  if magnitude = ".inf".toList then return Number.applySign negative Number.infinity
  if magnitude = ".nan".toList then return Number.nan
  if version = .first && magnitude.contains ':' then
    return Number.applySign negative (← realInSixty magnitude)
  if version = .first && 1 < magnitude.count 'e' then throw .manyExponents
  return Number.applySign negative (← realIn magnitude)

/-! ## Other values -/

def booleanOf (s : String) : Except Fault Bool :=
  let word := String.ofList (s.toList.map Char.toLower)
  if ["yes", "y", "true", "on"].contains word then .ok true
  else if ["no", "n", "false", "off"].contains word then .ok false
  else .error (.notABoolean word)

def daysIn (year month : Nat) : Nat :=
  if month = 2 then
    if year % 4 = 0 && (year % 100 ≠ 0 || year % 400 = 0) then 29 else 28
  else if [4, 6, 9, 11].contains month then 30 else 31

def Instant.wrong? (t : Instant) : Option InstantPart :=
  if t.year = 0 then some .year
  else if t.month = 0 || 12 < t.month then some .month
  else if t.day = 0 || daysIn t.year t.month < t.day then some .day
  else if 23 < t.hour then some .hour
  else if 59 < t.minute then some .minute
  else if 59 < t.second then some .second
  else none

def instantOf (s : String) : Except Fault Datum :=
  match instant? false (formOf s) with
  | none => .error .malformed
  | some t =>
    match t.wrong? with
    | some part => .error (.noSuchInstant part)
    | none => .ok (.instant s)

def sixBits? (c : Char) : Option Nat :=
  if 'A' ≤ c && c ≤ 'Z' then some (c.toNat - 'A'.toNat)
  else if 'a' ≤ c && c ≤ 'z' then some (c.toNat - 'a'.toNat + 26)
  else if c.isDigit then some (c.toNat - '0'.toNat + 52)
  else if c = '+' then some 62
  else if c = '/' then some 63
  else none

/-- Bytes given six bits at a time; other characters do not count. Of a group of four characters
`have` came so far, their last bits are in `bits`, and `pads` pads came since. -/
def bytesFrom : (got pads bits : Nat) → List Char → Option (List UInt8)
  | got, _, _, [] => if got = 0 then some [] else none
  | got, pads, bits, c :: cs =>
    if c = '=' then
      if 2 ≤ got && 4 ≤ got + pads + 1 then some []
      else bytesFrom got (if 2 ≤ got then pads + 1 else pads) bits cs
    else
      match sixBits? c with
      | none => bytesFrom got pads bits cs
      | some v =>
        let byte (n : Nat) (tail : Option (List UInt8)) : Option (List UInt8) :=
          tail.map (n.toUInt8 :: ·)
        match got with
        | 0 => bytesFrom 1 0 v cs
        | 1 => byte (4 * bits + v / 16) (bytesFrom 2 0 (v % 16) cs)
        | 2 => byte (16 * bits + v / 4) (bytesFrom 3 0 (v % 4) cs)
        | _ => byte (64 * bits + v) (bytesFrom 0 0 0 cs)

def bytesOf (s : String) : Except Fault Datum :=
  match if s.toList.all (·.toNat < 0x80) then bytesFrom 0 0 0 s.toList else none with
  | some content => .ok (.bytes content)
  | none => .error .malformed

def scalarValue (version : Version) (tag : Tag) (style : Style) (s : String) : Except Fault Datum :=
  match tag with
  | .null => .ok .null
  | .boolean => (booleanOf s).map .boolean
  | .integer => (integerOf version s).map .integer
  | .real => (realOf version s).map .real
  | .text => .ok (if style = .broken then .broken s else .text s)
  | .bytes => bytesOf s
  | .instant => instantOf s
  | _ => .error .malformed

end SolidScript.Yaml
