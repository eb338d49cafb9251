import SolidScript.Number.Shortest

/-!
# Number texts

Four ways to write a double: with the fewest digits that identify it, with a fixed number of
places, with six significant digits, and as a script spells it. All round the exact value, half to
even. Infinity and the value that is no number have the same text in each.
-/

namespace SolidScript.Number

def nanText : List Char := ['n', 'a', 'n']

def infiniteText (negative : Bool) : List Char :=
  if negative then ['-', 'i', 'n', 'f'] else ['i', 'n', 'f']

def zeros (n : Nat) : List Char := List.replicate n '0'

def signed (negative : Bool) (cs : List Char) : List Char := if negative then '-' :: cs else cs

/-! ## Fixed places -/

/-- `n · 10 ^ (-places)` with all its places and at least one digit before the point. -/
def pointed (places n : Nat) : List Char :=
  let digits := Nat.toDigits 10 n
  let padded := zeros (places + 1 - digits.length) ++ digits
  let whole := padded.take (padded.length - places)
  if places = 0 then whole else whole ++ '.' :: padded.drop (padded.length - places)

/-- The magnitude `m · 2 ^ q` in units of `10 ^ (-places)`, rounded half to even. -/
def toPlaces (places m : Nat) (q : Int) : Nat :=
  roundHalfEven (numerator m q * Nat.pow 10 places) (denominator q)

def fixedText (places : Nat) (x : Float) : List Char :=
  match exact x with
  | .nan => nanText
  | .infinite negative => infiniteText negative
  | .finite negative m q => signed negative (pointed places (toPlaces places m q))

def roundToPlaces (places : Nat) (x : Float) : Float :=
  match exact x with
  | .finite negative m q =>
    let magnitude := Float.ofScientific (toPlaces places m q) true places
    if negative then -magnitude else magnitude
  | _ => x

def dropTrailing (cs : List Char) : List Char :=
  match cs.reverse.dropWhile (· = '0') with
  | '.' :: rest => rest.reverse
  | rest => rest.reverse

/-! ## Scientific form -/

def leadingPoint : List Char → List Char
  | d :: e :: rest => d :: '.' :: e :: rest
  | digits => digits

/-- The exponent with its sign and at least two digits. -/
def exponentText (e : Int) : List Char :=
  let digits := Nat.toDigits 10 e.natAbs
  'e' :: (if e < 0 then '-' else '+') :: (zeros (2 - digits.length) ++ digits)

def scientific (digits : List Char) (e : Int) : List Char := leadingPoint digits ++ exponentText e

/-! ## The fewest digits -/

/-- A decimal positionally while its leading digit stands between the fourth place after the point
and the sixteenth before it, otherwise in scientific form. A whole number keeps one zero place. -/
def decimalText (d : Decimal) : List Char :=
  let digits := Nat.toDigits 10 d.digits
  let leading : Int := digits.length + d.exponent - 1
  if leading < -4 || 16 ≤ leading then scientific digits leading
  else if 0 ≤ d.exponent then digits ++ zeros d.exponent.toNat ++ ['.', '0']
  else if 0 ≤ leading then
    digits.take (leading.toNat + 1) ++ '.' :: digits.drop (leading.toNat + 1)
  else '0' :: '.' :: zeros (-leading - 1).toNat ++ digits

def shortestText (x : Float) : List Char :=
  match exact x with
  | .nan => nanText
  | .infinite negative => infiniteText negative
  | .finite negative m q =>
    signed negative (if m = 0 then ['0', '.', '0'] else decimalText (shortest m q))

def text (x : Float) : String := String.ofList (shortestText x)

/-! ## Six significant digits -/

/-- The magnitude rounded to six significant digits, with the exponent of its leading digit. -/
def toSixDigits (m : Nat) (q : Int) : Nat × Int :=
  let scale := decimalScale m q
  let grid := scale - 6
  let n := roundHalfEven (numerator m q * Nat.pow 10 (-grid).toNat)
    (denominator q * Nat.pow 10 grid.toNat)
  if n = 1000000 then (100000, scale) else (n, scale - 1)

/-- At most six significant digits, positionally from the fourth place after the point to the
sixth before it, without trailing zeros. -/
def generalText (x : Float) : List Char :=
  match exact x with
  | .nan => nanText
  | .infinite negative => infiniteText negative
  | .finite negative m q =>
    signed negative <|
      if m = 0 then ['0']
      else
        let (n, leading) := toSixDigits m q
        if leading < -4 || 6 ≤ leading then
          scientific ((Nat.toDigits 10 n).reverse.dropWhile (· = '0')).reverse leading
        else if leading = 5 then pointed 0 n
        else dropTrailing (pointed (5 - leading).toNat n)

/-! ## Script numbers -/

def integerText (n : Int) : List Char := signed (n < 0) (Nat.toDigits 10 n.natAbs)

/-- Always positional, since a script knows no exponents: a whole number without a point, any other
with at most six places. Zero has no sign. -/
def scriptText (x : Float) : List Char :=
  match integer? x with
  | some n => integerText n
  | none =>
    let cs := dropTrailing (fixedText 6 x)
    if cs = ['-', '0'] then ['0'] else cs

end SolidScript.Number
