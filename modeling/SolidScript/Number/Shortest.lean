import SolidScript.Number.Exact

/-!
# The fewest digits that identify a double

The reals that round to a double form an interval around it. Among the decimals in that interval
the shortest is taken; of two equally short ones the nearer, and halfway the even one. The search
compares naturals only.
-/

namespace SolidScript.Number

structure Decimal where
  digits : Nat
  exponent : Int
deriving DecidableEq, Repr

def digitCount (n : Nat) : Nat := (Nat.toDigits 10 n).length

/-- The least `k` with `m · 2 ^ q < 10 ^ k`, for a positive `m`. -/
def decimalScale (m : Nat) (q : Int) : Int :=
  let num := numerator m q
  let den := denominator q
  if den ≤ num then digitCount (num / den) else 1 - (digitCount ((den - 1) / num) : Int)

def compareScaled (a : Nat) (i : Int) (n : Nat) (j : Int) : Ordering :=
  compare (a * Nat.pow 10 i.toNat * Nat.pow 2 (-j).toNat)
    (n * Nat.pow 2 j.toNat * Nat.pow 10 (-i).toNat)

/-- The double below a power of two is half as far away as the double above it. -/
def narrowBelow (m : Nat) (q : Int) : Bool := m = Nat.pow 2 52 && -1074 < q

/-- Whether the decimal lies among the reals that round to `m · 2 ^ q`. The ends of the interval
belong to it if `m` is even. -/
def readsBack (m : Nat) (q : Int) (d : Decimal) : Bool :=
  let low := if narrowBelow m q then 4 * m - 1 else 4 * m - 2
  let high := 4 * m + 2
  let closed := m % 2 = 0
  let fromLow := compareScaled d.digits d.exponent low (q - 2)
  let fromHigh := compareScaled d.digits d.exponent high (q - 2)
  (fromLow = .gt || (closed && fromLow = .eq)) && (fromHigh = .lt || (closed && fromHigh = .eq))

/-- The better of the two neighbours of `m · 2 ^ q` on the grid of multiples of `10 ^ i`, if one of
them reads back. -/
def nearestOnGrid? (m : Nat) (q i : Int) : Option Decimal :=
  let num := numerator m q * Nat.pow 10 (-i).toNat
  let den := denominator q * Nat.pow 10 i.toNat
  let below := num / den
  match readsBack m q ⟨below, i⟩, readsBack m q ⟨below + 1, i⟩ with
  | true, true => some ⟨roundHalfEven num den, i⟩
  | true, false => some ⟨below, i⟩
  | false, true => some ⟨below + 1, i⟩
  | false, false => none

/-- Move trailing zeros of the digits into the exponent; `fuel` bounds their number. -/
def dropZeros : (fuel : Nat) → Decimal → Decimal
  | 0, d => d
  | fuel + 1, d =>
    if d.digits % 10 = 0 then dropZeros fuel ⟨d.digits / 10, d.exponent + 1⟩ else d

def exactDecimal (m : Nat) (q : Int) : Decimal :=
  if 0 ≤ q then ⟨numerator m q, 0⟩ else ⟨m * Nat.pow 5 (-q).toNat, q⟩

/-- The shortest decimal that identifies `m · 2 ^ q`, for a positive `m`: grids of one digit, two
digits and so on up to seventeen are tried in turn. -/
def shortest (m : Nat) (q : Int) : Decimal :=
  let scale := decimalScale m q
  let found := (List.range 17).findSome? fun n => nearestOnGrid? m q (scale - (n + 1 : Nat))
  let d := found.getD (exactDecimal m q)
  dropZeros (digitCount d.digits - 1) d

end SolidScript.Number
