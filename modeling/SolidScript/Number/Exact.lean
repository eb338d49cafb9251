/-!
# The exact value of a double

A double is a sign with a natural number times a power of two, or it is infinite, or it is not a
number. Everything that prints, rounds or floors a double works on this view, in exact arithmetic.
-/

namespace SolidScript.Number

/-- What a double stands for: `finite negative m q` is `± m · 2 ^ q`. -/
inductive Exact where
  | nan
  | infinite (negative : Bool)
  | finite (negative : Bool) (significand : Nat) (exponent : Int)
deriving DecidableEq, Repr

def isNegative : Float.Model.UnpackedFloat.Sign → Bool
  | .negative => true
  | .positive => false

def exact (x : Float) : Exact :=
  match x.toModel.unpack with
  | .notANumber => .nan
  | .infinity sign => .infinite (isNegative sign)
  | .zero sign => .finite (isNegative sign) 0 0
  | .finite sign significand exponent _ => .finite (isNegative sign) significand exponent

/-! ## Fractions

The magnitude `m · 2 ^ q` as a quotient of naturals. -/

def numerator (m : Nat) (q : Int) : Nat := m * Nat.pow 2 q.toNat

def denominator (q : Int) : Nat := Nat.pow 2 (-q).toNat

theorem denominator_pos (q : Int) : 0 < denominator q := Nat.two_pow_pos _

/-- The quotient rounded to the nearest natural; halfway, to the even one. -/
def roundHalfEven (num den : Nat) : Nat :=
  let below := num / den
  let twice := 2 * (num % den)
  if twice < den then below
  else if den < twice then below + 1
  else if below % 2 = 0 then below else below + 1

theorem roundHalfEven_near (num den : Nat) (h : 0 < den) :
    2 * (roundHalfEven num den * den) ≤ 2 * num + den ∧
      2 * num ≤ 2 * (roundHalfEven num den * den) + den := by
  have parts : den * (num / den) + num % den = num := Nat.div_add_mod num den
  have small : num % den < den := Nat.mod_lt _ h
  simp only [roundHalfEven]
  generalize num / den = below at *
  generalize num % den = rest at *
  have next : (below + 1) * den = den * below + den := by rw [Nat.add_mul, Nat.mul_comm]; simp
  have same : below * den = den * below := Nat.mul_comm ..
  generalize den * below = product at *
  split
  · omega
  · split
    · omega
    · split <;> omega

theorem roundHalfEven_tie (num den : Nat) (h : 2 * (num % den) = den) :
    roundHalfEven num den % 2 = 0 := by
  simp only [roundHalfEven, h, Nat.lt_irrefl, if_false]
  split <;> omega

/-! ## Whole numbers -/

def integer? (x : Float) : Option Int :=
  match exact x with
  | .finite negative m q =>
    if numerator m q % denominator q = 0 then
      let magnitude : Int := Int.ofNat (numerator m q / denominator q)
      some (if negative then -magnitude else magnitude)
    else none
  | _ => none

def floor? (x : Float) : Option Int :=
  match exact x with
  | .finite negative m q =>
    some (if negative then Int.fdiv (-Int.ofNat (numerator m q)) (Int.ofNat (denominator q))
      else Int.ofNat (numerator m q / denominator q))
  | _ => none

/-- Whether a natural rounds to a finite double: `(2 ^ 54 - 1) · 2 ^ 970` is the least that does
not. -/
def holdsNatural (n : Nat) : Bool := n >>> 970 < Nat.pow 2 54 - 1

end SolidScript.Number
