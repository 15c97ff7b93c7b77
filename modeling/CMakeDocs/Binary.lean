/-!
# Numbers of limited precision

A number that is written with a point is kept as a significand of at most 53 binary digits times a
power of two. What is written is rounded to the nearest such number, and to the one with the even
significand if two are equally near. Exponents have bounds: below them a number loses digits, above
them it is infinite.
-/
namespace CMakeDocs

inductive Binary where
  /-- The number `significand * 2 ^ exponent`. -/
  | finite (negative : Bool) (significand : Nat) (exponent : Int)
  | infinite (negative : Bool)
deriving DecidableEq, Repr

namespace Binary

def precision : Nat := 53

/-- The least exponent of a significand. -/
def leastExponent : Int := -1074

/-- The greatest exponent of a significand. -/
def greatestExponent : Int := 971

/-- The whole number nearest to a quotient, the even one of two. -/
def roundDiv (n d : Nat) : Nat :=
  let q := n / d
  let twice := 2 * (n % d)
  if twice < d then q else if d < twice then q + 1 else q + q % 2

/-- The exponent for the significand of a quotient: one that leaves it as many digits as there may
be, unless that is below the least one. -/
def exponentFor (n d : Nat) : Int :=
  let guess : Int := n.log2 - d.log2 - precision
  let tooLow := d * Nat.pow 2 precision * Nat.pow 2 guess.toNat ≤ n * Nat.pow 2 (-guess).toNat
  max leastExponent (if tooLow then guess + 1 else guess)

/-- The number nearest to a quotient. -/
def ofQuotient (negative : Bool) (n d : Nat) : Binary :=
  let e := exponentFor n d
  let significand := roundDiv (n * Nat.pow 2 (-e).toNat) (d * Nat.pow 2 e.toNat)
  let (significand, e) :=
    if significand = Nat.pow 2 precision then (Nat.pow 2 (precision - 1), e + 1)
    else (significand, e)
  if greatestExponent < e then infinite negative else finite negative significand e

/-- How many decimal digits before or behind the point are beyond all bounds. -/
def decimalBound : Int := 400

/-- The number nearest to `digits * 10 ^ exponent`. -/
def ofDecimal (negative : Bool) (digits : Nat) (exponent : Int) : Binary :=
  let point := (Nat.toDigits 10 digits).length + exponent
  if digits = 0 || point < -decimalBound then finite negative 0 leastExponent
  else if decimalBound < point then infinite negative
  else ofQuotient negative (digits * Nat.pow 10 exponent.toNat) (Nat.pow 10 (-exponent).toNat)

def isZero : Binary → Bool
  | finite _ significand _ => significand = 0
  | infinite _ => false

def isOne : Binary → Bool
  | finite negative significand e => !negative && e ≤ 0 && significand = Nat.pow 2 (-e).toNat
  | infinite _ => false

def isNegative : Binary → Bool
  | finite negative _ _ => negative
  | infinite negative => negative

theorem isZero_ofDecimal_zero (negative : Bool) (e : Int) :
    (ofDecimal negative 0 e).isZero = true := by
  simp [ofDecimal, isZero]

end Binary

end CMakeDocs
