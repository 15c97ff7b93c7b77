import CMakeDocs.Binary
import CMakeDocs.Text.Blank

/-!
# Decimal numbers

A number of limited precision is shown by the fewest decimal digits that are nearer to it than to
any other one. Its text has at least one digit on each side of the point. Numbers below a
ten-thousandth or from ten to the sixteenth on are written with an exponent, which has a sign and at
least two digits.
-/
namespace CMakeDocs

/-- The number `digits * 10 ^ exponent`. -/
structure Decimal where
  digits : Nat
  exponent : Int
deriving DecidableEq, Repr

namespace Decimal

/-- Compares `digits * 10 ^ exponent` with `significand * 2 ^ e`. -/
def compareTo (d : Decimal) (significand : Nat) (e : Int) : Ordering :=
  compare (d.digits * Nat.pow 10 d.exponent.toNat * Nat.pow 2 (-e).toNat)
    (significand * Nat.pow 2 e.toNat * Nat.pow 10 (-d.exponent).toNat)

/-- Whether a decimal number is rounded to a significand with an exponent. It may lie half way to
the next number above, and half way to the one below, which is nearer at a power of two; the ends
count if the significand is even. -/
def isRoundedTo (d : Decimal) (significand : Nat) (e : Int) : Bool :=
  let isPower := significand = Nat.pow 2 (Binary.precision - 1) && Binary.leastExponent < e
  let low := if isPower then 4 * significand - 1 else 4 * significand - 2
  let isInside (o inner : Ordering) := o = inner || (o = .eq && significand % 2 = 0)
  isInside (d.compareTo low (e - 2)) .gt && isInside (d.compareTo (4 * significand + 2) (e - 2)) .lt

/-- How many digits a number has before the point, negative if zeros follow the point. -/
def pointOf (significand : Nat) (e : Int) : Int :=
  let guess : Int := (significand.log2 + e) * 30103 / 100000
  (([guess - 1, guess, guess + 1].find? fun p =>
    (⟨1, p⟩ : Decimal).compareTo significand e = .gt).getD (guess + 2))

/-- The decimal numbers next to a number, of those with a given exponent: the lower and the upper
one. -/
def neighbours (significand : Nat) (e exponent : Int) : Decimal × Decimal :=
  let n := significand * Nat.pow 2 e.toNat * Nat.pow 10 (-exponent).toNat
  let d := Nat.pow 2 (-e).toNat * Nat.pow 10 exponent.toNat
  (⟨n / d, exponent⟩, ⟨n / d + 1, exponent⟩)

/-- The nearer of two neighbours, the even one if both are as near. -/
def nearer (significand : Nat) (e : Int) (low high : Decimal) : Decimal :=
  match (⟨low.digits + high.digits, low.exponent⟩ : Decimal).compareTo (2 * significand) e with
  | .lt => high
  | .gt => low
  | .eq => if low.digits % 2 = 0 then low else high

/-- The decimal number with a given exponent that stands for a number. -/
def choose? (significand : Nat) (e exponent : Int) : Option Decimal :=
  let (low, high) := neighbours significand e exponent
  match low.isRoundedTo significand e, high.isRoundedTo significand e with
  | true, true => some (nearer significand e low high)
  | true, false => some low
  | false, true => some high
  | false, false => none

/-- The decimal number with the fewest digits that stands for a number; 17 are always enough. -/
def shortest (significand : Nat) (e : Int) : Decimal :=
  let point := pointOf significand e
  ((List.range 17).findSome? fun (n : Nat) => choose? significand e (point - (n + 1))).getD
    (neighbours significand e (point - 17)).1

/-- The digits from the first to the last that is not zero. -/
def chars (d : Decimal) : List Char := Text.dropEnd (· = '0') (Nat.toDigits 10 d.digits)

/-- How many digits stand before the point, negative if zeros follow the point. -/
def point (d : Decimal) : Int := (Nat.toDigits 10 d.digits).length + d.exponent

/-- The digits with a point among them, or after or before them with zeros between. -/
def positional (digits : List Char) : Int → List Char
  | .ofNat before =>
    let whole := digits.take before ++ List.replicate (before - digits.length) '0'
    let fraction := digits.drop before
    (if whole.isEmpty then ['0'] else whole) ++ '.' :: if fraction.isEmpty then ['0'] else fraction
  | .negSucc n => '0' :: '.' :: (List.replicate (n + 1) '0' ++ digits)

/-- An exponent with its sign and at least two digits. -/
def exponentText (e : Int) : List Char :=
  let number := Nat.toDigits 10 e.natAbs
  (if e < 0 then '-' else '+') :: (List.replicate (2 - number.length) '0' ++ number)

/-- The digits with a point after the first, and an exponent. -/
def scientific (digits : List Char) (point : Int) : List Char :=
  let fraction := if digits.length > 1 then '.' :: digits.drop 1 else []
  digits.take 1 ++ fraction ++ 'e' :: exponentText (point - 1)

def text (d : Decimal) : List Char :=
  if -4 < d.point && d.point ≤ 16 then positional d.chars d.point else scientific d.chars d.point

end Decimal

/-- A number of limited precision as text. -/
def Binary.text (b : Binary) : String :=
  let sign := if b.isNegative then ['-'] else []
  let number := match b with
    | infinite _ => ['i', 'n', 'f']
    | finite _ significand e =>
      if significand = 0 then ['0', '.', '0'] else (Decimal.shortest significand e).text
  String.ofList (sign ++ number)

end CMakeDocs
