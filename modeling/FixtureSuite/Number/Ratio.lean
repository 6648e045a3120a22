/-!
# Positive fractions, rounded

A fraction of natural numbers, with the two operations that number formats need: scaling by a power
of two or ten, and rounding to a natural number.
-/

namespace FixtureSuite

/-- A fraction; the denominator is meant to be positive. -/
structure Ratio where
  numerator : Nat
  denominator : Nat
  deriving DecidableEq, Repr

namespace Ratio

def scale (r : Ratio) (base : Nat) (exponent : Int) : Ratio :=
  let power := Nat.pow base exponent.natAbs
  if exponent < 0 then ⟨r.numerator, r.denominator * power⟩
  else ⟨r.numerator * power, r.denominator⟩

def floor (r : Ratio) : Nat :=
  r.numerator / r.denominator

/-- The nearest natural number; of two that are as near, the even one. -/
def roundToEven (r : Ratio) : Nat :=
  let n := r.floor
  let twice := 2 * (r.numerator % r.denominator)
  if twice < r.denominator then n
  else if twice > r.denominator then n + 1
  else if n % 2 = 0 then n
  else n + 1

/-- How many digits a positive natural number has in base ten. -/
def digitCount (n : Nat) : Nat :=
  (Nat.toDigits 10 n).length

/-- The number of digits in front of the decimal point; for a fraction below a tenth, minus the
number of zeros behind the point. A positive fraction `r` lies between `10 ^ (magnitude r - 1)`
and `10 ^ magnitude r`. -/
def magnitude (r : Ratio) : Int :=
  if r.denominator ≤ r.numerator then digitCount r.floor
  else 1 - (digitCount (r.denominator / r.numerator) : Int)

end Ratio

end FixtureSuite
