import FixtureSuite.Number.Ratio

/-!
# Double-precision numbers, read and written exactly

A finite double is an integer of at most 53 bits times a power of two. Reading a decimal takes the
nearest one (`ofDecimal`); writing one (`text`) takes the fewest digits that read back as the same
number, and of those the nearest. Both work on exact fractions, so nothing here depends on a
machine.

`text` never uses an exponent: large numbers are filled up with zeros.
-/

namespace FixtureSuite

/-- A double. A finite one has the value `mantissa * 2 ^ exponent`. -/
inductive Binary64 where
  | nan
  | infinity (negative : Bool)
  | finite (negative : Bool) (mantissa : Nat) (exponent : Int)
  deriving DecidableEq, Repr

namespace Binary64

def minExponent : Int := -1074

def maxExponent : Int := 971

/-- Full mantissas lie from here on, up to twice this number. -/
def hiddenBit : Nat := Nat.pow 2 52

/-! ## Reading -/

/-- The exponent at which a positive fraction has a full mantissa, if it is not below the least. -/
def exponentOf (r : Ratio) : Int :=
  let guess := (r.numerator.log2 : Int) - r.denominator.log2 - 52
  let exponent := if (r.scale 2 (-guess)).floor < hiddenBit then guess - 1 else guess
  max exponent minExponent

/-- The double nearest to a positive fraction, with the even mantissa in the middle between two. -/
def nearest (negative : Bool) (r : Ratio) : Binary64 :=
  let exponent := exponentOf r
  let mantissa := (r.scale 2 (-exponent)).roundToEven
  let (mantissa, exponent) :=
    if mantissa = 2 * hiddenBit then (hiddenBit, exponent + 1) else (mantissa, exponent)
  if exponent > maxExponent then .infinity negative else .finite negative mantissa exponent

/-- The double nearest to `digits * 10 ^ exponent`. A number beyond all doubles is infinite; one
that is too near to zero is zero. -/
def ofDecimal (negative : Bool) (digits : Nat) (exponent : Int) : Binary64 :=
  let magnitude := (Ratio.digitCount digits : Int) + exponent
  if digits = 0 ∨ magnitude < -330 then .finite negative 0 minExponent
  else if magnitude > 310 then .infinity negative
  else nearest negative (Ratio.scale ⟨digits, 1⟩ 10 exponent)

/-! ## Writing -/

def value (mantissa : Nat) (exponent : Int) : Ratio :=
  Ratio.scale ⟨mantissa, 1⟩ 2 exponent

/-- Whether a decimal reads back as a given double. With a quarter of the double's spacing as the
unit, the numbers that do lie within two units of it, or within one below a full power of two, where
the spacing halves; the ends belong to it when its mantissa is even. -/
def readsBack (mantissa : Nat) (exponent : Int) (digits : Nat) (power : Int) : Bool :=
  let r := (Ratio.scale ⟨digits, 1⟩ 10 power).scale 2 (2 - exponent)
  let below := if mantissa = hiddenBit ∧ exponent > minExponent then 1 else 2
  let low := (4 * mantissa - below) * r.denominator
  let high := (4 * mantissa + 2) * r.denominator
  if mantissa % 2 = 0 then low ≤ r.numerator && r.numerator ≤ high
  else low < r.numerator && r.numerator < high

/-- Looks for a decimal with `count` digits that reads back: of the two neighbours of the value, the
nearer one that does, and the upper one if both are as near. -/
def decimalOf? (mantissa : Nat) (exponent : Int) (count : Nat) : Option (Nat × Int) :=
  let v := value mantissa exponent
  let power := v.magnitude - count
  let scaled := v.scale 10 (-power)
  let lower := scaled.floor
  let twice := 2 * (scaled.numerator % scaled.denominator)
  let candidates :=
    if twice < scaled.denominator then [lower, lower + 1] else [lower + 1, lower]
  (candidates.find? fun d => readsBack mantissa exponent d power).map fun d => (d, power)

/-- The decimal with the fewest digits that reads back; 17 digits always suffice. -/
def shortest (mantissa : Nat) (exponent : Int) : Nat × Int :=
  ((List.range 17).findSome? fun n => decimalOf? mantissa exponent (n + 1)).getD (0, 0)

def positional (digits : Nat) (power : Int) : String :=
  let ds := Nat.toDigits 10 digits
  if power ≥ 0 then String.ofList (ds ++ List.replicate power.natAbs '0')
  else
    let places := power.natAbs
    let padded := List.replicate (places + 1 - ds.length) '0' ++ ds
    let whole := padded.length - places
    -- zeros at the end of the places say nothing
    let fraction := ((padded.drop whole).reverse.dropWhile (· == '0')).reverse
    let wholeText := String.ofList (padded.take whole)
    if fraction = [] then wholeText else wholeText ++ "." ++ String.ofList fraction

/-- The text of a double. A whole number is given with `.0`. -/
def text : Binary64 → String
  | .nan => "NaN"
  | .infinity negative => if negative then "-inf" else "inf"
  | .finite negative mantissa exponent =>
    let unsigned :=
      if mantissa = 0 then "0"
      else
        let (digits, power) := shortest mantissa exponent
        positional digits power
    (if negative then "-" else "") ++ unsigned ++ (if unsigned.contains '.' then "" else ".0")

end Binary64

end FixtureSuite
