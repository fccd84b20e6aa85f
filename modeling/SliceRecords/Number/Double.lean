/-!
# Doubles

Floating-point numbers of 64 bits as exact data: a finite double is a sign, a significand
and a power of two. Decimal notation is read by rounding to the nearest double, a tie going
to the even significand.
-/

namespace SliceRecords

/-- A floating-point number of 64 bits. A finite one is `significand * 2 ^ exponent`
with a sign; the significand has at most 53 bits and the exponent is the least that
allows this, from -1074 on. -/
inductive Double where
  | finite (negative : Bool) (significand : Nat) (exponent : Int)
  | infinite (negative : Bool)
  | notANumber
  deriving DecidableEq, Repr

namespace Double

/-- The exponent of the smallest doubles. -/
def leastExponent : Int := -1074

/-- The exponent of the largest finite doubles. -/
def greatestExponent : Int := 971

/-- The least number that is too large for a significand. -/
def significandLimit : Nat := Nat.pow 2 53

/-- Zero of either sign. -/
def zero (negative : Bool) : Double :=
  finite negative 0 leastExponent

/-- The integer nearest to `numerator / denominator`, a tie going to the even one. -/
def roundDiv (numerator denominator : Nat) : Nat :=
  let quotient := numerator / denominator
  let rest := 2 * (numerator % denominator)
  if rest < denominator ∨ (rest = denominator ∧ quotient % 2 = 0) then quotient else quotient + 1

/-- The fraction `numerator / denominator / 2 ^ exponent`, as a numerator and a denominator. -/
def scale (numerator denominator : Nat) (exponent : Int) : Nat × Nat :=
  (numerator * Nat.pow 2 (-exponent).toNat, denominator * Nat.pow 2 exponent.toNat)

/-- The double nearest to a positive fraction; beyond the largest finite double it is infinite. -/
def ofFraction (negative : Bool) (numerator denominator : Nat) : Double :=
  let estimate : Int := numerator.log2 - denominator.log2 - 53
  let (n, d) := scale numerator denominator estimate
  let exponent := max leastExponent (if n / d < significandLimit then estimate else estimate + 1)
  let (n, d) := scale numerator denominator exponent
  let rounded := roundDiv n d
  let (significand, exponent) :=
    if rounded < significandLimit then (rounded, exponent) else (rounded / 2, exponent + 1)
  if exponent ≤ greatestExponent then finite negative significand exponent else infinite negative

/-- The double nearest to `digits * 10 ^ exponent`. Exponents so far out that only zero or infinity
can result are not raised to a power. -/
def ofDecimal (negative : Bool) (digits : Nat) (exponent : Int) : Double :=
  if digits = 0 then zero negative
  else
    let magnitude := exponent + (Nat.toDigits 10 digits).length
    if 310 < magnitude then infinite negative
    else if magnitude < -400 then zero negative
    else ofFraction negative (digits * Nat.pow 10 exponent.toNat) (Nat.pow 10 (-exponent).toNat)

/-- The integer that a double equals, if there is one. -/
def toInt? : Double → Option Int
  | finite negative significand exponent =>
    let magnitude? :=
      if 0 ≤ exponent then some (significand * Nat.pow 2 exponent.toNat)
      else
        let unit := Nat.pow 2 (-exponent).toNat
        if significand % unit = 0 then some (significand / unit) else none
    magnitude?.map fun magnitude : Nat => if negative then -(magnitude : Int) else magnitude
  | _ => none

example : ofDecimal false 1 (-1) = finite false 0x1999999999999A (-56) := by decide +kernel
example : ofDecimal true 25 (-1) = finite true 0x14000000000000 (-51) := by decide +kernel
example : ofDecimal false 18 307 = infinite false := by decide +kernel
example : (ofDecimal false 2000 (-3)).toInt? = some 2 := by decide +kernel

end Double

end SliceRecords
