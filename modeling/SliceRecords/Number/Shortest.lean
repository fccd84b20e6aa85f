import SliceRecords.Number.Double

/-!
# Shortest decimal notation

The notation of a double with the fewest digits among those that read back as that double, and of
these the one nearest to it.
-/

namespace SliceRecords.Double

/-- A positive decimal number `digits * 10 ^ exponent`. -/
structure Decimal where
  digits : Nat
  exponent : Int
  deriving DecidableEq, Repr

/-- The exponent of the power of ten at or below a positive fraction. -/
def decimalExponent (numerator denominator : Nat) : Int :=
  if denominator ≤ numerator then
    ((Nat.toDigits 10 (numerator / denominator)).length : Int) - 1
  else
    let length := (Nat.toDigits 10 (denominator / numerator)).length
    if numerator * Nat.pow 10 (length - 1) = denominator then 1 - (length : Int)
    else -(length : Int)

/-- The decimal numbers with `count` digits that stand next to a positive fraction, the nearer one
first; a tie goes to the even digit. -/
def neighbours (numerator denominator : Nat) (count : Nat) : List Decimal :=
  let exponent := decimalExponent numerator denominator - (count - 1)
  let n := numerator * Nat.pow 10 (-exponent).toNat
  let d := denominator * Nat.pow 10 exponent.toNat
  let below : Decimal := ⟨n / d, exponent⟩
  let above : Decimal := ⟨n / d + 1, exponent⟩
  let rest := 2 * (n % d)
  if rest < d ∨ (rest = d ∧ below.digits % 2 = 0) then [below, above] else [above, below]

/-- The shortest decimal number that reads back as `significand * 2 ^ exponent`. Seventeen digits
always suffice, so the search ends there. -/
def shortest (significand : Nat) (exponent : Int) : Decimal :=
  let numerator := significand * Nat.pow 2 exponent.toNat
  let denominator := Nat.pow 2 (-exponent).toNat
  let readsBack (decimal : Decimal) : Bool :=
    ofDecimal false decimal.digits decimal.exponent = finite false significand exponent
  let counts := (List.range 17).map (· + 1)
  match (counts.flatMap (neighbours numerator denominator)).find? readsBack with
  | some decimal => decimal
  | none => ⟨significand, exponent⟩

/-- Where positional notation ends: from this power of ten on an exponent is written. -/
def positionalLimit : Int := 16

/-- Where positional notation begins: below this power of ten an exponent is written. -/
def positionalStart : Int := -4

/-- The digits of an exponent, at least two, after its sign. -/
def exponentText (exponent : Int) : List Char :=
  (if exponent < 0 then '-' else '+') :: (Nat.toDigits 10 exponent.natAbs).leftpad 2 '0'

/-- A decimal number in positional notation with at least one digit on either side of the point, or
with an exponent if its first digit stands for a power of ten outside the positional range. -/
def layout (decimal : Decimal) : List Char :=
  let all := Nat.toDigits 10 decimal.digits
  let digits := (all.reverse.dropWhile (· == '0')).reverse
  let point : Int := all.length + decimal.exponent
  if positionalStart < point ∧ point ≤ positionalLimit then
    if point ≤ 0 then '0' :: '.' :: (List.replicate (-point).toNat '0' ++ digits)
    else if (digits.length : Int) ≤ point then
      digits ++ List.replicate (point.toNat - digits.length) '0' ++ ['.', '0']
    else digits.take point.toNat ++ '.' :: digits.drop point.toNat
  else
    digits.take 1 ++ (if digits.length ≤ 1 then [] else '.' :: digits.drop 1) ++
      'e' :: exponentText (point - 1)

/-- The notation of a double in generated code, in messages and in dumps of finite numbers. -/
def text : Double → String
  | finite negative significand exponent =>
    let digits :=
      if significand = 0 then ['0', '.', '0'] else layout (shortest significand exponent)
    String.ofList (if negative then '-' :: digits else digits)
  | infinite negative => if negative then "-inf" else "inf"
  | notANumber => "nan"

example : text (ofDecimal false 1 (-1)) = "0.1" := by decide +kernel
example : text (ofDecimal false 1 16) = "1e+16" := by decide +kernel
example : text (ofDecimal true 1 15) = "-1000000000000000.0" := by decide +kernel
example : text (ofDecimal false 5 (-324)) = "5e-324" := by decide +kernel
example : text (ofDecimal false 12345 (-9)) = "1.2345e-05" := by decide +kernel

end SliceRecords.Double
