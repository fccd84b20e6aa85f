import SliceRecords.Number.Shortest

/-!
# Numbers

The numbers of a document. A number written without point and exponent is an integer of
any size; every other one is a double. The two kinds print differently and are kept apart,
but they compare by value.
-/

namespace SliceRecords

/-- A number of a document. -/
inductive Number where
  | integer (value : Int)
  | double (value : Double)
  deriving DecidableEq, Repr

namespace Number

/-- A number as generated code and messages write it. -/
def text : Number → String
  | integer value => toString value
  | double value => value.text

/-- The integer that a number equals, if there is one. -/
def toInt? : Number → Option Int
  | integer value => some value
  | double value => value.toInt?

/-- The value of a finite number as a mantissa and a power of two. -/
def dyadic? : Number → Option (Int × Int)
  | integer value => some (value, 0)
  | double (.finite negative significand exponent) =>
    some (if negative then -(significand : Int) else significand, exponent)
  | double _ => none

/-- A number that has a place in the order of numbers. -/
def isOrdered (number : Number) : Bool :=
  number != double .notANumber

/-- The mantissas of two dyadic numbers brought to their smaller power of two. -/
def align (x y : Int × Int) : Int × Int :=
  let least := min x.2 y.2
  (x.1 * Nat.pow 2 (x.2 - least).toNat, y.1 * Nat.pow 2 (y.2 - least).toNat)

/-- Equality by value, whatever the kinds. -/
def same (a b : Number) : Bool :=
  match a.dyadic?, b.dyadic? with
  | some x, some y => (align x y).1 == (align x y).2
  | none, none => a == b
  | _, _ => false

/-- The order by value. What is not a number is neither below nor above any number. -/
def lt (a b : Number) : Bool :=
  match a.dyadic?, b.dyadic? with
  | some x, some y => (align x y).1 < (align x y).2
  | some _, none => b == double (.infinite false)
  | none, some _ => a == double (.infinite true)
  | none, none => a == double (.infinite true) && b == double (.infinite false)

/-- A number below zero. -/
def isNegative (a : Number) : Bool :=
  a.lt (integer 0)

/-- Integers are equal by value only if they are the same. -/
@[simp] theorem same_integer (a b : Int) : same (integer a) (integer b) = (a == b) := by
  simp [same, dyadic?, align]

example : same (integer 1) (double (.ofDecimal false 10 (-1))) = true := by decide +kernel
example : lt (double (.zero true)) (integer 0) = false := by decide +kernel

end Number

end SliceRecords
