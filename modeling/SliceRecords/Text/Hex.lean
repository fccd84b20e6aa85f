/-!
# Hexadecimal digits

Code points as escapes write them, and the value of a digit that an escape may hold.
-/

namespace SliceRecords.Text

/-- The digits of `n` in base 16, in lower case, with zeros in front up to `width` digits. -/
def hex (width n : Nat) : List Char :=
  (Nat.toDigits 16 n).leftpad width '0'

/-- The value of a hexadecimal digit in either case. -/
def hexValue? (c : Char) : Option Nat :=
  if '0' ≤ c ∧ c ≤ '9' then some (c.toNat - '0'.toNat)
  else if 'a' ≤ c ∧ c ≤ 'f' then some (c.toNat - 'a'.toNat + 10)
  else if 'A' ≤ c ∧ c ≤ 'F' then some (c.toNat - 'A'.toNat + 10)
  else none

end SliceRecords.Text
