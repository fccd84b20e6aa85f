import SliceRecords.Proofs.Number.Order

/-!
# Integral numbers

A number counts as an integer if it equals one, however it is written, and compares like this
integer. Main statements: `toInt?_eq_some_iff` and `isNegative_of_same_integer`.
-/

namespace SliceRecords

namespace Double

/-- The significand of a finite double with its sign. -/
def mantissa (negative : Bool) (significand : Nat) : Int :=
  if negative then -(significand : Int) else significand

/-- A factor of the significand is one of the mantissa. -/
theorem mantissa_mul (negative : Bool) (a b : Nat) :
    mantissa negative (a * b) = mantissa negative a * b := by
  cases negative <;> simp [mantissa]

/-- The mantissa without its sign is the significand. -/
theorem natAbs_mantissa (negative : Bool) (significand : Nat) :
    (mantissa negative significand).natAbs = significand := by
  cases negative <;> simp [mantissa]

/-- A finite double is an integer if its mantissa is the integer at the same power of two. -/
theorem toInt?_finite_eq_some_iff {negative : Bool} {significand : Nat} {exponent n : Int} :
    (finite negative significand exponent).toInt? = some n ↔
    mantissa negative significand * Nat.pow 2 exponent.toNat = n * Nat.pow 2 (-exponent).toNat := by
  have hone : Nat.pow 2 0 = 1 := rfl
  by_cases hexponent : 0 ≤ exponent
  · have hzero : (-exponent).toNat = 0 := by omega
    simp only [toInt?, if_pos hexponent, hzero, hone, Option.map_some, Option.some.injEq]
    change mantissa negative (significand * Nat.pow 2 exponent.toNat) = n ↔ _
    rw [mantissa_mul, Nat.cast_one, mul_one]
  · have hzero : exponent.toNat = 0 := by omega
    have hpositive : 0 < Nat.pow 2 (-exponent).toNat := Nat.pow_pos (by decide)
    rw [hzero, hone, Nat.cast_one, mul_one]
    simp only [toInt?, if_neg hexponent]
    generalize Nat.pow 2 (-exponent).toNat = unit at hpositive
    by_cases hmod : significand % unit = 0
    · obtain ⟨quotient, rfl⟩ := Nat.dvd_of_mod_eq_zero hmod
      rw [if_pos hmod, Nat.mul_div_cancel_left quotient hpositive, Option.map_some,
        Option.some.injEq]
      change mantissa negative quotient = n ↔ _
      rw [Nat.mul_comm, mantissa_mul]
      exact (mul_left_inj' (by omega)).symm
    · rw [if_neg hmod, Option.map_none]
      refine iff_of_false (by simp) fun heq => hmod ?_
      have habs := congrArg Int.natAbs heq
      rw [natAbs_mantissa, Int.natAbs_mul, Int.natAbs_natCast] at habs
      rw [habs, Nat.mul_mod_left]

end Double

namespace Number

/-- A number equals an integer if it is finite and has the same mantissa at one power of two. -/
theorem same_integer_iff {number : Number} {n : Int} :
    number.same (integer n) = true ↔ ∃ x, number.dyadic? = some x ∧
      x.1 * Nat.pow 2 x.2.toNat = n * Nat.pow 2 (-x.2).toNat := by
  have hinteger : (integer n).dyadic? = some (n, 0) := rfl
  rw [same, hinteger]
  cases hx : number.dyadic? with
  | none => simp
  | some x =>
    have hleft : (x.2 - min x.2 0).toNat = x.2.toNat := by omega
    have hright : (0 - min x.2 0).toNat = (-x.2).toNat := by omega
    simp only [align, hleft, hright, beq_iff_eq, Option.some.injEq, exists_eq_left']

/-- The integer that a number stands for is the one that it equals. -/
theorem toInt?_eq_some_iff {number : Number} {n : Int} :
    number.toInt? = some n ↔ number.same (integer n) = true := by
  rw [same_integer_iff]
  rcases number with value | (⟨negative, significand, exponent⟩ | negative | _)
  · simp [toInt?, dyadic?]
  · rw [toInt?, Double.toInt?_finite_eq_some_iff]
    simp only [dyadic?, Option.some.injEq, exists_eq_left']
    rfl
  · simp [toInt?, Double.toInt?, dyadic?]
  · simp [toInt?, Double.toInt?, dyadic?]

/-- A number that equals an integer lies below zero exactly if the integer does. -/
theorem isNegative_of_same_integer {number : Number} {n : Int}
    (h : number.same (integer n) = true) : number.isNegative = decide (n < 0) := by
  obtain ⟨x, hx, heq⟩ := same_integer_iff.mp h
  have hzero : (integer 0).dyadic? = some (0, 0) := rfl
  have hscaled (m : Int) (e : Nat) : m * Nat.pow 2 e < 0 ↔ m < 0 := by
    have hpositive : (0 : Int) < Nat.pow 2 e := by exact_mod_cast Nat.pow_pos (by decide)
    exact ⟨fun hneg => neg_of_mul_neg_left hneg hpositive.le,
      fun hneg => mul_neg_of_neg_of_pos hneg hpositive⟩
  have hsign : x.1 < 0 ↔ n < 0 := by
    rw [← hscaled x.1, heq, hscaled]
  rw [isNegative, lt, hx, hzero]
  simp only [align, zero_mul, hscaled, hsign]

end Number

end SliceRecords
