import Mathlib.Algebra.Order.Field.Rat
import Mathlib.Algebra.Order.Field.Power
import Mathlib.Data.Rat.Cast.Order
import Mathlib.Order.WithBot
import Mathlib.Tactic.Positivity
import SliceRecords.Number.Basic

/-!
# The order of numbers

Numbers compare by value. A finite number is a rational, and the infinite ones lie below and above
all rationals, so the numbers but for what is not a number are linearly preordered. Main
statement: `lt_eq_true_iff`.
-/

namespace SliceRecords.Number

/-- The value of a mantissa and a power of two. -/
def ratio (x : Int × Int) : ℚ :=
  x.1 * (2 : ℚ) ^ x.2

/-- The place of a number among the rationals and the two infinities. -/
def place (number : Number) : WithBot (WithTop ℚ) :=
  match number.dyadic? with
  | some x => ((ratio x : WithTop ℚ) : WithBot (WithTop ℚ))
  | none => if number = double (.infinite true) then ⊥ else ((⊤ : WithTop ℚ) : WithBot (WithTop ℚ))

/-- A mantissa that is brought to a smaller power of two keeps the value. -/
theorem ratio_eq_of_le {x : Int × Int} {least : Int} (h : least ≤ x.2) :
    ratio x = ((x.1 * Nat.pow 2 (x.2 - least).toNat : Int) : ℚ) * (2 : ℚ) ^ least := by
  have hexponent : x.2 = ((x.2 - least).toNat : Int) + least := by omega
  have hpower : (2 : ℚ) ^ x.2 = (2 : ℚ) ^ (x.2 - least).toNat * (2 : ℚ) ^ least := by
    conv_lhs => rw [hexponent, zpow_add₀ two_ne_zero, zpow_natCast]
  rw [ratio, hpower, ← mul_assoc, Nat.pow_eq]
  push_cast
  rfl

/-- Mantissas at one power of two compare like the values. -/
theorem align_lt_iff (x y : Int × Int) : (align x y).1 < (align x y).2 ↔ ratio x < ratio y := by
  have hpositive : (0 : ℚ) < (2 : ℚ) ^ min x.2 y.2 := by positivity
  rw [ratio_eq_of_le (min_le_left x.2 y.2), ratio_eq_of_le (min_le_right x.2 y.2),
    mul_lt_mul_iff_left₀ hpositive, Int.cast_lt]
  rfl

/-- Mantissas at one power of two are equal if the values are. -/
theorem align_eq_iff (x y : Int × Int) : (align x y).1 = (align x y).2 ↔ ratio x = ratio y := by
  have hnonzero : (2 : ℚ) ^ min x.2 y.2 ≠ 0 := by positivity
  rw [ratio_eq_of_le (min_le_left x.2 y.2), ratio_eq_of_le (min_le_right x.2 y.2),
    mul_left_inj' hnonzero, Int.cast_inj]
  rfl

/-- A number without a finite value that has a place in the order is infinite. -/
theorem eq_infinite_of_isOrdered {number : Number} (h : number.isOrdered = true)
    (hnone : number.dyadic? = none) : ∃ negative, number = double (.infinite negative) := by
  unfold isOrdered at h
  rcases number with value | (⟨negative, significand, exponent⟩ | negative | _)
  · cases hnone
  · cases hnone
  · exact ⟨negative, rfl⟩
  · simp at h

/-- The value of a finite number lies below the upper infinity. -/
@[simp] theorem coe_ratio_lt_top (x : Int × Int) :
    ((ratio x : WithTop ℚ) : WithBot (WithTop ℚ)) < ⊤ :=
  WithBot.coe_lt_coe.mpr (WithTop.coe_lt_top (ratio x))

/-- Numbers that have a place in the order compare by it. -/
theorem lt_eq_true_iff {a b : Number} (ha : a.isOrdered = true) (hb : b.isOrdered = true) :
    a.lt b = true ↔ a.place < b.place := by
  unfold lt place
  cases hx : a.dyadic? with
  | some x =>
    cases hy : b.dyadic? with
    | some y => simp [align_lt_iff]
    | none =>
      obtain ⟨negative, rfl⟩ := eq_infinite_of_isOrdered hb hy
      cases negative <;> simp
  | none =>
    obtain ⟨negative, rfl⟩ := eq_infinite_of_isOrdered ha hx
    cases hy : b.dyadic? with
    | some y => cases negative <;> simp
    | none =>
      obtain ⟨other, rfl⟩ := eq_infinite_of_isOrdered hb hy
      cases negative <;> cases other <;> simp

/-- Equal numbers have one place. -/
theorem place_eq_of_same {a b : Number} (h : a.same b = true) : a.place = b.place := by
  unfold same at h
  unfold place
  cases hx : a.dyadic? with
  | some x =>
    cases hy : b.dyadic? with
    | some y =>
      simp only [hx, hy, beq_iff_eq] at h
      simp only [(align_eq_iff x y).mp h]
    | none => simp [hx, hy] at h
  | none =>
    cases hy : b.dyadic? with
    | some y => simp [hx, hy] at h
    | none =>
      simp only [hx, hy, beq_iff_eq] at h
      simp only [h]

/-- Only numbers that have a place in the order are below others or above them. -/
theorem isOrdered_of_lt {a b : Number} (h : a.lt b = true) :
    a.isOrdered = true ∧ b.isOrdered = true := by
  have hnone : (double .notANumber).dyadic? = none := rfl
  unfold lt at h
  simp only [isOrdered, bne_iff_ne, ne_eq]
  constructor
  · rintro rfl
    rw [hnone] at h
    cases hb : b.dyadic? <;> simp [hb] at h
  · rintro rfl
    rw [hnone] at h
    cases ha : a.dyadic? <;> simp [ha] at h

end SliceRecords.Number
