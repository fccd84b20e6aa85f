import Mathlib.Data.List.TakeWhile
import SliceRecords.Number.Basic

/-!
# The notation of numbers

Which characters the text of a number can have: digits, signs, a point, and the letters of an
exponent and of the words for what is no finite number. Main statement:
`Number.isNumeralChar_of_mem_text`.
-/

namespace SliceRecords

/-- A character that the text of a number can have. -/
def isNumeralChar (c : Char) : Bool :=
  c.isDigit || ['-', '+', '.', 'e', 'i', 'n', 'f', 'a'].contains c

/-- Digits stand in numerals. -/
theorem isNumeralChar_of_isDigit {c : Char} (h : c.isDigit = true) : isNumeralChar c = true := by
  rw [isNumeralChar, h, Bool.true_or]

/-- The decimal digits of a number stand in numerals. -/
theorem isNumeralChar_of_mem_toDigits {n : Nat} {c : Char} (h : c ∈ Nat.toDigits 10 n) :
    isNumeralChar c = true :=
  isNumeralChar_of_isDigit (Nat.isDigit_of_mem_toDigits (by decide) (by decide) h)

/-- So do zeros. -/
theorem isNumeralChar_of_mem_replicate {n : Nat} {c : Char} (h : c ∈ List.replicate n '0') :
    isNumeralChar c = true := by
  rw [List.eq_of_mem_replicate h]
  decide

namespace Double

/-- The text of an exponent has nothing but what stands in numerals. -/
theorem isNumeralChar_of_mem_exponentText {exponent : Int} {c : Char}
    (h : c ∈ exponentText exponent) : isNumeralChar c = true := by
  rw [exponentText, List.mem_cons, List.leftpad, List.mem_append] at h
  rcases h with rfl | hzero | hdigit
  · split <;> decide
  · exact isNumeralChar_of_mem_replicate hzero
  · exact isNumeralChar_of_mem_toDigits hdigit

/-- So has a decimal, in either notation. -/
theorem isNumeralChar_of_mem_layout {decimal : Decimal} {c : Char} (h : c ∈ layout decimal) :
    isNumeralChar c = true := by
  unfold layout at h
  extract_lets all digits point at h
  have hdigits : ∀ d ∈ digits, isNumeralChar d = true := by
    intro d hd
    have hsub := (List.dropWhile_sublist (· == '0')).subset (List.mem_reverse.mp hd)
    exact isNumeralChar_of_mem_toDigits (List.mem_reverse.mp hsub)
  have hpoint : isNumeralChar '.' = true := by decide
  have hzero : isNumeralChar '0' = true := by decide
  split at h
  · split at h
    · rw [List.mem_cons, List.mem_cons, List.mem_append] at h
      rcases h with rfl | rfl | hfill | hdigit
      · exact hzero
      · exact hpoint
      · exact isNumeralChar_of_mem_replicate hfill
      · exact hdigits c hdigit
    · split at h
      · simp only [List.mem_append, List.mem_cons, List.not_mem_nil, or_false] at h
        rcases h with (hdigit | hfill) | rfl | rfl
        · exact hdigits c hdigit
        · exact isNumeralChar_of_mem_replicate hfill
        · exact hpoint
        · exact hzero
      · rw [List.mem_append, List.mem_cons] at h
        rcases h with hdigit | rfl | hdigit
        · exact hdigits c (List.mem_of_mem_take hdigit)
        · exact hpoint
        · exact hdigits c (List.mem_of_mem_drop hdigit)
  · rw [List.mem_append, List.mem_append, List.mem_cons] at h
    rcases h with (hdigit | hrest) | rfl | hexponent
    · exact hdigits c (List.mem_of_mem_take hdigit)
    · split at hrest
      · cases hrest
      · rcases List.mem_cons.mp hrest with rfl | hdigit
        · exact hpoint
        · exact hdigits c (List.mem_of_mem_drop hdigit)
    · decide
    · exact isNumeralChar_of_mem_exponentText hexponent

/-- So has the text of a double, the words for those that are not finite included. -/
theorem isNumeralChar_of_mem_text {value : Double} {c : Char} (h : c ∈ value.text.toList) :
    isNumeralChar c = true := by
  cases value with
  | finite negative significand exponent =>
    rw [text, String.toList_ofList] at h
    have hunsigned :
        ∀ d ∈ (if significand = 0 then ['0', '.', '0'] else layout (shortest significand exponent)),
          isNumeralChar d = true := by
      intro d hd
      split at hd
      · exact List.all_eq_true.mp (by decide) d hd
      · exact isNumeralChar_of_mem_layout hd
    split at h
    · rcases List.mem_cons.mp h with rfl | hrest
      · decide
      · exact hunsigned c hrest
    · exact hunsigned c h
  | infinite negative =>
    cases negative <;> exact List.all_eq_true.mp (by decide) c h
  | notANumber => exact List.all_eq_true.mp (by decide) c h

end Double

/-- The text of a number has only digits, signs, a point, and letters of `e`, `inf` and `nan`. -/
theorem Number.isNumeralChar_of_mem_text {number : Number} {c : Char} (h : c ∈ number.text.toList) :
    isNumeralChar c = true := by
  cases number with
  | double value => exact Double.isNumeralChar_of_mem_text h
  | integer value =>
    have hnat {n : Nat} (hc : c ∈ n.repr.toList) : isNumeralChar c = true := by
      rw [Nat.toList_repr] at hc
      exact isNumeralChar_of_mem_toDigits hc
    rw [text, Int.toString_eq_repr, Int.repr_eq_if] at h
    split at h
    · exact hnat h
    · rw [String.toList_append, List.mem_append] at h
      rcases h with hsign | hdigit
      · rw [List.mem_singleton.mp hsign]
        decide
      · exact hnat hdigit

end SliceRecords
