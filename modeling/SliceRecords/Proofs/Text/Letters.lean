/-!
# Letters by their code points

The letters and digits of seven bits lie in three ranges of code points, and a letter and its other
case lie 32 apart. So capitals are told from small letters, and what a change of case keeps is
arithmetic. Main statements: `isLower_toUpper` and `eq_of_toLower_eq_toLower`.
-/

namespace SliceRecords.Text

/-- Capitals by the comparison that tells them. -/
theorem isUpper_eq (c : Char) : c.isUpper = decide ('A'.val ≤ c.val ∧ c.val ≤ 'Z'.val) := rfl

/-- Small letters by the comparisons that tell them. -/
theorem isLower_eq (c : Char) :
    c.isLower = (decide ('a'.val ≤ c.val) && decide (c.val ≤ 'z'.val)) := rfl

/-- A letter of seven bits is a capital or a small one. -/
theorem isAlpha_eq (c : Char) : c.isAlpha = (c.isUpper || c.isLower) := rfl

/-- A letter or digit of seven bits is a capital, a small letter or a digit. -/
theorem isAlphanum_eq (c : Char) : c.isAlphanum = (c.isUpper || c.isLower || c.isDigit) := rfl

/-- The capitals are a range of code points. -/
theorem isUpper_iff {c : Char} : c.isUpper = true ↔ 65 ≤ c.toNat ∧ c.toNat ≤ 90 := by
  rw [isUpper_eq, decide_eq_true_eq, UInt32.le_iff_toNat_le, UInt32.le_iff_toNat_le]
  rfl

/-- The small letters are a range of code points. -/
theorem isLower_iff {c : Char} : c.isLower = true ↔ 97 ≤ c.toNat ∧ c.toNat ≤ 122 := by
  rw [isLower_eq, Bool.and_eq_true, decide_eq_true_eq, decide_eq_true_eq, UInt32.le_iff_toNat_le,
    UInt32.le_iff_toNat_le]
  rfl

/-- Letters and digits of seven bits lie between `0` and `z`. -/
theorem toNat_bounds_of_isAlphanum {c : Char} (h : c.isAlphanum = true) :
    48 ≤ c.toNat ∧ c.toNat ≤ 122 := by
  rw [isAlphanum_eq, Bool.or_eq_true, Bool.or_eq_true, isUpper_iff, isLower_iff,
    Char.isDigit_iff_toNat] at h
  change (_ ∨ _) ∨ 48 ≤ _ ∧ _ ≤ 57 at h
  omega

/-- A capital is no small letter. -/
theorem isLower_eq_false_of_isUpper {c : Char} (h : c.isUpper = true) : c.isLower = false := by
  rw [Bool.eq_false_iff, ne_eq, isLower_iff]
  rw [isUpper_iff] at h
  omega

/-- All but the small letters are their own capitals. -/
theorem toUpper_of_not_isLower {c : Char} (h : ¬c.isLower = true) : c.toUpper = c := by
  rw [isLower_eq, Bool.and_eq_true, decide_eq_true_eq, decide_eq_true_eq] at h
  exact dif_neg h

/-- All but the capitals are their own small letters. -/
theorem toLower_of_not_isUpper {c : Char} (h : ¬c.isUpper = true) : c.toLower = c := by
  rw [isUpper_eq, decide_eq_true_eq] at h
  exact dif_neg h

/-- The capital of a small letter lies 32 before it. -/
theorem toNat_toUpper {c : Char} (h : c.isLower = true) : c.toUpper.toNat = c.toNat - 32 := by
  have hlower := isLower_iff.mp h
  have hnat : c.toNat = c.val.toNat := rfl
  rw [isLower_eq, Bool.and_eq_true, decide_eq_true_eq, decide_eq_true_eq] at h
  have hupper : c.toUpper = ⟨c.val + ('A'.val - 'a'.val), _⟩ := dif_pos h
  rw [hupper]
  change (c.val + ('A'.val - 'a'.val)).toNat = _
  rw [UInt32.toNat_add]
  simp
  omega

/-- The small letter of a capital lies 32 behind it. -/
theorem toNat_toLower {c : Char} (h : c.isUpper = true) : c.toLower.toNat = c.toNat + 32 := by
  have hupper := isUpper_iff.mp h
  have hnat : c.toNat = c.val.toNat := rfl
  rw [isUpper_eq, decide_eq_true_eq] at h
  have hlower : c.toLower = ⟨c.val + ('a'.val - 'A'.val), _⟩ := dif_pos h
  rw [hlower]
  change (c.val + ('a'.val - 'A'.val)).toNat = _
  rw [UInt32.toNat_add]
  simp
  omega

/-- A capital has a small letter. -/
theorem isLower_toLower {c : Char} (h : c.isUpper = true) : c.toLower.isLower = true := by
  rw [isLower_iff, toNat_toLower h]
  rw [isUpper_iff] at h
  omega

/-- A letter has a capital. -/
theorem isUpper_toUpper {c : Char} (h : c.isAlpha = true) : c.toUpper.isUpper = true := by
  by_cases hlower : c.isLower = true
  · have hnat := toNat_toUpper hlower
    rw [isLower_iff] at hlower
    rw [isUpper_iff]
    omega
  · rw [isAlpha_eq, Bool.or_eq_true] at h
    rw [toUpper_of_not_isLower hlower]
    exact h.resolve_right hlower

/-- The upper case of a character is no small letter. -/
theorem isLower_toUpper (c : Char) : c.toUpper.isLower = false := by
  by_cases hlower : c.isLower = true
  · have halpha : c.isAlpha = true := by rw [isAlpha_eq, hlower, Bool.or_true]
    exact isLower_eq_false_of_isUpper (isUpper_toUpper halpha)
  · rw [toUpper_of_not_isLower hlower]
    exact Bool.eq_false_iff.mpr hlower

/-- Capitals with one small letter are one capital. -/
theorem eq_of_toLower_eq_toLower {c d : Char} (hc : c.isUpper = true) (hd : d.isUpper = true)
    (h : c.toLower = d.toLower) : c = d := by
  have hnat := congrArg Char.toNat h
  rw [toNat_toLower hc, toNat_toLower hd] at hnat
  exact Char.toNat_inj.mp (by omega)

/-- Capitals come from letters, so a character in front of all capitals is not one. -/
theorem eq_of_toUpper_eq {c d : Char} (hd : d.toNat < 65) (h : c.toUpper = d) : c = d := by
  by_cases hlower : c.isLower = true
  · have hnat := toNat_toUpper hlower
    rw [isLower_iff] at hlower
    rw [h] at hnat
    omega
  · rwa [toUpper_of_not_isLower hlower] at h

/-- Small letters are not in front of all capitals either. -/
theorem eq_of_toLower_eq {c d : Char} (hd : d.toNat < 65) (h : c.toLower = d) : c = d := by
  by_cases hupper : c.isUpper = true
  · have hnat := toNat_toLower hupper
    rw [isUpper_iff] at hupper
    rw [h] at hnat
    omega
  · rwa [toLower_of_not_isUpper hupper] at h

end SliceRecords.Text
