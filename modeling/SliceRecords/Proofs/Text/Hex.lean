import Mathlib.Data.Nat.Basic
import SliceRecords.Json.Reader

/-!
# Hexadecimal digits that are read back

A code point that is written with four hexadecimal digits is read back from them. Main statement:
`exists_hex_eq`.
-/

namespace SliceRecords.Text

/-- A digit has its value. -/
theorem hexValue?_digitChar {digit : Nat} (h : digit < 16) :
    hexValue? (Nat.digitChar digit) = some digit := by
  have hall : ∀ digit : Fin 16, hexValue? (Nat.digitChar digit) = some digit.val := by decide
  exact hall ⟨digit, h⟩

/-- The last of several digits is the remainder, and the digits before it are
those of the quotient. -/
theorem hex_succ {width : Nat} (hwidth : 0 < width) (n : Nat) :
    hex (width + 1) n = hex width (n / 16) ++ [Nat.digitChar (n % 16)] := by
  by_cases hsmall : n < 16
  · have hzero : n / 16 = 0 := Nat.div_eq_of_lt hsmall
    rw [hzero, Nat.mod_eq_of_lt hsmall, hex, hex, Nat.toDigits_of_lt_base hsmall, Nat.toDigits_zero]
    obtain ⟨more, rfl⟩ := Nat.exists_eq_succ_of_ne_zero (Nat.pos_iff_ne_zero.mp hwidth)
    simp [List.leftpad, ← List.replicate_succ']
  · rw [hex, Nat.toDigits_of_base_le (by decide) (Nat.le_of_not_lt hsmall), hex]
    simp [List.leftpad]

/-- Four digits write a number of sixteen bits. -/
theorem exists_hex_eq {n : Nat} (h : n < 0x10000) :
    ∃ a b c d, hex 4 n = [Nat.digitChar a, Nat.digitChar b, Nat.digitChar c, Nat.digitChar d] ∧
      Json.codeUnit? (Nat.digitChar a) (Nat.digitChar b) (Nat.digitChar c) (Nat.digitChar d) =
        some n := by
  have hfirst : n / 16 / 16 / 16 < 16 := by omega
  refine ⟨n / 16 / 16 / 16, n / 16 / 16 % 16, n / 16 % 16, n % 16, ?_, ?_⟩
  · rw [hex_succ (by decide), hex_succ (by decide), hex_succ (by decide), hex,
      Nat.toDigits_of_lt_base hfirst]
    rfl
  · have hvalue :
        ((n / 16 / 16 / 16 * 16 + n / 16 / 16 % 16) * 16 + n / 16 % 16) * 16 + n % 16 = n := by
      omega
    simp [Json.codeUnit?, hexValue?_digitChar, hfirst, Nat.mod_lt, hvalue]

end SliceRecords.Text
