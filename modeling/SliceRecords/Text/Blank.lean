/-!
# Blank characters

The characters that layout ignores at the ends of a line or of a text. The set is that of Unicode
white space together with the four information separators, so it is wider than `Char.isWhitespace`.
-/

namespace SliceRecords.Text

/-- A character that trimming removes: Unicode white space or an information separator. -/
def isBlank (c : Char) : Bool :=
  let n := c.toNat
  (0x09 ≤ n && n ≤ 0x0D) || (0x1C ≤ n && n ≤ 0x20) || n == 0x85 || n == 0xA0 || n == 0x1680 ||
    (0x2000 ≤ n && n ≤ 0x200A) || n == 0x2028 || n == 0x2029 || n == 0x202F || n == 0x205F ||
    n == 0x3000

/-- Every character of the standard library's white space is blank. -/
theorem isBlank_of_isWhitespace {c : Char} (h : c.isWhitespace = true) : isBlank c = true := by
  simp only [Char.isWhitespace, Bool.or_eq_true, decide_eq_true_eq] at h
  rcases h with ((rfl | rfl) | rfl) | rfl <;> decide

/-- A text that is empty or holds blank characters alone. -/
def isBlankText (text : String) : Bool :=
  text.toList.all isBlank

end SliceRecords.Text
