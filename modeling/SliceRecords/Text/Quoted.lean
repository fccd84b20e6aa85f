import SliceRecords.Text.Hex
import SliceRecords.Text.Printable

/-!
# Quoted texts

The form in which messages show a text: between quotation marks, with everything that would not
print written as an escape.
-/

namespace SliceRecords.Text

/-- The mark around a quoted text: a single one, unless the text holds single
marks and no double one. -/
def quotationMark (text : List Char) : Char :=
  if '\'' ∈ text ∧ '"' ∉ text then '"' else '\''

/-- One character of a text between the marks `mark`. -/
def quotedChar (mark c : Char) : List Char :=
  let n := c.toNat
  if c = mark ∨ c = '\\' then ['\\', c]
  else if c = '\t' then ['\\', 't']
  else if c = '\n' then ['\\', 'n']
  else if c = '\r' then ['\\', 'r']
  else if isPrintable c then [c]
  else if n < 0x100 then '\\' :: 'x' :: hex 2 n
  else if n < 0x10000 then '\\' :: 'u' :: hex 4 n
  else '\\' :: 'U' :: hex 8 n

/-- A text between quotation marks. -/
def quoted (text : String) : String :=
  let mark := quotationMark text.toList
  String.ofList (mark :: text.toList.flatMap (quotedChar mark) ++ [mark])

example : quoted "it's" = "\"it's\"" := by decide +kernel
example : quoted "a\"b'c\\\n" = "'a\"b\\'c\\\\\\n'" := by decide +kernel

end SliceRecords.Text
