import SliceRecords.Model.Basic

/-!
# Literals

Values in generated code. A string literal stands on one line, whatever the text: quotation marks,
backslashes and everything that could end a line are escaped.
-/

namespace SliceRecords.Code

/-- The escape letter of a character that has one. -/
def escapeLetter? (c : Char) : Option Char :=
  match c.toNat with
  | 0x00 => some '0'
  | 0x07 => some 'a'
  | 0x08 => some 'b'
  | 0x09 => some 't'
  | 0x0A => some 'n'
  | 0x0B => some 'v'
  | 0x0C => some 'f'
  | 0x0D => some 'r'
  | 0x22 => some '"'
  | 0x5C => some '\\'
  | _ => none

/-- A character without an escape letter that a literal must not hold: a
control or a line separator. -/
def needsCodeEscape (c : Char) : Bool :=
  let n := c.toNat
  n < 0x20 || (0x7F ≤ n && n < 0xA0) || n == 0x2028 || n == 0x2029

/-- One character of a text between the quotation marks of a literal. -/
def literalChar (c : Char) : List Char :=
  match escapeLetter? c with
  | some letter => ['\\', letter]
  | none => if needsCodeEscape c then '\\' :: 'u' :: Text.hex 4 c.toNat else [c]

/-- The string literal of a text. -/
def stringLiteral (text : String) : String :=
  String.ofList ('"' :: text.toList.flatMap literalChar ++ ['"'])

/-- The literal of a default value. A string field gets a string literal; texts for other types are
expressions and stand as they are. -/
def defaultLiteral (type : TypeRef) (value : Json) : String :=
  match value with
  | .bool value => if value then "true" else "false"
  | value =>
    if type.kind = .primitive ∧ type.name = some Primitive.string.keyword then
      stringLiteral value.plain
    else if type.kind = .primitive ∧ type.name = some Primitive.float32.keyword then
      value.plain ++ "F"
    else value.plain

/-- The attribute that marks a deprecated declaration; an empty message gives no reason. -/
def obsoleteAttribute (deprecated : String) : String :=
  if deprecated.isEmpty then "global::System.Obsolete"
  else s!"global::System.Obsolete({stringLiteral deprecated})"

end SliceRecords.Code
