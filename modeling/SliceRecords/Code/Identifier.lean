import SliceRecords.Text.Lowercase
import SliceRecords.Text.Trim

/-!
# Identifiers

From the names of declarations to identifiers of generated code. A name is cut into words,
the words are joined with a capital each, and an identifier that is a reserved keyword
gets an at sign in front.
-/

namespace SliceRecords.Code

/-- The reserved keywords of the generated language. -/
def reservedKeywords : List String :=
  ["abstract", "as", "base", "bool", "break", "byte", "case", "catch", "char", "checked", "class",
   "const", "continue", "decimal", "default", "delegate", "do", "double", "else", "enum", "event",
   "explicit", "extern", "false", "finally", "fixed", "float", "for", "foreach", "goto", "if",
   "implicit", "in", "int", "interface", "internal", "is", "lock", "long", "namespace", "new",
   "null", "object", "operator", "out", "override", "params", "private", "protected", "public",
   "readonly", "ref", "return", "sbyte", "sealed", "short", "sizeof", "stackalloc", "static",
   "string", "struct", "switch", "this", "throw", "true", "try", "typeof", "uint", "ulong",
   "unchecked", "unsafe", "ushort", "using", "virtual", "void", "volatile", "while"]

/-- An identifier as code may use it: a reserved keyword is escaped. -/
def escapeIdentifier (name : String) : String :=
  if name ∈ reservedKeywords then "@" ++ name else name

/-- A small letter or a digit, both of seven bits: what goes on a word. -/
def continuesWord (c : Char) : Bool :=
  c.isLower || c.isDigit

/-- The words of a name. A run of capitals is a word, except that its last capital begins
the next word if a small letter follows; a run of small letters and digits is a word; all
else separates words. -/
def words (name : List Char) : List (List Char) :=
  match name with
  | [] => []
  | c :: rest =>
    if c.isUpper then
      let more := rest.takeWhile Char.isUpper
      let after := rest.dropWhile Char.isUpper
      if (after.head?.map Char.isLower).getD false then
        let capitals := c :: more
        let word := capitals.getLast (by simp [capitals]) :: after.takeWhile continuesWord
        let following := words (after.dropWhile continuesWord)
        if more.isEmpty then word :: following else capitals.dropLast :: word :: following
      else (c :: more) :: words after
    else if continuesWord c then
      (c :: rest.takeWhile continuesWord) :: words (rest.dropWhile continuesWord)
    else words rest
termination_by name.length
decreasing_by
  all_goals
    have h₁ := Text.length_dropWhile_le Char.isUpper rest
    have h₂ := Text.length_dropWhile_le continuesWord rest
    have h₃ := Text.length_dropWhile_le continuesWord (rest.dropWhile Char.isUpper)
    simp only [List.length_cons]
    omega

/-- A word with a capital letter at its start. -/
def capitalize : List Char → List Char
  | [] => []
  | c :: rest => c.toUpper :: rest

/-- The words of a name joined with a capital each; a name without words is kept as it is. -/
def pascalCase (name : String) : String :=
  match words name.toList with
  | [] => name
  | parts => String.ofList (parts.flatMap capitalize)

/-- The words of a name joined with a capital each but the first. -/
def camelCase (name : String) : String :=
  match (pascalCase name).toList with
  | [] => ""
  | c :: rest => String.ofList (Text.lowercase c ++ rest)

/-- The identifier of the member for a field, and of the declaration for a struct. -/
def memberName (name : String) : String :=
  escapeIdentifier (pascalCase name)

/-- The identifier of the constructor parameter for a field. -/
def parameterName (name : String) : String :=
  escapeIdentifier (camelCase name)

example : words "HTTPServer2Go_x".toList =
    ["HTTP".toList, "Server2".toList, "Go".toList, "x".toList] := by decide +kernel
example : pascalCase "a_bC-dEFg" = "ABCDEFg" := by decide +kernel
example : parameterName "Class" = "@class" := by decide +kernel

end SliceRecords.Code
