import SliceRecords.Json.Basic
import SliceRecords.Text.Hex

/-!
# Printed JSON

The text of a JSON value in a dump: two spaces of indentation per level, members sorted by name, and
no character outside the printable ASCII range, so that a dump reads the same under every encoding.
-/

namespace SliceRecords.Json

/-- The escape of one code unit of 16 bits. -/
def codeUnitEscape (unit : Nat) : List Char :=
  '\\' :: 'u' :: Text.hex 4 unit

/-- One character of a string between its quotation marks; a character beyond the first plane is
written as its two surrogates. -/
def printedChar (c : Char) : List Char :=
  let n := c.toNat
  if c = '"' ∨ c = '\\' then ['\\', c]
  else if c = '\n' then ['\\', 'n']
  else if c = '\r' then ['\\', 'r']
  else if c = '\t' then ['\\', 't']
  else if n = 0x08 then ['\\', 'b']
  else if n = 0x0C then ['\\', 'f']
  else if 0x20 ≤ n ∧ n < 0x7F then [c]
  else if n < 0x10000 then codeUnitEscape n
  else
    codeUnitEscape (0xD800 + (n - 0x10000) / 0x400) ++
      codeUnitEscape (0xDC00 + (n - 0x10000) % 0x400)

/-- A string between quotation marks. -/
def printedString (text : String) : String :=
  String.ofList ('"' :: text.toList.flatMap printedChar ++ ['"'])

/-- A number; the doubles that are not finite have names of their own. -/
def printedNumber : Number → String
  | .double (.infinite negative) => if negative then "-Infinity" else "Infinity"
  | .double .notANumber => "NaN"
  | value => value.text

/-- The start of a line that is indented by a number of levels. -/
def newline (level : Nat) : String :=
  String.ofList ('\n' :: List.replicate (2 * level) ' ')

/-- Entries one to a line between brackets; the level is that of the closing bracket. -/
def printedEntries (opening closing : String) (level : Nat) (entries : List String) : String :=
  if entries.isEmpty then opening ++ closing
  else
    opening ++ newline (level + 1) ++ ("," ++ newline (level + 1)).intercalate entries ++
      newline level ++ closing

/-- The order of members in a dump. -/
def nameAtMost (a b : String × String) : Bool :=
  !(b.1 < a.1 : Bool)

mutual

/-- The text of a value whose first line stands at an indentation level. -/
def printedAt (level : Nat) : Json → String
  | null => "null"
  | bool value => if value then "true" else "false"
  | number value => printedNumber value
  | string value => printedString value
  | array items => printedEntries "[" "]" level (printedItems (level + 1) items)
  | object members =>
    let sorted := (printedMembers (level + 1) members).mergeSort nameAtMost
    printedEntries "\x7b" "\x7d" level
      (sorted.map fun member => printedString member.1 ++ ": " ++ member.2)

/-- The texts of the items of an array. -/
def printedItems (level : Nat) : List Json → List String
  | [] => []
  | item :: rest => printedAt level item :: printedItems level rest

/-- The names of members with the texts of their values. -/
def printedMembers (level : Nat) : List (String × Json) → List (String × String)
  | [] => []
  | (name, value) :: rest => (name, printedAt level value) :: printedMembers level rest

end

/-- The text of a value in a dump. -/
def printed (json : Json) : String :=
  json.printedAt 0

end SliceRecords.Json
