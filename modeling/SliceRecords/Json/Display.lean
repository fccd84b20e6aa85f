import SliceRecords.Json.Basic
import SliceRecords.Text.Quoted

/-!
# JSON values in messages

The form in which messages and generated code show a value: truth values and the null value
are capitalised words, strings inside a value are quoted, and brackets enclose items and
members in document order.
-/

namespace SliceRecords.Json

/-- The word for a truth value. -/
def boolWord (value : Bool) : String :=
  if value then "True" else "False"

/-- The word for the null value and for everything that is absent. -/
def nullWord : String := "None"

/-- Texts between brackets, separated by commas. -/
def bracketed (opening closing : String) (parts : List String) : String :=
  opening ++ ", ".intercalate parts ++ closing

mutual

/-- A value as messages show it. -/
def display : Json → String
  | null => nullWord
  | bool value => boolWord value
  | number value => value.text
  | string value => Text.quoted value
  | array items => bracketed "[" "]" (displayItems items)
  | object members => bracketed "\x7b" "\x7d" (displayMembers members)

/-- The items of an array as messages show them. -/
def displayItems : List Json → List String
  | [] => []
  | item :: rest => display item :: displayItems rest

/-- The members of an object as messages show them. -/
def displayMembers : List (String × Json) → List String
  | [] => []
  | (name, value) :: rest => (Text.quoted name ++ ": " ++ display value) :: displayMembers rest

end

/-- A value as text of its own: a string stands for itself, every other value is displayed. -/
def plain : Json → String
  | string value => value
  | json => json.display

/-- A list of texts as messages show it. -/
def displayTexts (texts : List String) : String :=
  bracketed "[" "]" (texts.map Text.quoted)

/-- A text that may be absent, as messages show it. -/
def displayText? (text : Option String) : String :=
  (text.map Text.quoted).getD nullWord

example : display (object [("k", array [null, bool true]), ("it's", string "x")]) =
    "\x7b'k': [None, True], \"it's\": 'x'\x7d" := by decide +kernel

end SliceRecords.Json
