import SliceRecords.Json.Display
import SliceRecords.Model.Encoding
import SliceRecords.Model.TypeRef

/-!
# Violations

What is wrong with a value of a document and where the value stands. A report lists violations by
place; those at one place stay in the order in which they were found.
-/

namespace SliceRecords.Document

/-- The types of JSON values that the document grammar names. -/
inductive ValueType where
  | null
  | boolean
  | integer
  | string
  | array
  | object
  deriving DecidableEq, Repr

namespace ValueType

/-- The name of a type in messages. -/
def name : ValueType → String
  | null => "null"
  | boolean => "boolean"
  | integer => "integer"
  | string => "string"
  | array => "array"
  | object => "object"

/-- Whether a value has a type. Every number that equals an integer is one,
however it is written. -/
def holds : ValueType → Json → Bool
  | null, .null => true
  | boolean, .bool _ => true
  | integer, .number value => value.toInt?.isSome
  | string, .string _ => true
  | array, .array _ => true
  | object, .object _ => true
  | _, _ => false

end ValueType

/-- What is wrong with a value. -/
inductive Cause where
  | wrongType (value : Json) (expected : List ValueType)
  | notOneOf (value : Json) (choices : List String)
  | missing (name : String)
  | unexpected (names : List String)
  | empty (value : Json)
  | belowZero (value : Json)
  | repeated (value : Json)
  deriving Repr

/-- The wording of what is wrong with a value. -/
def Cause.message : Cause → String
  | wrongType value expected =>
    let types := ", ".intercalate (expected.map fun type => Text.quoted type.name)
    s!"{value.display} is not of type {types}"
  | notOneOf value choices => s!"{value.display} is not one of {Json.displayTexts choices}"
  | missing name => s!"{Text.quoted name} is a required property"
  | unexpected names =>
    let verb := if names.length = 1 then "was" else "were"
    let listed := ", ".intercalate (names.map Text.quoted)
    s!"Additional properties are not allowed ({listed} {verb} unexpected)"
  | empty value => s!"{value.display} should be non-empty"
  | belowZero value => s!"{value.display} is less than the minimum of 0"
  | repeated value => s!"{value.display} has non-unique elements"

/-- The place of a value in a document: the names of members and the indexes of
items on the way to it. -/
abbrev Path := List String

/-- The order of places in a report: part by part, a place before those inside it. -/
def Path.atMost : Path → Path → Bool
  | [], _ => true
  | _ :: _, [] => false
  | a :: as, b :: bs => if a = b then Path.atMost as bs else a < b

/-- Something that is wrong with a value of a document. -/
structure Violation where
  path : Path
  cause : Cause
  deriving Repr

/-- The line of a violation in a report. -/
def Violation.line (violation : Violation) : String :=
  let place := "/".intercalate violation.path
  s!"  at /{place}: {violation.cause.message}"

/-- Violations in the order of a report. -/
def report (violations : List Violation) : List Violation :=
  violations.mergeSort fun a b => a.path.atMost b.path

end SliceRecords.Document
