import SliceRecords.Document.Repetition
import SliceRecords.Document.Violation

/-!
# The document grammar

Which JSON values are documents. Each check takes a value with its place and gives the violations in
it, in the order of the rules. A rule on members says nothing about a value that is no object, and a
rule on items nothing about a value that is no array.
-/

namespace SliceRecords.Document

/-- The violations in a value at a place. -/
abbrev Check := Path → Json → List Violation

namespace Check

/-- Rules one after the other. -/
def all (checks : List Check) : Check := fun path json =>
  checks.flatMap fun check => check path json

/-- The value has one of the types. -/
def type (expected : List ValueType) : Check := fun path json =>
  if expected.any fun type => type.holds json then [] else [⟨path, .wrongType json expected⟩]

/-- The value is one of the texts. -/
def oneOf (choices : List String) : Check := fun path json =>
  match json with
  | .string text => if text ∈ choices then [] else [⟨path, .notOneOf json choices⟩]
  | _ => [⟨path, .notOneOf json choices⟩]

/-- An object has the members of all these names. -/
def required (names : List String) : Check := fun path json =>
  match json with
  | .object members =>
    let absent := names.filter fun name => (Json.Members.get? members name).isNone
    absent.map fun name => ⟨path, .missing name⟩
  | _ => []

/-- An object has no members of other names. -/
def noOthers (names : List String) : Check := fun path json =>
  match json with
  | .object members =>
    let others := (Json.Members.names members).filter fun name => name ∉ names
    if others.isEmpty then []
    else [⟨path, .unexpected (others.mergeSort fun a b => !(b < a : Bool))⟩]
  | _ => []

/-- The member of a name satisfies a check. -/
def member (name : String) (check : Check) : Check := fun path json =>
  match json.get? name with
  | some value => check (path ++ [name]) value
  | none => []

/-- The items of a list satisfy a check, from an index on. -/
def itemsFrom (check : Check) (path : Path) : Nat → List Json → List Violation
  | _, [] => []
  | index, item :: rest =>
    check (path ++ [toString index]) item ++ itemsFrom check path (index + 1) rest

/-- The items of an array satisfy a check. -/
def items (check : Check) : Check := fun path json =>
  itemsFrom check path 0 json.items

/-- A text is not empty. -/
def nonEmptyText : Check := fun path json =>
  match json with
  | .string text => if text.isEmpty then [⟨path, .empty json⟩] else []
  | _ => []

/-- An array is not empty. -/
def nonEmptyArray : Check := fun path json =>
  match json with
  | .array items => if items.isEmpty then [⟨path, .empty json⟩] else []
  | _ => []

/-- A number is not below zero. -/
def notNegative : Check := fun path json =>
  match json with
  | .number value => if value.isNegative then [⟨path, .belowZero json⟩] else []
  | _ => []

/-- The items of an array differ from each other. -/
def unique : Check := fun path json =>
  if repeats json.items then [⟨path, .repeated json⟩] else []

/-- Nothing is asked of the value. -/
def anything : Check := fun _ _ => []

end Check

open Check

/-- Whether the kind of a type may be one of `kinds`: it is, or there is none. -/
def kindMayBe (kinds : List TypeKind) (json : Json) : Bool :=
  match json.get? "kind" with
  | some (.string name) => name ∈ kinds.map TypeKind.name
  | some _ => false
  | none => true

/-- A rule for types of some kinds. -/
def whenKind (kinds : List TypeKind) (check : Check) : Check := fun path json =>
  if kindMayBe kinds json then check path json else []

/-- The kinds of types that have a name. -/
def namedKinds : List TypeKind :=
  [.primitive, .enum, .struct, .classType, .proxy, .custom]

/-- The rules on the members that the kind of a type needs. -/
def kindRules : Check :=
  all
    [whenKind [.sequence] (required ["element"]),
      whenKind [.dictionary] (required ["key", "value"]),
      whenKind namedKinds (required ["name"]),
      whenKind [.primitive] (member "name" (oneOf (Primitive.all.map Primitive.keyword)))]

/-- The members of a type that are no types themselves. -/
def typeAttributes : Check :=
  all
    [member "kind" (oneOf (TypeKind.all.map TypeKind.name)), member "name" (type [.string]),
      member "optional" (type [.boolean])]

/-- A reference to a type. -/
def checkType (path : Path) (json : Json) : List Violation :=
  type [.object] path json ++ typeAttributes path json ++
    (match _h : json.get? "element" with
      | some part => checkType (path ++ ["element"]) part
      | none => []) ++
    (match _h : json.get? "key" with
      | some part => checkType (path ++ ["key"]) part
      | none => []) ++
    (match _h : json.get? "value" with
      | some part => checkType (path ++ ["value"]) part
      | none => []) ++
    required ["kind"] path json ++
    noOthers ["kind", "name", "optional", "element", "key", "value"] path json ++
    kindRules path json
termination_by sizeOf json
decreasing_by all_goals exact Json.sizeOf_lt_of_get? _h

/-- A text or nothing. -/
def checkOptionalText : Check :=
  type [.string, .null]

/-- A name, which is not empty. -/
def checkName : Check :=
  all [type [.string], nonEmptyText]

/-- A field of a struct. -/
def checkField : Check :=
  all [type [.object], member "name" checkName, member "type" checkType,
    member "tag" (all [type [.integer, .null], notNegative]), member "default" anything,
    member "doc" checkOptionalText, member "deprecated" checkOptionalText,
    member "line" (type [.integer]), required ["name", "type"],
    noOthers ["name", "type", "tag", "default", "doc", "deprecated", "line"]]

/-- The list of encodings of a struct. -/
def checkEncodings : Check :=
  all [type [.array], items (oneOf (Encoding.all.map Encoding.name)), nonEmptyArray, unique]

/-- A struct. -/
def checkStruct : Check :=
  all [type [.object], member "name" checkName,
    member "fields" (all [type [.array], items checkField]), member "encodings" checkEncodings,
    member "compact" (type [.boolean]), member "readonly" (type [.boolean]),
    member "doc" checkOptionalText, member "deprecated" checkOptionalText,
    member "line" (type [.integer]), required ["name", "fields", "encodings"],
    noOthers ["name", "fields", "encodings", "compact", "readonly", "doc", "deprecated", "line"]]

/-- A module. -/
def checkModule : Check :=
  all
    [type [.object], member "name" (type [.string]), member "doc" checkOptionalText,
      member "structs" (all [type [.array], items checkStruct]), required ["name", "structs"],
      noOthers ["name", "doc", "structs"]]

/-- A document. Members beside the modules are free. -/
def checkDocument : Check :=
  all [type [.object], member "modules" (all [type [.array], items checkModule]),
    required ["modules"]]

/-- The report on a value: nothing for a document. -/
def violations (json : Json) : List Violation :=
  report (checkDocument [] json)

end SliceRecords.Document
