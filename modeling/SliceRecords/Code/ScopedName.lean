import SliceRecords.Code.Identifier
import SliceRecords.Text.Trim

/-!
# Scoped names

Names with two colons between their parts, and what they become in generated code: the path of a
module is a namespace, and a type is named within its namespace where that is the current one, from
the global scope on elsewhere. The empty namespace is the global scope.
-/

namespace SliceRecords.Code

/-- Cuts a text at every pair of colons, from the left. -/
def splitScopes : List Char → List (List Char)
  | [] => [[]]
  | ':' :: ':' :: rest => [] :: splitScopes rest
  | c :: rest =>
    match splitScopes rest with
    | [] => [[c]]
    | part :: parts => (c :: part) :: parts

/-- The parts of a scoped name. Colons at its ends do not count. -/
def scopes (name : String) : List String :=
  (splitScopes (Text.dropEnds (· == ':') name.toList)).map String.ofList

/-- The namespace of a module path. -/
def namespaceOf (path : String) : String :=
  if path.isEmpty then "" else ".".intercalate ((scopes path).map escapeIdentifier)

/-- The last part of a scoped name, from which the names of coding methods are made. -/
def localName (name : String) : String :=
  (scopes name).getLast?.getD ""

/-- The name of a user-defined type in the code of a namespace. -/
def typeName (namespaceName scopedName : String) : String :=
  let parts := scopes scopedName
  let base := escapeIdentifier (localName scopedName)
  if parts.length = 1 then base
  else
    let home := namespaceOf ("::".intercalate parts.dropLast)
    if !namespaceName.isEmpty && home == namespaceName then base
    else s!"global::{home}.{base}"

/-- A name always has a part, at least the empty one. -/
theorem splitScopes_ne_nil (name : List Char) : splitScopes name ≠ [] := by
  fun_induction splitScopes name <;> simp_all

example : typeName "Demo" "::Demo::Point" = "Point" := by decide +kernel
example : typeName "" "Demo::lock::Point" = "global::Demo.@lock.Point" := by decide +kernel

end SliceRecords.Code
