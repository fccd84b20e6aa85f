import SliceRecords.Document.Build
import SliceRecords.Document.Check
import SliceRecords.Text.Trim

/-!
# Loading documents

A JSON value is first checked against the document grammar as a whole, so that a report names every
violation, and is then built into a model.
-/

namespace SliceRecords.Document

/-- Why a JSON value is no model. -/
inductive ModelError where
  | mismatch (violations : List Violation)
  | invalidStruct (qualifiedName : String) (error : StructError)
  deriving Repr

/-- The wording of a value that is no model. -/
def ModelError.message : ModelError → String
  | mismatch violations =>
    Text.unlines ("Model does not match the expected schema:" :: violations.map Violation.line)
  | invalidStruct qualifiedName error => s!"Invalid struct '{qualifiedName}': {error.message}"

/-- Checks a value against the document grammar. -/
def validate (json : Json) : Except ModelError Unit :=
  match violations json with
  | [] => .ok ()
  | violations => .error (.mismatch violations)

/-- A struct of a document in a module; the module without a name is the global scope. -/
def buildStruct (moduleName : String) (file : Option String) (json : Json) :
    Except ModelError Struct :=
  let path? := if moduleName.isEmpty then none else some moduleName
  let name := (json.textOf? "name").getD ""
  let qualifiedName := if moduleName.isEmpty then name else s!"{moduleName}::{name}"
  (Struct.ofJson path? file json).mapError (.invalidStruct qualifiedName)

/-- A module of a document. -/
def buildModule (file : Option String) (json : Json) : Except ModelError Module := do
  let name := (json.textOf? "name").getD ""
  let structs ← ((json.get? "structs").getD .null).items.mapM (buildStruct name file)
  return { name, structs, doc := json.textOf? "doc" }

/-- The model that a value describes. The file is the path by which the document was read, and the
absolute path is that of the same file. -/
def load (file absoluteFile : Option String) (json : Json) : Except ModelError Model := do
  validate json
  let modules ← ((json.get? "modules").getD .null).items.mapM (buildModule file)
  return { file := absoluteFile, modules }

end SliceRecords.Document
