import SliceRecords.Code.RecordStruct

/-!
# Source files

The files that are generated for a model: one per namespace, named after it. The modules of one
namespace follow each other in one file.
-/

namespace SliceRecords.Code

/-- The start of every generated file. -/
def fileHeader : String :=
  Text.unlines ["// <auto-generated/>", s!"// {generatorName}", "", "#nullable enable", "",
    "#pragma warning disable CS1591 // Missing XML Comment",
    "#pragma warning disable CS1573 // Parameter has no matching param tag in the XML comment", "",
    "using IceRpc.Slice;", "using System.Collections.Generic;", ""]

/-- The declarations of a module, one empty line apart. -/
def moduleBody (module : Module) : Except GenerationError String := do
  let declarations ← module.structs.mapM (structDeclaration (namespaceOf module.name))
  return (declarations.foldl Block.addBlock {}).text ++ "\n"

/-- A file that begins with the declarations of a module. -/
def moduleFile (module : Module) : Except GenerationError String := do
  let namespaceName := namespaceOf module.name
  let namespaceLines := if namespaceName.isEmpty then [] else [s!"namespace {namespaceName};\n"]
  return Text.unlines ([fileHeader] ++ namespaceLines ++ [← moduleBody module])

/-- The base name of the file of a module that no name is chosen for. -/
def defaultFileBase (module : Module) : String :=
  let namespaceName := namespaceOf module.name
  if namespaceName.isEmpty then "Global" else namespaceName

/-- The name of the file of a module. A chosen name is for models of a single module. -/
def fileName (outputName : Option String) (moduleCount : Nat) (module : Module) : String :=
  match outputName with
  | some name =>
    if !name.isEmpty && moduleCount == 1 then name ++ ".cs" else defaultFileBase module ++ ".cs"
  | none => defaultFileBase module ++ ".cs"

/-- Generated files with their names, in the order in which they were begun. -/
abbrev Files := List (String × String)

/-- Adds a module to the files: to the end of the file of its name, or as a new file. -/
def addModule (files : Files) (name : String) (module : Module) : Except GenerationError Files :=
  match files with
  | [] => return [(name, ← moduleFile module)]
  | (other, content) :: rest =>
    if other = name then return (other, content ++ "\n" ++ (← moduleBody module)) :: rest
    else return (other, content) :: (← addModule rest name module)

/-- The files for a model. -/
def generate (model : Model) (outputName : Option String) : Except GenerationError Files :=
  model.modules.foldlM
    (fun files module => addModule files (fileName outputName model.modules.length module) module)
    []

/-- What generating reports about the body of a struct once there is one: its shape. -/
def shapeReport (struct : Struct) (direction : Direction) : List String :=
  match Dispatch.body struct direction with
  | .ok body =>
    [s!"[DEBUG] {struct.scopedName}: {direction.name} body is {(Dispatch.shape body).name}"]
  | .error _ => []

/-- What generating the declaration for a struct reports until it is done or fails. The body that
decodes comes behind the members and the field-wise constructor, and the one that encodes behind the
constructor that decodes. -/
def declarationReport (namespaceName : String) (struct : Struct) : List String :=
  match struct.fields.mapM (fieldDeclaration namespaceName struct),
    mainConstructor namespaceName struct with
  | .ok _, .ok _ =>
    shapeReport struct .decode ++
      match decodeConstructor namespaceName struct with
      | .ok _ => shapeReport struct .encode
      | .error _ => []
  | _, _ => []

/-- What generating the declarations for structs in their namespaces reports, up to the
first one that fails. -/
def declarationReports : List (String × Struct) → List String
  | [] => []
  | (namespaceName, struct) :: rest =>
    declarationReport namespaceName struct ++
      match structDeclaration namespaceName struct with
      | .ok _ => declarationReports rest
      | .error _ => []

/-- What generating the files for a model reports about its structs, until it is done or fails. -/
def generationReport (model : Model) : List String :=
  declarationReports
    (model.modules.flatMap fun module =>
      module.structs.map fun struct => (namespaceOf module.name, struct))

end SliceRecords.Code
