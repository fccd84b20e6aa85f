import SliceRecords.Command.Plan
import SliceRecords.Document.File
import SliceRecords.Model.Dump
import SliceRecords.Model.Outline

/-!
# Sessions

The work on one input file: loading it, dumping the model, and generating the files. A
load that fails keeps the model of an earlier one. All files are generated before the
first of them is written.
-/

namespace SliceRecords.Command

open Storage

/-- A line of standard output. -/
def Action.printLine (line : String) : Action :=
  .print (line ++ "\n")

/-- An input file, where its output goes, and the model that was loaded last. -/
structure Session where
  inputFile : String
  outputDirectory : String
  outputName : Option String := none
  verbose : Bool := false
  model : Option Model := none

/-- The name of a dump for which no other name is chosen. -/
def dumpName : String := "model_debug_dump.json"

/-- The directory of dumps for which no other directory is chosen. -/
def dumpDirectory : String := "./generated/model_debug"

/-- Writes the dump of a model; the result is the path of the dump. -/
def dumpModel (model : Option Model) (name directory : String) : Plan String := do
  let path := Path.join directory name
  Plan.actAll
    [.makeDirectories (Path.directory path), .write path (Model.dump model),
      .printLine s!"[DEBUG] Model pretty-printed to {path}"]
  return path

namespace Session

/-- Loads the input file from its contents; the result tells whether that worked. -/
def load (session : Session) (workingPath : String) (contents : Except FileError ByteArray) :
    Plan (Session × Bool) :=
  match Document.loadContents workingPath session.inputFile contents with
  | .ok model => do
    if session.verbose then
      match model.outline? with
      | some outline => Plan.act (.printLine s!"[DEBUG] Loaded model:\n{outline}")
      | none => Plan.fail (.generation (.render .missingPart))
    return ({ session with model := some model }, true)
  | .error (.unreadable _ .malformed) => Plan.fail (.file .malformed)
  | .error .undecodable => Plan.fail .undecodable
  | .error error => do
    Plan.act (.warn s!"Error: {error.message}\n")
    return (session, false)

/-- The actions that write one generated file. -/
def writeFile (session : Session) (file : String × String) : List Action :=
  let path := Path.join session.outputDirectory file.1
  .write path file.2 :: (if session.verbose then [.printLine s!"[DEBUG] Wrote {path}"] else [])

/-- What a session reports while it generates the files of a model. -/
def report (session : Session) (model : Model) : List String :=
  if session.verbose then Code.generationReport model else []

/-- Generates the files of the model; the result is their names with the paths where they were
written. What is reported before generating fails is printed as well. -/
def generate (session : Session) : Plan (List (String × String)) :=
  match session.model with
  | none => Plan.fail .noModel
  | some model => do
    Plan.actAll ((session.report model).map Action.printLine)
    match Code.generate model session.outputName with
    | .error error => Plan.fail (.generation error)
    | .ok files =>
      Plan.act (.makeDirectories session.outputDirectory)
      Plan.actAll (files.flatMap session.writeFile)
      return files.map fun file => (file.1, Path.join session.outputDirectory file.1)

/-- Writes the dump of the model into the output directory. -/
def dump (session : Session) : Plan String :=
  dumpModel session.model dumpName session.outputDirectory

end Session

end SliceRecords.Command
