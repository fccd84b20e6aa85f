import SliceRecords.Command.Options
import SliceRecords.Command.Session

/-!
# Runs

A whole run from its arguments to its exit code: load the input, dump the model if asked to,
generate the files, and say how many there are.
-/

namespace SliceRecords.Command

open Storage

/-- The lines that say how the program is used. -/
def usage : String :=
  Text.unlines
    ["usage: slice_wrangler.py [-h] [--input INPUT] [--output OUTPUT]",
      "                         [--output-name OUTPUT_NAME] [--dump-model]",
      "                         [--verbose]", ""]

/-- The help text. -/
def helpText : String :=
  Text.unlines
    [usage,
      "Generate C# record structs with Slice encoding code from a struct model", "",
      "options:",
      "  -h, --help            show this help message and exit",
      "  --input INPUT, -i INPUT",
      "                        Path to the JSON model produced by the front-end",
      "  --output OUTPUT, -o OUTPUT",
      "                        Directory where output files will be generated",
      "  --output-name OUTPUT_NAME, -n OUTPUT_NAME",
      "                        Base name for a single-module output file",
      "  --dump-model          Write a JSON dump of the loaded model",
      "  --verbose, -v         Enable verbose output for debugging", ""]

/-- What a run does and its exit code, given the contents of its input file. -/
def Request.plan (request : Request) (workingPath : String)
    (contents : Except FileError ByteArray) : Plan Nat := do
  let session : Session :=
    { inputFile := request.input
      outputDirectory := request.output
      outputName := request.outputName
      verbose := request.verbose }
  let (session, isLoaded) ← session.load workingPath contents
  if isLoaded then
    if request.dumpModel then
      let _ ← session.dump
    let written ← session.generate
    let count := written.length
    Plan.act (.printLine s!"Slice struct generation completed successfully ({count} file(s)).")
    return 0
  else return 1

/-- What a command line that does not lead to a run does, and its exit code. -/
def Stop.plan : Stop → Plan Nat
  | help => do
    Plan.act (.print helpText)
    return 0
  | misuse cause => do
    Plan.act (.warn s!"{usage}slice_wrangler.py: error: {cause.message}\n")
    return 2

/-- A whole run on a file system. -/
def run (arguments : List String) (environment : Environment) (files : FileSystem) : Outcome Nat :=
  match Request.parse arguments environment with
  | .error stop => stop.plan.perform files
  | .ok request => (request.plan files.workingPath (files.read request.input)).perform files

end SliceRecords.Command
