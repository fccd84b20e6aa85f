import SliceRecords.Command.Run

/-!
# The program

Reads the arguments, the environment and the input file, and does what the plan of the run says.
-/

namespace SliceRecords

open Storage Command

/-- The variables that options can be given by. -/
def variableNames : List String :=
  ["SW_INPUT_FILE", "SW_OUTPUT_DIR", "SW_OUTPUT_NAME", "SW_VERBOSE"]

/-- The variables that are set. -/
def readEnvironment : IO Environment := do
  let mut environment := []
  for name in variableNames do
    if let some value ← IO.getEnv name then
      environment := environment ++ [(name, value)]
  return environment

/-- The failure that an error of the operating system stands for. A directory that is read as a file
and a file that is searched as a directory differ in their numbers only; of a path without a null
byte nothing but its length is ever refused. -/
def failureOf : IO.Error → FileError
  | .alreadyExists _ _ _ => .alreadyExists
  | .inappropriateType _ code _ =>
    if code.toNat = FileError.isDirectory.number then .isDirectory else .notDirectory
  | .invalidArgument _ _ _ => .nameTooLong
  | _ => .notFound

/-- The bytes of the file at a path. -/
def readContents (path : String) : IO (Except FileError ByteArray) := do
  if '\x00' ∈ path.toList then return .error .malformed
  try
    return .ok (← IO.FS.readBinFile path)
  catch error => return .error (failureOf error)

/-- Does one action of a plan. -/
def performAction : Action → IO Unit
  | .print text => IO.print text
  | .warn text => IO.eprint text
  | .makeDirectories path => IO.FS.createDirAll path
  | .write path text => IO.FS.writeFile path text

/-- Does what a plan says and gives its exit code. -/
def performPlan (plan : Plan Nat) : IO UInt32 := do
  plan.actions.forM performAction
  match plan.result with
  | .ok code => return code.toUInt32
  | .error failure => throw (.userError failure.message)

end SliceRecords

open SliceRecords Command in
/-- The command line. -/
def main (arguments : List String) : IO UInt32 := do
  match Request.parse arguments (← readEnvironment) with
  | .error stop => performPlan stop.plan
  | .ok request =>
    let workingPath ← IO.currentDir
    performPlan (request.plan workingPath.toString (← readContents request.input))
