import SliceRecords.Storage.Path

/-!
# File systems

Files and directories at locations, and what happens when a path is read, written or made a
directory. A path is followed part by part: every part but the last must lead to a directory, and no
part that is looked up may be too long to be a name.
-/

namespace SliceRecords.Storage

/-- A place in a file system: the names on the way from the root. -/
abbrev Location := List String

/-- What stands at a location. -/
inductive Entry where
  | file (bytes : ByteArray)
  | directory

/-- Why a path cannot be used. -/
inductive FileError where
  | notFound
  | alreadyExists
  | notDirectory
  | isDirectory
  | nameTooLong
  | malformed
  deriving DecidableEq, Repr

namespace FileError

/-- The number of a failure among those of the operating system. -/
def number : FileError → Nat
  | notFound => 2
  | alreadyExists => 17
  | notDirectory => 20
  | isDirectory => 21
  | malformed => 22
  | nameTooLong => 36

/-- The wording of a failure. -/
def description : FileError → String
  | notFound => "No such file or directory"
  | alreadyExists => "File exists"
  | notDirectory => "Not a directory"
  | isDirectory => "Is a directory"
  | malformed => "embedded null byte"
  | nameTooLong => "File name too long"

end FileError

/-- Files and directories. The root is a directory that is not listed, and relative paths start at
the working directory. -/
structure FileSystem where
  workingDirectory : Location
  entries : List (Location × Entry)

namespace FileSystem

/-- What stands at a location, if anything does. -/
def get? (files : FileSystem) (location : Location) : Option Entry :=
  if location = [] then some .directory
  else (files.entries.find? fun entry => entry.1 = location).map Prod.snd

/-- A list of entries with one of them replaced, or added at the end. -/
def setEntry (location : Location) (entry : Entry) :
    List (Location × Entry) → List (Location × Entry)
  | [] => [(location, entry)]
  | (other, old) :: rest =>
    if other = location then (location, entry) :: rest
    else (other, old) :: setEntry location entry rest

/-- The file system with something put at a location. -/
def set (files : FileSystem) (location : Location) (entry : Entry) : FileSystem :=
  { files with entries := setEntry location entry files.entries }

/-- The path of the working directory. -/
def workingPath (files : FileSystem) : String :=
  "/" ++ "/".intercalate files.workingDirectory

/-- The number of bytes that a name may have. -/
def maxNameSize : Nat := 255

/-- The number of bytes from which on a path is too long as a whole. -/
def pathSizeLimit : Nat := 4096

/-- Looks up what stands at a location by the last name of the way to it. -/
def find (files : FileSystem) (location : Location) : Except FileError (Option Entry) :=
  if location.getLast?.any fun name => maxNameSize < name.utf8ByteSize then .error .nameTooLong
  else .ok (files.get? location)

/-- Where a path leads. A path that ends in a slash or in dots can lead to a directory only. -/
structure Target where
  location : Location
  directoryOnly : Bool
  deriving DecidableEq, Repr

/-- Follows the parts of a path from a directory on. -/
def follow (files : FileSystem) (here : Location) : List String → Except FileError Target
  | [] => .ok ⟨here, true⟩
  | part :: rest =>
    if part = "" ∨ part = "." then follow files here rest
    else if part = ".." then follow files here.dropLast rest
    else
      let there := here ++ [part]
      if rest.all (· = "") then .ok ⟨there, !rest.isEmpty⟩
      else
        match files.find there with
        | .ok (some .directory) => follow files there rest
        | .ok (some (.file _)) => .error .notDirectory
        | .ok none => .error .notFound
        | .error error => .error error

/-- Where a path leads. -/
def resolve (files : FileSystem) (path : String) : Except FileError Target :=
  if '\x00' ∈ path.toList then .error .malformed
  else if path.isEmpty then .error .notFound
  else if pathSizeLimit ≤ path.utf8ByteSize then .error .nameTooLong
  else
    let start := if Path.isAbsolute path then [] else files.workingDirectory
    files.follow start (Text.splitAt '/' path)

/-- What stands where a path leads. -/
def lookup (files : FileSystem) (path : String) : Except FileError (Target × Option Entry) := do
  let target ← files.resolve path
  match ← files.find target.location, target.directoryOnly with
  | some (.file _), true => throw .notDirectory
  | entry, _ => return (target, entry)

/-- The bytes of the file at a path. -/
def read (files : FileSystem) (path : String) : Except FileError ByteArray := do
  match ← files.lookup path with
  | (_, some (.file bytes)) => return bytes
  | (_, some .directory) => throw .isDirectory
  | (_, none) => throw .notFound

/-- Puts a file with the given text at a path, in place of a file that is there. A path that can
lead to a directory only is no place for a file. -/
def write (files : FileSystem) (path text : String) : Except FileError FileSystem := do
  let target ← files.resolve path
  if target.directoryOnly then throw .isDirectory
  else
    match ← files.find target.location with
    | some .directory => throw .isDirectory
    | _ => return files.set target.location (.file text.toUTF8)

/-- Makes a directory at a path where nothing is. -/
def makeDirectory (files : FileSystem) (path : String) : Except FileError FileSystem := do
  let target ← files.resolve path
  match ← files.find target.location with
  | some _ => throw .alreadyExists
  | none => return files.set target.location .directory

/-- Whether a path leads to something. -/
def exists? (files : FileSystem) (path : String) : Bool :=
  match files.lookup path with
  | .ok (_, entry) => entry.isSome
  | .error _ => false

/-- Whether a path leads to a directory. -/
def isDirectory (files : FileSystem) (path : String) : Bool :=
  match files.lookup path with
  | .ok (_, some .directory) => true
  | _ => false

/-- Makes a directory at a path, where one may be already. -/
def ensureDirectory (files : FileSystem) (path : List Char) : FileSystem × Option FileError :=
  match files.makeDirectory (String.ofList path) with
  | .ok after => (after, none)
  | .error .malformed => (files, some .malformed)
  | .error error =>
    if files.isDirectory (String.ofList path) then (files, none) else (files, some error)

/-- Makes a directory at a path and all directories on the way to it that are missing. What has been
made before a failure stays. -/
def makeDirectories (files : FileSystem) (path : List Char) : FileSystem × Option FileError :=
  if _h : (Path.lastPart path).isEmpty then files.ensureDirectory path
  else
    let parent := Path.parent path
    if parent.isEmpty || files.exists? (String.ofList parent) then files.ensureDirectory path
    else
      match makeDirectories files parent with
      | (after, none) =>
        if Path.lastPart path = ['.'] then (after, none) else after.ensureDirectory path
      | (after, some .alreadyExists) =>
        if Path.lastPart path = ['.'] then (after, none) else after.ensureDirectory path
      | failure => failure
termination_by path.length
decreasing_by exact Path.length_parent_lt (by simpa using _h)

end FileSystem

end SliceRecords.Storage
