import SliceRecords.Document.Load
import SliceRecords.Json.Reader
import SliceRecords.Storage.FileSystem

/-!
# Document files

From the bytes of a file to a model. A file that cannot be read, is not JSON or is no document is
reported to the user; a file that is no text at all is not a document of any kind and stops the run.
-/

namespace SliceRecords.Document

open Storage

/-- Why a file gives no model. -/
inductive LoadError where
  | unreadable (path : String) (error : FileError)
  | undecodable
  | invalidJson (path : String) (error : Json.ReadError)
  | model (error : ModelError)
  deriving Repr

/-- The wording of a file that gives no model. -/
def LoadError.message : LoadError → String
  | unreadable _ .malformed => FileError.malformed.description
  | unreadable path error =>
    s!"Cannot read model file '{path}': [Errno {error.number}] {error.description}: " ++
      Text.quoted path
  | undecodable => "The file is not UTF-8"
  | invalidJson path error => s!"Invalid JSON in '{path}': {error.message}"
  | model error => error.message

/-- Whether a failure is a fault of the document, which is reported, or stops the run. -/
def LoadError.isReported : LoadError → Bool
  | unreadable _ .malformed | undecodable => false
  | _ => true

/-- A text with a line feed for every line end. -/
def normalizeLineEnds : List Char → List Char
  | [] => []
  | '\r' :: '\n' :: rest => '\n' :: normalizeLineEnds rest
  | '\r' :: rest => '\n' :: normalizeLineEnds rest
  | c :: rest => c :: normalizeLineEnds rest

/-- The text of a file. -/
def decode? (bytes : ByteArray) : Option String :=
  (String.fromUTF8? bytes).map fun text => String.ofList (normalizeLineEnds text.toList)

/-- The model in the contents of a file, read by a path under a working directory. -/
def loadContents (workingPath path : String) (contents : Except FileError ByteArray) :
    Except LoadError Model := do
  let bytes ← contents.mapError (.unreadable path)
  match decode? bytes with
  | none => throw .undecodable
  | some text =>
    let json ← (Json.read text).mapError (.invalidJson path)
    (load (some path) (some (Path.absolute workingPath path)) json).mapError .model

/-- The model in the file at a path. -/
def loadFile (files : FileSystem) (path : String) : Except LoadError Model :=
  loadContents files.workingPath path (files.read path)

end SliceRecords.Document
