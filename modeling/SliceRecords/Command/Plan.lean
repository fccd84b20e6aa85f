import SliceRecords.Code.SourceFile
import SliceRecords.Storage.FileSystem

/-!
# Plans

What a run does to the world, decided before any of it is done: a list of actions and a result.
Performing a plan on a file system stops at the first action that fails.
-/

namespace SliceRecords.Command

open Storage

/-- One thing that a run does to the world. -/
inductive Action where
  | print (text : String)
  | warn (text : String)
  | makeDirectories (path : String)
  | write (path text : String)
  deriving DecidableEq, Repr

/-- Why a run is broken off. -/
inductive Failure where
  | file (error : FileError)
  | undecodable
  | noModel
  | generation (error : Code.GenerationError)
  deriving DecidableEq, Repr

/-- The wording of a failure. -/
def Failure.message : Failure → String
  | file error => error.description
  | undecodable => "The file is not UTF-8"
  | noModel => "No struct model available. Load the input file first."
  | generation error => error.message

/-- Actions and what results after them. -/
structure Plan (α : Type) where
  actions : List Action
  result : Except Failure α

namespace Plan

/-- The plan of doing nothing. -/
def pure {α : Type} (value : α) : Plan α :=
  ⟨[], .ok value⟩

/-- The plan of going on after the result of another plan. -/
def bind {α β : Type} (plan : Plan α) (next : α → Plan β) : Plan β :=
  match plan.result with
  | .ok value => ⟨plan.actions ++ (next value).actions, (next value).result⟩
  | .error failure => ⟨plan.actions, .error failure⟩

/-- Plans follow each other: the second one is chosen by what the first one gives. -/
instance : Monad Plan where
  pure := Plan.pure
  bind := Plan.bind

/-- The plan of doing a list of actions. -/
def actAll (actions : List Action) : Plan Unit :=
  ⟨actions, .ok ()⟩

/-- The plan of doing one action. -/
def act (action : Action) : Plan Unit :=
  actAll [action]

/-- The plan of breaking off. -/
def fail {α : Type} (failure : Failure) : Plan α :=
  ⟨[], .error failure⟩

end Plan

/-- What has come of performing a plan: the files, what was printed, and the result. -/
structure Outcome (α : Type) where
  files : FileSystem
  stdout : String
  stderr : String
  result : Except Failure α

/-- Performs actions one after the other and then yields the result, unless an action fails. -/
def performAll {α : Type} (result : Except Failure α) : List Action → FileSystem → Outcome α
  | [], files => ⟨files, "", "", result⟩
  | .print text :: rest, files =>
    let outcome := performAll result rest files
    { outcome with stdout := text ++ outcome.stdout }
  | .warn text :: rest, files =>
    let outcome := performAll result rest files
    { outcome with stderr := text ++ outcome.stderr }
  | .makeDirectories path :: rest, files =>
    match files.makeDirectories path.toList with
    | (after, none) => performAll result rest after
    | (after, some error) => ⟨after, "", "", .error (.file error)⟩
  | .write path text :: rest, files =>
    match files.write path text with
    | .ok after => performAll result rest after
    | .error error => ⟨files, "", "", .error (.file error)⟩

/-- Performs a plan on a file system. -/
def Plan.perform {α : Type} (plan : Plan α) (files : FileSystem) : Outcome α :=
  performAll plan.result plan.actions files

end SliceRecords.Command
