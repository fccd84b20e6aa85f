import SliceRecords.Json.Display

/-!
# Encodings

The two wire encodings and the non-empty sets of them that a struct can support. Such a set has no
order and no repetitions, so its list form is always the same: the older encoding first.
-/

namespace SliceRecords

/-- A wire encoding. -/
inductive Encoding where
  | slice1
  | slice2
  deriving DecidableEq, Repr

namespace Encoding

/-- All encodings, the oldest first. -/
def all : List Encoding := [slice1, slice2]

/-- The name of an encoding in documents. -/
def name : Encoding → String
  | slice1 => "Slice1"
  | slice2 => "Slice2"

/-- The encoding with a name. -/
def ofName? (name : String) : Option Encoding :=
  all.find? fun encoding => encoding.name = name

/-- An encoding as messages show it. -/
def display (encoding : Encoding) : String :=
  let member :=
    match encoding with
    | slice1 => "SLICE1"
    | slice2 => "SLICE2"
  s!"<Encoding.{member}: {Text.quoted encoding.name}>"

/-- An encoding is found under its name. -/
@[simp] theorem ofName?_name (encoding : Encoding) : ofName? encoding.name = some encoding := by
  cases encoding <;> decide

end Encoding

/-- The encodings that a struct supports: at least one. -/
inductive SupportedEncodings where
  | only (encoding : Encoding)
  | both
  deriving DecidableEq, Repr

/-- Why a list of names is no set of supported encodings. -/
inductive EncodingsError where
  | unknown (name : Json)
  | empty
  deriving Repr

/-- The wording of an unusable list of encodings. -/
def EncodingsError.message : EncodingsError → String
  | unknown name => s!"{name.display} is not a valid Encoding"
  | empty => "A struct must support at least one encoding"

namespace SupportedEncodings

/-- The encodings of a set, the oldest first. -/
def toList : SupportedEncodings → List Encoding
  | only encoding => [encoding]
  | both => Encoding.all

/-- An encoding belongs to a set that supports it. -/
instance : Membership Encoding SupportedEncodings where
  mem encodings encoding := encoding ∈ encodings.toList

/-- Whether a set supports an encoding can be decided. -/
instance (encoding : Encoding) (encodings : SupportedEncodings) :
    Decidable (encoding ∈ encodings) :=
  inferInstanceAs (Decidable (encoding ∈ encodings.toList))

/-- The number of encodings in a set. -/
def size (encodings : SupportedEncodings) : Nat :=
  encodings.toList.length

/-- The set of the encodings in a list, unless the list is empty. -/
def ofList? (encodings : List Encoding) : Option SupportedEncodings :=
  match encodings.contains .slice1, encodings.contains .slice2 with
  | true, true => some both
  | true, false => some (only .slice1)
  | false, true => some (only .slice2)
  | false, false => none

/-- The encodings that a list of names stands for, up to the first name that is unknown. -/
def encodingsOfNames : List Json → Except EncodingsError (List Encoding)
  | [] => pure []
  | name :: rest =>
    match name.string?.bind Encoding.ofName? with
    | some encoding => return encoding :: (← encodingsOfNames rest)
    | none => throw (.unknown name)

/-- The set of the encodings in a list of names. -/
def ofNames (names : List Json) : Except EncodingsError SupportedEncodings := do
  match ofList? (← encodingsOfNames names) with
  | some encodings => return encodings
  | none => throw .empty

/-- The encoding at a position; negative positions count from the end. -/
def at? (encodings : SupportedEncodings) (index : Int) : Option Encoding :=
  let position := if index < 0 then index + encodings.size else index
  if position < 0 then none else encodings.toList[position.toNat]?

/-- A set of encodings as messages show it. -/
def display (encodings : SupportedEncodings) : String :=
  s!"SupportedEncodings({Json.displayTexts (encodings.toList.map Encoding.name)})"

/-- A set of encodings supports at least one. -/
theorem toList_ne_nil (encodings : SupportedEncodings) : encodings.toList ≠ [] := by
  cases encodings <;> simp [toList, Encoding.all]

/-- A set of encodings is made again from the list of its encodings. -/
@[simp] theorem ofList?_toList (encodings : SupportedEncodings) :
    ofList? encodings.toList = some encodings := by
  rcases encodings with (_ | _) | _ <;> decide

/-- A set made from a list holds exactly the encodings of the list. -/
theorem mem_of_ofList? {list : List Encoding} {encodings : SupportedEncodings}
    (h : ofList? list = some encodings) (encoding : Encoding) :
    encoding ∈ encodings ↔ encoding ∈ list := by
  have hmem (e : Encoding) : e ∈ encodings ↔ e ∈ encodings.toList := Iff.rfl
  unfold ofList? at h
  split at h <;> simp only [Option.some.injEq, reduceCtorEq] at h <;> subst h <;>
    cases encoding <;> simp_all [toList, Encoding.all]

end SupportedEncodings

end SliceRecords
