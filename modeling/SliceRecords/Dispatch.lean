import SliceRecords.Layout

/-!
# Dispatch on the live encoding

A struct that supports both encodings has one body, which asks for the live encoding only where the
two encodings differ. Main statement: `merge_eq_error_iff` says that two blocks cannot be merged
exactly when the newer encoding has nothing to do where the older one has.
-/

namespace SliceRecords

/-- Why no body can be generated. -/
inductive DispatchError where
  | emptySlice2
  | noEncodings
  | unexpectedEncodings (encodings : List Encoding)
  deriving DecidableEq, Repr

/-- The wording of a body that cannot be generated. -/
def DispatchError.message : DispatchError → String
  | emptySlice2 => "it is not possible to have an empty Slice2 encoding block with a non empty " ++
    "Slice1 encoding block"
  | noEncodings => "No supported encodings"
  | unexpectedEncodings encodings =>
    "Unexpected supported encodings: " ++ Json.bracketed "[" "]" (encodings.map Encoding.display)

namespace Dispatch

/-- One block that does what `slice1` does under the older encoding and what `slice2`
does under the newer one. -/
def merge (slice1 slice2 : Block) (direction : Direction) : Except DispatchError Block :=
  if slice1.same slice2 then .ok slice2
  else if slice2.isEmpty then .error .emptySlice2
  else if slice1.isEmpty then .ok [.guarded direction slice2]
  else .ok [.branch direction slice1 slice2]

/-- The block that codes a list of fields under each of the given encodings: one encoding, or both
of them in canonical order. -/
def generate (fields : List Field) (encodings : List Encoding) (direction : Direction) :
    Except DispatchError Block :=
  match encodings with
  | [] => .error .noEncodings
  | [encoding] => .ok (Layout.synthesize fields encoding direction)
  | [.slice1, .slice2] =>
    merge (Layout.synthesize fields .slice1 direction) (Layout.synthesize fields .slice2 direction)
      direction
  | _ => .error (.unexpectedEncodings encodings)

/-- The whole body of a struct: its fields, then what frames them. -/
def body (struct : Struct) (direction : Direction) : Except DispatchError Block := do
  return (← generate struct.fields struct.encodings.toList direction) ++ struct.framing direction

/-- How a body depends on the live encoding: not at all, by a guard, or by a branch. -/
inductive Shape where
  | shared
  | guarded
  | branch
  deriving DecidableEq, Repr

/-- The name of a shape. -/
def Shape.name : Shape → String
  | shared => "shared"
  | guarded => "guard"
  | branch => "branch"

/-- The shape of a block: that of its first dispatching instruction. -/
def shape : Block → Shape
  | [] => .shared
  | .branch _ _ _ :: _ => .branch
  | .guarded _ _ :: _ => .guarded
  | _ :: rest => shape rest

mutual

/-- What runs in place of an instruction under one encoding: of a guard and of a branch, the block
that the encoding selects. -/
def selected (encoding : Encoding) : Instruction → List Instruction
  | .guarded _ block =>
    match encoding with
    | .slice1 => []
    | .slice2 => select encoding block
  | .branch _ slice1 slice2 =>
    match encoding with
    | .slice1 => select encoding slice1
    | .slice2 => select encoding slice2
  | instruction => [instruction]

/-- The instructions of a block that run under one encoding, in order. -/
def select (encoding : Encoding) : List Instruction → List Instruction
  | [] => []
  | instruction :: rest => selected encoding instruction ++ select encoding rest

end

/-- Merging fails exactly when the newer encoding alone has nothing to do. -/
theorem merge_eq_error_iff {slice1 slice2 : Block} {direction : Direction} {error : DispatchError} :
    merge slice1 slice2 direction = .error error ↔
      error = .emptySlice2 ∧ slice2 = [] ∧ slice1 ≠ [] := by
  unfold merge
  by_cases hsame : slice1.same slice2 = true
  · rw [if_pos hsame]
    cases slice1 <;> cases slice2 <;> simp_all [Block.same, Instruction.sameBlock]
  · rw [if_neg hsame]
    cases slice2 with
    | nil => cases slice1 <;> simp_all [Block.same, Instruction.sameBlock, eq_comm]
    | cons => cases slice1 <;> simp

end Dispatch

end SliceRecords
