import SliceRecords.Code.ScopedName
import SliceRecords.Model.TypeRef

/-!
# Types in generated code

The text of a type under a namespace. Main statement: `typeText_of_wellFormed` says that a
well-formed type always has a text.
-/

namespace SliceRecords.Code

/-- Why an instruction or a type has no code. -/
inductive RenderError where
  | unknownPrimitive
  | missingPart
  | blankInstruction
  deriving DecidableEq, Repr

/-- The wording of an instruction or a type without code. -/
def RenderError.message : RenderError → String
  | unknownPrimitive => "A primitive type must have a known keyword"
  | missingPart => "A type must have the parts that its kind needs"
  | blankInstruction => "Unknown instruction: Instruction()"

/-- The primitive type of a type of that kind. -/
def primitiveOf (type : TypeRef) : Except RenderError Primitive :=
  match type.primitive? with
  | some primitive => .ok primitive
  | none => .error .unknownPrimitive

/-- The name of a type of a user-defined kind. -/
def nameOf (type : TypeRef) : Except RenderError String :=
  match type.name with
  | some name => .ok name
  | none => .error .missingPart

/-- The suffix of the coding methods of a primitive type. -/
def methodSuffix (type : TypeRef) : Except RenderError String := do
  return (← primitiveOf type).methodSuffix

mutual

/-- The text of a type, with the mark of an optional one. -/
def typeText (namespaceName : String) : TypeRef → Except RenderError String
  | ⟨kind, name, optional, element, key, value⟩ => do
    let base ←
      match kind with
      | .primitive => (·.typeName) <$> primitiveOf ⟨kind, name, optional, element, key, value⟩
      | .sequence => do
        let element ← partText namespaceName element
        pure s!"IList<{element}>"
      | .dictionary => do
        let key ← partText namespaceName key
        let value ← partText namespaceName value
        pure s!"IDictionary<{key}, {value}>"
      | _ => typeName namespaceName <$> nameOf ⟨kind, name, optional, element, key, value⟩
    return if optional then base ++ "?" else base

/-- The text of a part that a type needs. -/
def partText (namespaceName : String) : Option TypeRef → Except RenderError String
  | some type => typeText namespaceName type
  | none => .error .missingPart

end

/-- A well-formed type has a text under every namespace. -/
theorem typeText_of_wellFormed (namespaceName : String) {type : TypeRef} (h : type.WellFormed) :
    ∃ text, typeText namespaceName type = .ok text := by
  induction h with
  | primitive keyword optional element key value =>
    simp [typeText, primitiveOf, TypeRef.primitive?, bind, Except.bind, Functor.map, Except.map,
      pure, Except.pure]
  | sequence name optional element key value _ ih =>
    obtain ⟨text, htext⟩ := ih
    simp [typeText, partText, htext, bind, Except.bind, pure, Except.pure]
  | dictionary name optional element key value _ _ ihkey ihvalue =>
    obtain ⟨keyText, hkey⟩ := ihkey
    obtain ⟨valueText, hvalue⟩ := ihvalue
    simp [typeText, partText, hkey, hvalue, bind, Except.bind, pure, Except.pure]
  | named kind name optional element key value h₁ h₂ h₃ =>
    cases kind <;> simp_all [typeText, nameOf, bind, Except.bind, Functor.map, Except.map, pure,
      Except.pure]

end SliceRecords.Code
