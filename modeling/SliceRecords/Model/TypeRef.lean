import SliceRecords.Json.Display
import SliceRecords.Model.Primitive

/-!
# References to types

The type of a field, of the elements of a sequence, or of the keys and values of a dictionary. A
reference keeps every part that its document gives, whether or not its kind needs that part; which
parts a kind needs is what `WellFormed` says.
-/

namespace SliceRecords

/-- The kinds of types. -/
inductive TypeKind where
  | primitive
  | enum
  | struct
  | sequence
  | dictionary
  | classType
  | proxy
  | custom
  deriving DecidableEq, Repr

namespace TypeKind

/-- All kinds, in the order in which messages list them. -/
def all : List TypeKind :=
  [primitive, enum, struct, sequence, dictionary, classType, proxy, custom]

/-- The name of a kind in documents. -/
def name : TypeKind → String
  | primitive => "primitive"
  | enum => "enum"
  | struct => "struct"
  | sequence => "sequence"
  | dictionary => "dictionary"
  | classType => "class"
  | proxy => "proxy"
  | custom => "custom"

/-- The kind with a name. -/
def ofName? (name : String) : Option TypeKind :=
  all.find? fun kind => kind.name = name

/-- A kind of types is found under its name. -/
@[simp] theorem ofName?_name (kind : TypeKind) : ofName? kind.name = some kind := by
  cases kind <;> decide

end TypeKind

/-- A reference to a type. The name is the keyword of a primitive type or the scoped name
of a user-defined one. -/
structure TypeRef where
  kind : TypeKind
  name : Option String := none
  optional : Bool := false
  element : Option TypeRef := none
  key : Option TypeRef := none
  value : Option TypeRef := none
  deriving Repr

namespace TypeRef

/-- Induction over a type: the parts that a type has may be assumed to satisfy the property. -/
@[induction_eliminator]
theorem induct {P : TypeRef → Prop}
    (mk : ∀ kind name optional element key value,
      (∀ part, element = some part → P part) → (∀ part, key = some part → P part) →
      (∀ part, value = some part → P part) → P ⟨kind, name, optional, element, key, value⟩) :
    ∀ type, P type
  | ⟨kind, name, optional, element, key, value⟩ =>
    mk kind name optional element key value
      (fun part h => by subst h; exact induct mk part)
      (fun part h => by subst h; exact induct mk part)
      (fun part h => by subst h; exact induct mk part)

mutual

/-- Equality of types, part by part. -/
def beq : TypeRef → TypeRef → Bool
  | ⟨kind₁, name₁, optional₁, element₁, key₁, value₁⟩,
    ⟨kind₂, name₂, optional₂, element₂, key₂, value₂⟩ =>
    kind₁ == kind₂ && name₁ == name₂ && optional₁ == optional₂ && beqPart element₁ element₂ &&
      beqPart key₁ key₂ && beqPart value₁ value₂

/-- Equality of parts that may be absent. -/
def beqPart : Option TypeRef → Option TypeRef → Bool
  | some a, some b => beq a b
  | none, none => true
  | _, _ => false

end

/-- Comparing types part by part decides whether they are the same. -/
theorem beq_eq_true_iff {a b : TypeRef} : beq a b = true ↔ a = b := by
  induction a generalizing b with
  | mk kind name optional element key value helement hkey hvalue =>
    obtain ⟨kind', name', optional', element', key', value'⟩ := b
    have part {a? : Option TypeRef} (h : ∀ p, a? = some p → ∀ {b}, beq p b = true ↔ p = b)
        (b? : Option TypeRef) : beqPart a? b? = true ↔ a? = b? := by
      cases a? with
      | none => cases b? <;> simp [beqPart]
      | some p => cases b? <;> simp [beqPart, h p rfl]
    simp only [beq, Bool.and_eq_true, beq_iff_eq, mk.injEq, and_assoc, part helement, part hkey,
      part hvalue]

/-- Equality of types is decided by comparing their parts. -/
instance : DecidableEq TypeRef := fun _ _ => decidable_of_iff _ beq_eq_true_iff

/-- A type whose generated form is a value type, so that its nullable form
is a wrapper around it. -/
def isValueType (type : TypeRef) : Bool :=
  match type.kind with
  | .primitive => type.name != some Primitive.string.keyword
  | .enum | .struct | .proxy => true
  | _ => false

/-- The same type without its optional mark. -/
def asRequired (type : TypeRef) : TypeRef :=
  { type with optional := false }

/-- The primitive type that the name of a type is the keyword of. -/
def primitive? (type : TypeRef) : Option Primitive :=
  type.name.bind Primitive.ofKeyword?

/-- A type with all that its kind needs, at every depth: an element, a key and a value, the keyword
of a primitive type, or a name. -/
inductive WellFormed : TypeRef → Prop where
  | primitive (keyword : Primitive) (optional : Bool) (element key value : Option TypeRef) :
    WellFormed ⟨.primitive, some keyword.keyword, optional, element, key, value⟩
  | sequence (name : Option String) (optional : Bool) (element : TypeRef)
    (key value : Option TypeRef) : WellFormed element →
    WellFormed ⟨.sequence, name, optional, some element, key, value⟩
  | dictionary (name : Option String) (optional : Bool) (element : Option TypeRef)
    (key value : TypeRef) : WellFormed key → WellFormed value →
    WellFormed ⟨.dictionary, name, optional, element, some key, some value⟩
  | named (kind : TypeKind) (name : String) (optional : Bool) (element key value : Option TypeRef) :
    kind ≠ .primitive → kind ≠ .sequence → kind ≠ .dictionary →
    WellFormed ⟨kind, some name, optional, element, key, value⟩

/-- A type as messages show it, without its parts. -/
def display (type : TypeRef) : String :=
  s!"ModelTypeRef(kind={Text.quoted type.kind.name}, name={Json.displayText? type.name}, " ++
    s!"optional={Json.boolWord type.optional})"

/-- The required form of a type is not optional. -/
@[simp] theorem asRequired_optional (type : TypeRef) : type.asRequired.optional = false := rfl

end TypeRef

end SliceRecords
