import SliceRecords.Instruction
import SliceRecords.Proofs.Pairing

/-!
# Equality of instructions

Instructions and blocks compare by the code that they stand for. The comparison is reflexive and
symmetric, and two blocks agree exactly when their instructions do, one by one.
-/

namespace SliceRecords

namespace Number

/-- A number agrees with itself, also if it has no place in the order of numbers. -/
@[simp] theorem same_self (a : Number) : a.same a = true := by
  unfold same
  cases a.dyadic? with
  | none => simp
  | some x => simp [align]

/-- Agreement of numbers does not depend on their order. -/
theorem same_comm (a b : Number) : a.same b = b.same a := by
  unfold same
  cases a.dyadic? <;> cases b.dyadic?
  case some.some x y =>
    simp only [align, Int.min_comm x.2 y.2]
    exact Bool.beq_comm
  case none.none => exact Bool.beq_comm
  all_goals rfl

end Number

namespace Instruction

/-- Induction over an instruction: the instructions of the blocks that it holds may be assumed to
satisfy the property. -/
@[induction_eliminator]
theorem induct {P : Instruction → Prop}
    (untagged : ∀ direction form field, P (.untagged direction form field))
    (tagged :
      ∀ direction field encoding format size, P (.tagged direction field encoding format size))
    (bitSequence : ∀ direction size, P (.bitSequence direction size)) (skipTagged : P .skipTagged)
    (tagEndMarker : P .tagEndMarker)
    (guarded : ∀ direction block, (∀ inner ∈ block, P inner) → P (.guarded direction block))
    (branch : ∀ direction slice1 slice2, (∀ inner ∈ slice1, P inner) → (∀ inner ∈ slice2, P inner) →
        P (.branch direction slice1 slice2)) (blank : P .blank) : ∀ instruction, P instruction
  | .untagged direction form field => untagged direction form field
  | .tagged direction field encoding format size => tagged direction field encoding format size
  | .bitSequence direction size => bitSequence direction size
  | .skipTagged => skipTagged
  | .tagEndMarker => tagEndMarker
  | .guarded direction block => guarded direction block fun inner _ =>
      induct untagged tagged bitSequence skipTagged tagEndMarker guarded branch blank inner
  | .branch direction slice1 slice2 => branch direction slice1 slice2
      (fun inner _ =>
        induct untagged tagged bitSequence skipTagged tagEndMarker guarded branch blank inner)
      (fun inner _ =>
        induct untagged tagged bitSequence skipTagged tagEndMarker guarded branch blank inner)
  | .blank => blank

/-- A number equals itself, and so does a missing one. -/
@[simp] theorem sameNumber_self (a : Option Number) : sameNumber a a = true := by
  cases a <;> simp [sameNumber]

/-- Equality of numbers is symmetric. -/
theorem sameNumber_comm (a b : Option Number) : sameNumber a b = sameNumber b a := by
  cases a <;> cases b <;> simp [sameNumber, Number.same_comm]

/-- A field equals itself. -/
@[simp] theorem sameField_self (a : Field) : sameField a a = true := by
  simp [sameField]

/-- Equality of fields is symmetric. -/
theorem sameField_comm (a b : Field) : sameField a b = sameField b a := by
  simp only [sameField, sameNumber_comm a.tag, Bool.beq_comm (a := a.name),
    Bool.beq_comm (a := a.type)]

/-- Blocks agree exactly when their instructions agree one by one. -/
theorem sameBlock_iff_forall₂ {as bs : Block} :
    sameBlock as bs = true ↔ List.Forall₂ (fun a b => same a b = true) as bs := by
  induction as generalizing bs with
  | nil => cases bs <;> simp [sameBlock]
  | cons a as ih => cases bs <;> simp [sameBlock, ih]

/-- A block equals itself if its instructions do. -/
theorem sameBlock_self_of_forall {block : Block} (h : ∀ a ∈ block, same a a = true) :
    sameBlock block block = true :=
  sameBlock_iff_forall₂.mpr (List.forall₂_same.mpr h)

/-- An instruction agrees with itself. -/
@[simp] theorem same_self (a : Instruction) : same a a = true := by
  induction a with
  | guarded direction block ih => simp [same, sameBlock_self_of_forall ih]
  | branch direction slice1 slice2 ih₁ ih₂ =>
    simp [same, sameBlock_self_of_forall ih₁, sameBlock_self_of_forall ih₂]
  | _ => simp [same]

/-- A block agrees with itself. -/
@[simp] theorem sameBlock_self (block : Block) : sameBlock block block = true :=
  sameBlock_self_of_forall fun a _ => same_self a

/-- Equality of blocks is symmetric if that of the instructions of one is. -/
theorem sameBlock_comm_of_forall {as : Block} (h : ∀ a ∈ as, ∀ b, same a b = same b a)
    (bs : Block) : sameBlock as bs = sameBlock bs as := by
  induction as generalizing bs with
  | nil => cases bs <;> simp [sameBlock]
  | cons a as ih =>
    cases bs with
    | nil => simp [sameBlock]
    | cons b bs =>
      have hrest := ih (fun c hc => h c (List.mem_cons_of_mem a hc)) bs
      simp [sameBlock, h a List.mem_cons_self, hrest]

/-- Agreement of instructions does not depend on their order. -/
theorem same_comm (a b : Instruction) : same a b = same b a := by
  induction a generalizing b with
  | untagged direction form field =>
    cases b <;> simp only [same]
    simp only [sameField_comm field, Bool.beq_comm (a := direction), Bool.beq_comm (a := form)]
  | tagged direction field encoding format size =>
    cases b <;> simp only [same]
    simp only [sameField_comm field, sameNumber_comm size, Bool.beq_comm (a := direction),
      Bool.beq_comm (a := encoding), Bool.beq_comm (a := format)]
  | bitSequence direction size =>
    cases b <;> simp only [same]
    simp only [Number.same_comm size, Bool.beq_comm (a := direction)]
  | guarded direction block ih =>
    cases b <;> simp only [same]
    simp only [sameBlock_comm_of_forall ih, Bool.beq_comm (a := direction)]
  | branch direction slice1 slice2 ih₁ ih₂ =>
    cases b <;> simp only [same]
    simp only [sameBlock_comm_of_forall ih₁, sameBlock_comm_of_forall ih₂,
      Bool.beq_comm (a := direction)]
  | _ => cases b <;> simp only [same]

/-- Agreement of blocks does not depend on their order. -/
theorem sameBlock_comm (as bs : Block) : sameBlock as bs = sameBlock bs as :=
  sameBlock_comm_of_forall (fun a _ => same_comm a) bs

end Instruction

namespace Block

/-- A block equals itself. -/
@[simp] theorem same_self (block : Block) : block.same block = true :=
  Instruction.sameBlock_self block

/-- Equality of blocks is symmetric. -/
theorem same_comm (a b : Block) : a.same b = b.same a :=
  Instruction.sameBlock_comm a b

/-- Every instruction of a block agrees with one of a block that agrees with it. -/
theorem exists_mem_of_same {as bs : Block} (h : as.same bs = true) {b : Instruction} (hb : b ∈ bs) :
    ∃ a ∈ as, a.same b = true :=
  exists_mem_of_forall₂ (Instruction.sameBlock_iff_forall₂.mp h) hb

end Block

end SliceRecords
