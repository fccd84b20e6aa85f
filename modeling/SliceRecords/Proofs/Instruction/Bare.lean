import SliceRecords.Proofs.Instruction.Equality

/-!
# Fields without documentation

A bare field has only what code on the wire is made from: its name, its type and its tag.
Instructions with bare fields in place of their own compare as before. Main statement: `same_bare`.
-/

namespace SliceRecords

namespace Field

/-- A field without default value, documentation, deprecation and origin. -/
def bare (field : Field) : Field :=
  { name := field.name, type := field.type, tag := field.tag,
    optional_of_tag := field.optional_of_tag }

/-- A bare field is tagged as the field is. -/
@[simp] theorem bare_isTagged (field : Field) : field.bare.isTagged = field.isTagged := rfl

end Field

namespace Instruction

mutual

/-- An instruction with bare fields, at every depth. -/
def bare : Instruction → Instruction
  | untagged direction form field => untagged direction form field.bare
  | tagged direction field encoding format size => tagged direction field.bare encoding format size
  | guarded direction block => guarded direction (bareBlock block)
  | branch direction slice1 slice2 => branch direction (bareBlock slice1) (bareBlock slice2)
  | instruction => instruction

/-- A block of instructions with bare fields. -/
def bareBlock : List Instruction → List Instruction
  | [] => []
  | instruction :: rest => bare instruction :: bareBlock rest

end

/-- A block is made bare instruction by instruction. -/
theorem bareBlock_eq_map (block : Block) : bareBlock block = block.map bare := by
  induction block with
  | nil => rfl
  | cons instruction rest ih => rw [bareBlock, ih, List.map_cons]

/-- If instructions compare as with bare fields, blocks of them do. -/
theorem sameBlock_bareBlock_of_forall {as : Block}
    (h : ∀ a ∈ as, ∀ b : Instruction, same a.bare b.bare = same a b) (bs : Block) :
    sameBlock (bareBlock as) (bareBlock bs) = sameBlock as bs := by
  induction as generalizing bs with
  | nil => cases bs <;> rfl
  | cons a as ih =>
    cases bs with
    | nil => rfl
    | cons b bs =>
      have hrest := ih (fun c hc => h c (List.mem_cons_of_mem a hc)) bs
      simp only [bareBlock, sameBlock, h a List.mem_cons_self, hrest]

/-- Equality of instructions does not look at the documentation of their fields. -/
theorem same_bare (a b : Instruction) : same a.bare b.bare = same a b := by
  induction a generalizing b with
  | guarded direction block ih =>
    cases b <;> simp only [bare, same]
    rw [sameBlock_bareBlock_of_forall ih]
  | branch direction slice1 slice2 ih₁ ih₂ =>
    cases b <;> simp only [bare, same]
    rw [sameBlock_bareBlock_of_forall ih₁, sameBlock_bareBlock_of_forall ih₂]
  | _ => cases b <;> simp only [bare, same] <;> rfl

end Instruction

/-- Nor does equality of blocks. -/
theorem Block.same_bareBlock (a b : Block) :
    Block.same (Instruction.bareBlock a) (Instruction.bareBlock b) = a.same b :=
  Instruction.sameBlock_bareBlock_of_forall (fun a _ => Instruction.same_bare a) b

end SliceRecords
