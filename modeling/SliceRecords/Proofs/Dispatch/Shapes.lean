import SliceRecords.Proofs.Dispatch.Mirror
import SliceRecords.Proofs.Layout.Evolution
import SliceRecords.Proofs.Model.Encodings

/-!
# The shape of a generated block

Which shape the block for both encodings has can be read off the fields: it is shared if no field is
optional, guarded if the older encoding leaves all fields off the wire, and a branch otherwise. So
the one merge that has no result never arises, and generation fails for lists of encodings alone.
Main statement: `generate_shape_iff`.
-/

namespace SliceRecords

open Layout

/-- Whether a type can be tagged in the older encoding does not depend on its optional mark. -/
@[simp] theorem TypeRef.tagFormat_asRequired (type : TypeRef) :
    type.asRequired.tagFormat = type.tagFormat := rfl

/-- The older encoding leaves a field off the wire if the field has a tag and
its type no tag format. -/
theorem Field.instructions_slice1_eq_nil_iff {field : Field} {direction : Direction} :
    field.instructions .slice1 direction = [] ↔
      field.isTagged = true ∧ field.type.tagFormat = none := by
  unfold instructions
  cases field.isTagged with
  | false => cases field.isOptional <;> simp
  | true =>
    simp only [TypeRef.tagFormat_asRequired]
    cases field.type.tagFormat <;> simp

/-- The older encoding has nothing to do if it leaves all fields off the wire. -/
theorem Layout.synthesize_slice1_eq_nil_iff {fields : List Field} {direction : Direction} :
    synthesize fields .slice1 direction = [] ↔
      ∀ field ∈ fields, field.isTagged = true ∧ field.type.tagFormat = none := by
  rw [synthesize, header_slice1, List.nil_append, List.flatMap_eq_nil_iff]
  simp only [mem_wireOrder, Field.instructions_slice1_eq_nil_iff]

namespace Dispatch

variable {fields : List Field} {direction : Direction}

/-- A block that begins with a guard is a guarded one. -/
theorem shape_guarded (direction : Direction) (inner rest : Block) :
    shape (.guarded direction inner :: rest) = .guarded := rfl

/-- A block that begins with a branch is a branching one. -/
theorem shape_branch (direction : Direction) (slice1 slice2 rest : Block) :
    shape (.branch direction slice1 slice2 :: rest) = .branch := rfl

/-- A block without guards and branches is shared. -/
theorem shape_eq_shared {block : Block} (h : ∀ i ∈ block, i.dispatchDirection? = none) :
    shape block = .shared := by
  induction block with
  | nil => rfl
  | cons instruction rest ih =>
    obtain ⟨hfirst, hrest⟩ := List.forall_mem_cons.mp h
    cases instruction with
    | guarded => cases hfirst
    | branch => cases hfirst
    | _ => exact ih hrest

/-- What is synthesized for one encoding has no dispatch, so its shape is shared. -/
theorem shape_synthesize (fields : List Field) (encoding : Encoding) (direction : Direction) :
    shape (synthesize fields encoding direction) = .shared :=
  shape_eq_shared fun _ hmem => (flat_of_mem_synthesize hmem).1

/-- The block for both encodings, by what the fields ask for. There is always one: without fields no
field is optional, and with fields the newer encoding has something to do. -/
theorem generate_both (fields : List Field) (direction : Direction) :
    generate fields [.slice1, .slice2] direction = .ok (
      if ∀ field ∈ fields, field.isOptional = false then synthesize fields .slice2 direction
      else if synthesize fields .slice1 direction = [] then
        [.guarded direction (synthesize fields .slice2 direction)]
      else
        [.branch direction (synthesize fields .slice1 direction)
          (synthesize fields .slice2 direction)]) := by
  change merge _ _ direction = _
  unfold merge
  by_cases hrequired : ∀ field ∈ fields, field.isOptional = false
  · rw [if_pos (same_synthesize_iff.mpr hrequired), if_pos hrequired]
  · have hnewer : synthesize fields .slice2 direction ≠ [] := by
      rw [ne_eq, synthesize_slice2_eq_nil_iff]
      rintro rfl
      exact hrequired (List.forall_mem_nil _)
    rw [if_neg (mt same_synthesize_iff.mp hrequired), if_neg hrequired,
      if_neg (mt List.isEmpty_iff.mp hnewer)]
    simp only [List.isEmpty_iff]
    split <;> rfl

/-- Fields that call for a guard: there are some, and the older encoding leaves all
of them off the wire. -/
def NeedsGuard (fields : List Field) : Prop :=
  fields ≠ [] ∧ ∀ field ∈ fields, field.isTagged = true ∧ field.type.tagFormat = none

/-- Fields that call for a guard are optional. -/
theorem NeedsGuard.not_required (h : NeedsGuard fields) :
    ¬∀ field ∈ fields, field.isOptional = false := by
  obtain ⟨hsome, htagged⟩ := h
  obtain ⟨field, hfield⟩ := List.exists_mem_of_ne_nil fields hsome
  intro hrequired
  have hoptional := Field.isOptional_of_isTagged (htagged field hfield).1
  rw [hrequired field hfield] at hoptional
  cases hoptional

/-- If some field is optional, the older encoding has nothing to do exactly if the
fields call for a guard. -/
theorem synthesize_slice1_eq_nil_iff_needsGuard
    (h : ¬∀ field ∈ fields, field.isOptional = false) :
    synthesize fields .slice1 direction = [] ↔ NeedsGuard fields := by
  have hsome : fields ≠ [] := by
    rintro rfl
    exact h (List.forall_mem_nil _)
  rw [synthesize_slice1_eq_nil_iff, NeedsGuard, and_iff_right hsome]

/-- The shape of the block for both encodings, by what the fields ask for. -/
theorem exists_shape_generate_both (fields : List Field) (direction : Direction) :
    ∃ block, generate fields [.slice1, .slice2] direction = .ok block ∧
      (shape block = .shared ↔ ∀ field ∈ fields, field.isOptional = false) ∧
      (shape block = .guarded ↔ NeedsGuard fields) ∧
      (shape block = .branch ↔
        ¬(∀ field ∈ fields, field.isOptional = false) ∧ ¬NeedsGuard fields) := by
  refine ⟨_, generate_both fields direction, ?_⟩
  by_cases hrequired : ∀ field ∈ fields, field.isOptional = false
  · rw [if_pos hrequired, shape_synthesize]
    refine ⟨iff_of_true rfl hrequired, iff_of_false (by decide) fun hguard => ?_,
      iff_of_false (by decide) fun hneither => hneither.1 hrequired⟩
    exact hguard.not_required hrequired
  · rw [if_neg hrequired]
    by_cases hguard : NeedsGuard fields
    · rw [if_pos ((synthesize_slice1_eq_nil_iff_needsGuard hrequired).mpr hguard), shape_guarded]
      exact ⟨iff_of_false (by decide) hrequired, iff_of_true rfl hguard,
        iff_of_false (by decide) fun hneither => hneither.2 hguard⟩
    · rw [if_neg (mt (synthesize_slice1_eq_nil_iff_needsGuard hrequired).mp hguard), shape_branch]
      exact ⟨iff_of_false (by decide) hrequired, iff_of_false (by decide) hguard,
        iff_of_true rfl ⟨hrequired, hguard⟩⟩

/-- Generation fails exactly for lists of encodings that are neither one
encoding nor both in order. -/
theorem exists_generate_eq_error_iff {encodings : List Encoding} :
    (∃ error, generate fields encodings direction = .error error) ↔
      encodings = [] ∨ (2 ≤ encodings.length ∧ encodings ≠ [.slice1, .slice2]) := by
  rcases encodings with _ | ⟨first, _ | ⟨second, _ | ⟨third, rest⟩⟩⟩
  · simp [generate]
  · simp [generate]
  · cases first <;> cases second
    case slice1.slice2 => simp [generate_both]
    all_goals simp [generate]
  · cases first <;> cases second <;> simp [generate]

/-- Every struct has a body. -/
theorem exists_body (struct : Struct) (direction : Direction) :
    ∃ block, body struct direction = .ok block := by
  obtain ⟨block, hblock, _⟩ := generate_toList struct.fields struct.encodings direction
  exact ⟨block ++ struct.framing direction, by rw [body, hblock]; rfl⟩

/-- For both encodings there is a block for every list of fields, and its shape is that which the
fields call for. For other lists of encodings generation fails unless they name one encoding. A list
of names makes a set, though, so a struct made with any list of names that is not empty has a body,
which does not change if the same encodings are named in another order or more often. -/
theorem generate_shape_iff :
    (∀ (fields : List Field) (direction : Direction),
       ∃ block, generate fields [.slice1, .slice2] direction = .ok block ∧
         (shape block = .shared ↔ ∀ field ∈ fields, field.isOptional = false) ∧
         (shape block = .guarded ↔
          fields ≠ [] ∧ ∀ field ∈ fields, field.isTagged = true ∧ field.type.tagFormat = none) ∧
         (shape block = .branch ↔ ¬(∀ field ∈ fields, field.isOptional = false) ∧
          ¬(fields ≠ [] ∧ ∀ field ∈ fields, field.isTagged = true ∧ field.type.tagFormat = none))) ∧
    (∀ (fields : List Field) (encodings : List Encoding) (direction : Direction),
       (∃ error, generate fields encodings direction = .error error) ↔
       encodings = [] ∨ (2 ≤ encodings.length ∧ encodings ≠ [.slice1, .slice2])) ∧
    ∀ (struct : Struct) (named : List Encoding) (direction : Direction), named ≠ [] →
      ∃ encodings block,
        SupportedEncodings.ofNames (named.map fun encoding => .string encoding.name) =
          .ok encodings ∧
        body { struct with encodings } direction = .ok block ∧
        ∀ others : List Encoding, (∀ encoding, encoding ∈ others ↔ encoding ∈ named) →
          ∃ otherEncodings,
            SupportedEncodings.ofNames (others.map fun encoding => .string encoding.name) =
              .ok otherEncodings ∧
            body { struct with encodings := otherEncodings } direction = .ok block := by
  refine ⟨exists_shape_generate_both, fun _ _ _ => exists_generate_eq_error_iff, ?_⟩
  intro struct named direction hnamed
  obtain ⟨encodings, hencodings⟩ := SupportedEncodings.exists_ofNames hnamed
  obtain ⟨block, hblock⟩ := exists_body { struct with encodings } direction
  refine ⟨encodings, block, hencodings, hblock, fun others hothers => ?_⟩
  exact ⟨encodings, SupportedEncodings.ofNames_congr hothers hencodings, hblock⟩

/-- A struct whose fields the older encoding leaves off the wire, with the
encodings named in two ways. -/
theorem generate_shape_iff_guarded :
    let field := Layout.optionalField "count" .varint32 (some (.integer 1))
    let struct : Struct := { name := "Counter", fields := [field], encodings := .both }
    (∃ block, generate [field] [.slice1, .slice2] .encode = .ok block ∧ shape block = .guarded) ∧
      ∃ encodings block,
        SupportedEncodings.ofNames [.string "Slice2", .string "Slice1", .string "Slice2"] =
          .ok encodings ∧
        body { struct with encodings } .decode = .ok block ∧
        ∃ otherEncodings,
          SupportedEncodings.ofNames [.string "Slice1", .string "Slice2"] = .ok otherEncodings ∧
          body { struct with encodings := otherEncodings } .decode = .ok block := by
  intro field struct
  constructor
  · obtain ⟨block, hblock, _, hguarded, _⟩ := generate_shape_iff.1 [field] .encode
    exact ⟨block, hblock, hguarded.mpr ⟨by simp, by decide +kernel⟩⟩
  · obtain ⟨encodings, block, hencodings, hblock, hothers⟩ :=
      generate_shape_iff.2.2 struct [.slice2, .slice1, .slice2] .decode (by decide)
    have hsame : ∀ encoding, encoding ∈ [Encoding.slice1, .slice2] ↔
        encoding ∈ [Encoding.slice2, .slice1, .slice2] := by
      intro encoding
      cases encoding <;> simp
    exact ⟨encodings, block, hencodings, hblock, hothers [.slice1, .slice2] hsame⟩

end Dispatch

end SliceRecords
