import SliceRecords.Dispatch
import SliceRecords.Proofs.Layout.Synthesis

/-!
# What runs under each encoding

Under each live encoding a merged block runs the block of that encoding, and the body of a struct
runs the instructions of its fields, then its framing. Running a block replaces every guard and
branch by the block that the encoding selects; it respects equality of blocks, which carries the
case in which two equal blocks become one. Main statement: `select_merge_and_body`.
-/

namespace SliceRecords

namespace Instruction

/-- The direction of a guard or a branch. -/
def dispatchDirection? : Instruction → Option Direction
  | guarded direction _ => some direction
  | branch direction _ _ => some direction
  | _ => none

/-- An instruction that frames the fields of a struct. -/
def isFraming : Instruction → Bool
  | skipTagged | tagEndMarker => true
  | _ => false

/-- An instruction stands in a block: at the top, or in a block that a guard or
a branch of it holds. -/
inductive OccursIn (instruction : Instruction) : Block → Prop where
  | top {block : Block} : instruction ∈ block → OccursIn instruction block
  | guarded {block inner : Block} {direction : Direction} : .guarded direction inner ∈ block →
    OccursIn instruction inner → OccursIn instruction block
  | slice1 {block slice1 slice2 : Block} {direction : Direction} :
    .branch direction slice1 slice2 ∈ block → OccursIn instruction slice1 →
    OccursIn instruction block
  | slice2 {block slice1 slice2 : Block} {direction : Direction} :
    .branch direction slice1 slice2 ∈ block → OccursIn instruction slice2 →
    OccursIn instruction block

/-- Equal instructions dispatch in one direction, or not at all. -/
theorem dispatchDirection?_eq_of_same {a b : Instruction} (h : a.same b = true) :
    a.dispatchDirection? = b.dispatchDirection? := by
  cases a <;> cases b <;> simp_all [same, dispatchDirection?]

/-- In a block without guards and branches instructions stand at the top alone. -/
theorem OccursIn.mem_of_flat {instruction : Instruction} {block : Block}
    (h : instruction.OccursIn block) (hflat : ∀ i ∈ block, i.dispatchDirection? = none) :
    instruction ∈ block := by
  cases h with
  | top hmem => exact hmem
  | guarded hmem _ => cases hflat _ hmem
  | slice1 hmem _ => cases hflat _ hmem
  | slice2 hmem _ => cases hflat _ hmem

/-- An instruction of two blocks in a row stands in one of them. -/
theorem OccursIn.of_append {instruction : Instruction} {a b : Block}
    (h : instruction.OccursIn (a ++ b)) : instruction.OccursIn a ∨ instruction.OccursIn b := by
  cases h with
  | top hmem => exact (List.mem_append.mp hmem).imp .top .top
  | guarded hmem hinner =>
    exact (List.mem_append.mp hmem).imp (.guarded · hinner) (.guarded · hinner)
  | slice1 hmem hinner =>
    exact (List.mem_append.mp hmem).imp (.slice1 · hinner) (.slice1 · hinner)
  | slice2 hmem hinner =>
    exact (List.mem_append.mp hmem).imp (.slice2 · hinner) (.slice2 · hinner)

/-- What stands in a block of one guard is the guard, or stands in its block. -/
theorem OccursIn.of_guarded {instruction : Instruction} {direction : Direction} {inner : Block}
    (h : instruction.OccursIn [.guarded direction inner]) :
    instruction = .guarded direction inner ∨ instruction.OccursIn inner := by
  cases h with
  | top hmem => exact .inl (List.mem_singleton.mp hmem)
  | guarded hmem hinner =>
    cases List.mem_singleton.mp hmem
    exact .inr hinner
  | slice1 hmem _ => cases List.mem_singleton.mp hmem
  | slice2 hmem _ => cases List.mem_singleton.mp hmem

/-- What stands in a block of one branch is the branch, or stands in one of its blocks. -/
theorem OccursIn.of_branch {instruction : Instruction} {direction : Direction}
    {slice1 slice2 : Block} (h : instruction.OccursIn [.branch direction slice1 slice2]) :
    instruction = .branch direction slice1 slice2 ∨ instruction.OccursIn slice1 ∨
    instruction.OccursIn slice2 := by
  cases h with
  | top hmem => exact .inl (List.mem_singleton.mp hmem)
  | guarded hmem _ => cases List.mem_singleton.mp hmem
  | slice1 hmem hinner =>
    cases List.mem_singleton.mp hmem
    exact .inr (.inl hinner)
  | slice2 hmem hinner =>
    cases List.mem_singleton.mp hmem
    exact .inr (.inr hinner)

end Instruction

namespace Layout

/-- A synthesized block holds neither guards and branches nor framing. -/
theorem flat_of_mem_synthesize {fields : List Field} {encoding : Encoding} {direction : Direction}
    {instruction : Instruction} (h : instruction ∈ synthesize fields encoding direction) :
    instruction.dispatchDirection? = none ∧ instruction.isFraming = false := by
  have hall : ∀ i ∈ synthesize fields encoding direction,
      i.dispatchDirection? = none ∧ i.isFraming = false := by
    apply forall_mem_synthesize
    · exact fun _ => ⟨rfl, rfl⟩
    · exact fun _ _ _ => ⟨rfl, rfl⟩
    · exact fun _ _ _ _ _ => ⟨rfl, rfl⟩
  exact hall instruction h

end Layout

namespace Dispatch

/-- Running a block runs its instructions one after the other. -/
theorem select_eq_flatMap (encoding : Encoding) (block : Block) :
    select encoding block = block.flatMap (selected encoding) := by
  induction block with
  | nil => rfl
  | cons instruction rest ih => rw [select, ih, List.flatMap_cons]

/-- Selecting from two blocks is selecting from each of them. -/
@[simp] theorem select_append (encoding : Encoding) (a b : Block) :
    select encoding (a ++ b) = select encoding a ++ select encoding b := by
  simp only [select_eq_flatMap, List.flatMap_append]

/-- An instruction that is neither a guard nor a branch runs as it is. -/
theorem selected_of_dispatchDirection?_eq_none {instruction : Instruction}
    (h : instruction.dispatchDirection? = none) (encoding : Encoding) :
    selected encoding instruction = [instruction] := by
  cases instruction with
  | guarded => cases h
  | branch => cases h
  | _ => simp [selected]

/-- A block without guards and branches runs as it is. -/
theorem select_eq_self {block : Block} (h : ∀ i ∈ block, i.dispatchDirection? = none)
    (encoding : Encoding) : select encoding block = block := by
  induction block with
  | nil => rfl
  | cons instruction rest ih =>
    have hrest := ih fun i hi => h i (List.mem_cons_of_mem instruction hi)
    rw [select, hrest, selected_of_dispatchDirection?_eq_none (h _ List.mem_cons_self)]
    rfl

/-- If running respects the equality of the instructions of a block, it
respects that of the block. -/
theorem same_select_of_forall {encoding : Encoding} {as bs : Block}
    (h : ∀ a ∈ as, ∀ b, a.same b = true →
          Block.same (selected encoding a) (selected encoding b) = true)
    (hsame : as.same bs = true) : Block.same (select encoding as) (select encoding bs) = true := by
  unfold Block.same at h hsame ⊢
  simp only [Instruction.sameBlock_iff_forall₂] at h hsame ⊢
  induction hsame with
  | nil => exact List.Forall₂.nil
  | @cons a b as bs hhead _ ih =>
    rw [select, select]
    exact List.rel_append (h a List.mem_cons_self b hhead)
      (ih fun c hc => h c (List.mem_cons_of_mem a hc))

/-- Equal instructions run equal blocks. -/
theorem same_selected {a b : Instruction} (h : a.same b = true) (encoding : Encoding) :
    Block.same (selected encoding a) (selected encoding b) = true := by
  induction a generalizing b with
  | guarded direction block ih =>
    cases b <;> simp only [Instruction.same, Bool.and_eq_true, Bool.false_eq_true] at h
    cases encoding with
    | slice1 => rfl
    | slice2 => exact same_select_of_forall (fun inner hinner b => ih inner hinner) h.2
  | branch direction slice1 slice2 ih₁ ih₂ =>
    cases b <;> simp only [Instruction.same, Bool.and_eq_true, Bool.false_eq_true] at h
    cases encoding with
    | slice1 => exact same_select_of_forall (fun inner hinner b => ih₁ inner hinner) h.1.2
    | slice2 => exact same_select_of_forall (fun inner hinner b => ih₂ inner hinner) h.2
  | _ =>
    have hb := (Instruction.dispatchDirection?_eq_of_same h).symm
    rw [selected_of_dispatchDirection?_eq_none rfl, selected_of_dispatchDirection?_eq_none hb]
    simpa [Block.same, Instruction.sameBlock] using h

/-- Equal blocks run equal blocks. -/
theorem same_select {as bs : Block} (h : as.same bs = true) (encoding : Encoding) :
    Block.same (select encoding as) (select encoding bs) = true :=
  same_select_of_forall (fun _ _ _ hsame => same_selected hsame encoding) h

/-- A block that two blocks merge to runs the first one under the older encoding and the second
one under the newer one. -/
theorem same_select_of_merge {slice1 slice2 merged : Block} {direction : Direction}
    (h : merge slice1 slice2 direction = .ok merged) :
    Block.same (select .slice1 merged) (select .slice1 slice1) = true ∧
      Block.same (select .slice2 merged) (select .slice2 slice2) = true := by
  unfold merge at h
  split at h
  · rename_i hsame
    cases h
    rw [Block.same_comm] at hsame
    exact ⟨same_select hsame .slice1, Block.same_self _⟩
  split at h
  · cases h
  split at h
  · rename_i hempty
    cases h
    rw [List.isEmpty_iff.mp hempty]
    exact ⟨Block.same_self _, by simp [select, selected]⟩
  · cases h
    constructor <;> simp [select, selected]

/-- The block that is generated for a set of encodings: the block of one encoding if it
serves for all of the set, a guard if the older encoding has nothing to do, or a branch.
It is never an error. -/
theorem generate_toList (fields : List Field) (encodings : SupportedEncodings)
    (direction : Direction) :
    ∃ block, generate fields encodings.toList direction = .ok block ∧
      ((∃ encoding, block = Layout.synthesize fields encoding direction ∧
          ∀ other ∈ encodings, Layout.synthesize fields other direction =
            Layout.synthesize fields encoding direction) ∨
        (block = [.guarded direction (Layout.synthesize fields .slice2 direction)] ∧
          Layout.synthesize fields .slice1 direction = []) ∨
        block = [.branch direction (Layout.synthesize fields .slice1 direction)
          (Layout.synthesize fields .slice2 direction)]) := by
  cases encodings with
  | only encoding =>
    refine ⟨_, rfl, .inl ⟨encoding, rfl, ?_⟩⟩
    intro other hother
    rw [List.mem_singleton.mp hother]
  | both =>
    change ∃ block, merge _ _ direction = .ok block ∧ _
    unfold merge
    split
    · rename_i hsame
      refine ⟨_, rfl, .inl ⟨.slice2, rfl, ?_⟩⟩
      intro other _
      cases other with
      | slice1 => exact Layout.synthesize_eq_of_same hsame
      | slice2 => rfl
    · rename_i hdiffer
      split
      · rename_i hempty
        rw [List.isEmpty_iff, Layout.synthesize_slice2_eq_nil_iff] at hempty
        subst hempty
        simp at hdiffer
      · split
        · rename_i hempty
          exact ⟨_, rfl, .inr (.inl ⟨rfl, List.isEmpty_iff.mp hempty⟩)⟩
        · exact ⟨_, rfl, .inr (.inr rfl)⟩

/-- A block that is generated for a set of encodings is the block of an encoding that serves for all
of the set, a guard, or a branch. -/
theorem cases_of_generate {fields : List Field} {encodings : SupportedEncodings}
    {direction : Direction} {block : Block}
    (h : generate fields encodings.toList direction = .ok block) :
    (∃ encoding, block = Layout.synthesize fields encoding direction ∧
       ∀ other ∈ encodings,
         Layout.synthesize fields other direction = Layout.synthesize fields encoding direction) ∨
    (block = [.guarded direction (Layout.synthesize fields .slice2 direction)] ∧
     Layout.synthesize fields .slice1 direction = []) ∨
    block = [.branch direction (Layout.synthesize fields .slice1 direction)
      (Layout.synthesize fields .slice2 direction)] := by
  obtain ⟨generated, hgenerated, hshape⟩ := generate_toList fields encodings direction
  rw [h] at hgenerated
  cases hgenerated
  exact hshape

/-- What holds of the synthesized instructions of each encoding, and is kept by guards and branches,
holds of the instructions of a generated block. -/
theorem forall_mem_generate {P : Instruction → Prop} {fields : List Field} {direction : Direction}
    (hsynthesized : ∀ encoding, ∀ i ∈ Layout.synthesize fields encoding direction, P i)
    (hguarded : ∀ {block : Block}, (∀ i ∈ block, P i) → P (.guarded direction block))
    (hbranch : ∀ {slice1 slice2 : Block}, (∀ i ∈ slice1, P i) → (∀ i ∈ slice2, P i) →
      P (.branch direction slice1 slice2))
    {encodings : SupportedEncodings} {block : Block}
    (hblock : generate fields encodings.toList direction = .ok block) : ∀ i ∈ block, P i := by
  rcases cases_of_generate hblock with ⟨encoding, rfl, _⟩ | ⟨rfl, _⟩ | rfl
  · exact hsynthesized encoding
  · intro instruction hmem
    rw [List.mem_singleton.mp hmem]
    exact hguarded (hsynthesized .slice2)
  · intro instruction hmem
    rw [List.mem_singleton.mp hmem]
    exact hbranch (hsynthesized .slice1) (hsynthesized .slice2)

/-- The block that is generated for a set of encodings runs the synthesized block of each. -/
theorem select_of_generate {fields : List Field} {encodings : SupportedEncodings}
    {direction : Direction} {block : Block}
    (h : generate fields encodings.toList direction = .ok block) {encoding : Encoding}
    (hencoding : encoding ∈ encodings) :
    select encoding block = Layout.synthesize fields encoding direction := by
  have hflat (e : Encoding) : select encoding (Layout.synthesize fields e direction) =
      Layout.synthesize fields e direction :=
    select_eq_self (fun _ hi => (Layout.flat_of_mem_synthesize hi).1) encoding
  rcases cases_of_generate h with ⟨e, rfl, heq⟩ | ⟨rfl, hnil⟩ | rfl
  · rw [hflat, heq encoding hencoding]
  · cases encoding with
    | slice1 => simp [select, selected, hnil]
    | slice2 => simp [select, selected, hflat]
  · cases encoding with
    | slice1 => simp [select, selected, hflat]
    | slice2 => simp [select, selected, hflat]

/-- What stands in a generated block, at whatever depth, frames nothing, and dispatches in the
direction of the block if it dispatches at all. -/
theorem occursIn_of_generate {fields : List Field} {encodings : SupportedEncodings}
    {direction : Direction} {block : Block}
    (h : generate fields encodings.toList direction = .ok block) {instruction : Instruction}
    (hoccurs : instruction.OccursIn block) :
    instruction.isFraming = false ∧
      ∀ other, instruction.dispatchDirection? = some other → other = direction := by
  have hsynthesized (e : Encoding)
      (hmem : instruction.OccursIn (Layout.synthesize fields e direction)) :
      instruction.isFraming = false ∧
        ∀ other, instruction.dispatchDirection? = some other → other = direction := by
    have hflat := Layout.flat_of_mem_synthesize
      (hmem.mem_of_flat fun _ hi => (Layout.flat_of_mem_synthesize hi).1)
    exact ⟨hflat.2, by simp [hflat.1]⟩
  have hdispatch {other : Direction} (hsome : some direction = some other) : other = direction :=
    (Option.some.inj hsome).symm
  rcases cases_of_generate h with ⟨e, rfl, _⟩ | ⟨rfl, _⟩ | rfl
  · exact hsynthesized e hoccurs
  · rcases hoccurs.of_guarded with rfl | hinner
    · exact ⟨rfl, fun _ => hdispatch⟩
    · exact hsynthesized _ hinner
  · rcases hoccurs.of_branch with rfl | hinner | hinner
    · exact ⟨rfl, fun _ => hdispatch⟩
    · exact hsynthesized _ hinner
    · exact hsynthesized _ hinner

/-- The framing of a struct is at most one instruction, which does not dispatch. -/
theorem framing_cases (struct : Struct) (direction : Direction) :
    (struct.isCompact = true ∧ struct.framing direction = []) ∨
      (struct.isCompact = false ∧ ∃ instruction, struct.framing direction = [instruction] ∧
        instruction.isFraming = true ∧ instruction.dispatchDirection? = none) := by
  unfold Struct.framing
  cases struct.isCompact with
  | true => exact .inl ⟨rfl, rfl⟩
  | false =>
    right
    cases direction with
    | encode => exact ⟨rfl, .tagEndMarker, rfl, rfl, rfl⟩
    | decode => exact ⟨rfl, .skipTagged, rfl, rfl, rfl⟩

/-- The framing of a struct holds no dispatch. -/
theorem framing_flat (struct : Struct) (direction : Direction) :
    ∀ i ∈ struct.framing direction, i.dispatchDirection? = none := by
  rcases framing_cases struct direction with ⟨_, hnil⟩ | ⟨_, instruction, hone, _, hflat⟩
  · simp [hnil]
  · simpa [hone] using hflat

/-- Merging fails only where the newer encoding has nothing to do and the older one has; otherwise
the merged block runs either block under its encoding. So the body of a struct runs the fields of
each encoding that the struct supports, then the framing. The framing is not part of the field
block, in which nothing frames at any depth, and every guard and branch of the body has the
direction of the body. -/
theorem select_merge_and_body :
    (∀ (slice1 slice2 : Block) (direction : Direction),
      (∀ error, merge slice1 slice2 direction = .error error ↔
        error = .emptySlice2 ∧ slice2 = [] ∧ slice1 ≠ []) ∧
      (∀ merged, merge slice1 slice2 direction = .ok merged →
        Block.same (select .slice1 merged) (select .slice1 slice1) = true ∧
          Block.same (select .slice2 merged) (select .slice2 slice2) = true)) ∧
    ∀ (struct : Struct) (direction : Direction), ∃ fieldBlock : Block,
      body struct direction = .ok (fieldBlock ++ struct.framing direction) ∧
      (∀ encoding ∈ struct.encodings,
        select encoding (fieldBlock ++ struct.framing direction) =
          Layout.synthesize struct.fields encoding direction ++ struct.framing direction) ∧
      (∀ instruction : Instruction, instruction.OccursIn fieldBlock →
        instruction.isFraming = false) ∧
      ((struct.isCompact = true ∧ struct.framing direction = []) ∨
        (struct.isCompact = false ∧ ∃ instruction, struct.framing direction = [instruction] ∧
          instruction.isFraming = true ∧ instruction.dispatchDirection? = none)) ∧
      ∀ instruction : Instruction,
        instruction.OccursIn (fieldBlock ++ struct.framing direction) →
          ∀ other, instruction.dispatchDirection? = some other → other = direction := by
  refine ⟨fun slice1 slice2 direction =>
    ⟨fun error => merge_eq_error_iff, fun merged => same_select_of_merge⟩, ?_⟩
  intro struct direction
  obtain ⟨fieldBlock, hblock, _⟩ := generate_toList struct.fields struct.encodings direction
  refine ⟨fieldBlock, ?_, ?_, ?_, framing_cases struct direction, ?_⟩
  · rw [body, hblock]
    rfl
  · intro encoding hencoding
    rw [select_append, select_of_generate hblock hencoding,
      select_eq_self (framing_flat struct direction)]
  · intro instruction hoccurs
    exact (occursIn_of_generate hblock hoccurs).1
  · intro instruction hoccurs other hother
    rcases hoccurs.of_append with hfields | hframing
    · exact (occursIn_of_generate hblock hfields).2 other hother
    · have hflat := framing_flat struct direction
      rw [hflat instruction (hframing.mem_of_flat hflat)] at hother
      cases hother

/-- A merge of two blocks that dispatch themselves, and the body of a struct of a
tagged field and another. -/
theorem select_merge_and_body_nested :
    (∃ merged, merge [.guarded .encode [.tagEndMarker], .skipTagged] [.blank] .encode = .ok merged ∧
      Block.same (select .slice1 merged) [.skipTagged] = true) ∧
    ∃ (struct : Struct) (fieldBlock : Block), struct.fields.map Field.isTagged = [true, false] ∧
      .slice1 ∈ struct.encodings ∧ .slice2 ∈ struct.encodings ∧
      body struct .decode = .ok (fieldBlock ++ [.skipTagged]) ∧
      select .slice1 (fieldBlock ++ [.skipTagged]) =
        Layout.synthesize struct.fields .slice1 .decode ++ [.skipTagged] := by
  constructor
  · have hmerge : merge [.guarded .encode [.tagEndMarker], .skipTagged] [.blank] .encode =
        .ok [.branch .encode [.guarded .encode [.tagEndMarker], .skipTagged] [.blank]] := rfl
    exact ⟨_, hmerge, ((select_merge_and_body.1 _ _ _).2 _ hmerge).1⟩
  · let struct : Struct :=
      { name := "Reading"
        fields :=
          [{ name := "note"
             type := { kind := .primitive, name := some "string", optional := true }
             tag := some (.integer 1) },
            { name := "value", type := { kind := .primitive, name := some "int32" } }]
        encodings := .both }
    obtain ⟨fieldBlock, hbody, hselect, _⟩ := select_merge_and_body.2 struct .decode
    have hslice1 : .slice1 ∈ struct.encodings := by decide
    exact ⟨struct, fieldBlock, rfl, hslice1, by decide, hbody, hselect .slice1 hslice1⟩

end Dispatch

end SliceRecords
