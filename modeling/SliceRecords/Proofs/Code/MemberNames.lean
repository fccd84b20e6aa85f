import SliceRecords.Proofs.Code.Constructors
import SliceRecords.Proofs.Code.JoinedWords
import SliceRecords.Proofs.Text.Calls

/-!
# Names of members and parameters

If the letters and digits of a name begin with a letter, the member for it begins with a capital, so
it is no keyword, and the parameter for it begins with the small letter in place of the capital.
Keywords are escaped by a character that no such name has, so two members have one name exactly if
their parameters do. Main statement: `memberName_eq_iff_parameterName_eq`.
-/

namespace SliceRecords.Code

open Text

/-- An escaped name without its at sign is the name. -/
theorem trimStart_escapeIdentifier {name : String} (h : '@' ∉ name.toList) :
    trimStart (· == '@') (escapeIdentifier name) = name := by
  have hname : name.toList.dropWhile (· == '@') = name.toList := by
    rw [List.dropWhile_eq_self_iff]
    intro hlength hat
    exact h (beq_iff_eq.mp hat ▸ List.getElem_mem hlength)
  have htrim : trimStart (· == '@') name = name := by rw [trimStart, hname, String.ofList_toList]
  unfold escapeIdentifier
  split
  · rw [trimStart, String.toList_append]
    exact htrim
  · exact htrim

/-- Escaping keeps names without at signs apart. -/
theorem escapeIdentifier_eq_iff {a b : String} (ha : '@' ∉ a.toList) (hb : '@' ∉ b.toList) :
    escapeIdentifier a = escapeIdentifier b ↔ a = b := by
  refine ⟨fun h => ?_, congrArg escapeIdentifier⟩
  rw [← trimStart_escapeIdentifier ha, h, trimStart_escapeIdentifier hb]

/-- Keywords are in small letters. -/
theorem isLower_of_mem_reservedKeywords {word : String} (h : word ∈ reservedKeywords) :
    ∀ c ∈ word.toList, c.isLower = true := by
  have hall : reservedKeywords.all (fun word => word.toList.all Char.isLower) = true := by
    decide +kernel
  exact List.all_eq_true.mp (List.all_eq_true.mp hall word h)

/-- An escaped name is no keyword. -/
theorem escapeIdentifier_notMem_reservedKeywords (name : String) :
    escapeIdentifier name ∉ reservedKeywords := by
  unfold escapeIdentifier
  split
  · intro hmem
    exact absurd (isLower_of_mem_reservedKeywords hmem '@' (by simp)) (by decide)
  · assumption

/-- A name whose letters and digits, of seven bits, begin with a letter. -/
def BeginsWithLetter (name : String) : Prop :=
  (name.toList.filter Char.isAlphanum).head?.any Char.isAlpha = true

/-- Whether the letters and digits of a name begin with a letter can be decided. -/
instance (name : String) : Decidable (BeginsWithLetter name) :=
  inferInstanceAs (Decidable (_ = true))

/-- Joined words begin with the capital of the first letter or digit. -/
theorem head?_joined (name : List Char) :
    (joined false name).head? = (name.filter Char.isAlphanum).head?.map Char.toUpper := by
  induction name with
  | nil => rfl
  | cons c rest ih =>
    by_cases hc : c.isAlphanum = true
    · rw [joined, if_pos hc, List.filter_cons_of_pos hc]
      rfl
    · rw [joined, if_neg hc, List.filter_cons_of_neg hc, ih]

/-- The words of such a name begin with a capital when they are joined, and with its small letter
when the first one gets no capital. -/
theorem BeginsWithLetter.exists_capital {name : String} (h : BeginsWithLetter name) :
    ∃ c rest, c.isUpper = true ∧ (∀ d ∈ rest, d.isAlphanum = true) ∧
      pascalCase name = String.ofList (c :: rest) ∧
      camelCase name = String.ofList (c.toLower :: rest) := by
  obtain ⟨first, hfirst, halpha⟩ := (Option.any_eq_true Char.isAlpha _).mp h
  have hhead : (joined false name.toList).head? = some first.toUpper := by
    rw [head?_joined, hfirst]
    rfl
  obtain ⟨rest, hjoined⟩ := List.head?_eq_some_iff.mp hhead
  have hupper : first.toUpper.isUpper = true := isUpper_toUpper halpha
  have hany : name.toList.any Char.isAlphanum = true :=
    List.any_eq_true.mpr ⟨first, List.mem_filter.mp (List.mem_of_head? hfirst)⟩
  have hpascal : pascalCase name = String.ofList (first.toUpper :: rest) := by
    rw [pascalCase_eq_joined, if_pos hany, hjoined]
  have hlower : lowercase first.toUpper = [first.toUpper.toLower] := by
    have hbound := (toNat_bounds_of_isAlphanum (isAlphanum_of_isUpper hupper)).2
    exact lowercase_of_lt (by omega)
  refine ⟨first.toUpper, rest, hupper, fun d hd => ?_, hpascal, ?_⟩
  · exact isAlphanum_of_mem_joined (hjoined ▸ List.mem_cons_of_mem _ hd)
  · unfold camelCase
    rw [hpascal, String.toList_ofList]
    exact congrArg String.ofList (congrArg (· ++ rest) hlower)

/-- The identifiers for a field with a name: a capital and letters and digits for the
member, and the small letter in place of the capital for the parameter, with an at sign
in front of a keyword. -/
structure HasFieldNames (name : String) (c : Char) (rest : List Char) : Prop where
  isUpper : c.isUpper = true
  isAlphanum : ∀ d ∈ rest, d.isAlphanum = true
  member : memberName name = String.ofList (c :: rest)
  member_notMem : memberName name ∉ reservedKeywords
  at_notMem : '@' ∉ (memberName name).toList
  parameter : parameterName name = String.ofList (c.toLower :: rest) ∨
    String.ofList (c.toLower :: rest) ∈ reservedKeywords ∧
      parameterName name = "@" ++ String.ofList (c.toLower :: rest)
  parameter_notMem : parameterName name ∉ reservedKeywords

/-- What is no letter or digit is not in a text of them. -/
theorem notMem_ofList {e c : Char} {rest : List Char} (he : ¬e.isAlphanum = true)
    (hc : c.isAlphanum = true) (hrest : ∀ d ∈ rest, d.isAlphanum = true) :
    e ∉ (String.ofList (c :: rest)).toList := by
  have hall : ∀ d ∈ c :: rest, d.isAlphanum = true := List.forall_mem_cons.mpr ⟨hc, hrest⟩
  rw [String.toList_ofList]
  exact fun hmem => he (hall e hmem)

/-- The small letter of a capital is a letter. -/
theorem isAlphanum_toLower {c : Char} (h : c.isUpper = true) : c.toLower.isAlphanum = true := by
  rw [isAlphanum_eq, isLower_toLower h, Bool.or_true, Bool.true_or]

/-- Such a name gives a member and a parameter with the names that are due. -/
theorem BeginsWithLetter.exists_hasFieldNames {name : String} (h : BeginsWithLetter name) :
    ∃ c rest, HasFieldNames name c rest := by
  obtain ⟨c, rest, hupper, hrest, hpascal, hcamel⟩ := h.exists_capital
  have hkeyword : String.ofList (c :: rest) ∉ reservedKeywords := by
    intro hmem
    have hlower := isLower_of_mem_reservedKeywords hmem c (by simp)
    rw [isLower_eq_false_of_isUpper hupper] at hlower
    cases hlower
  have hmember : memberName name = String.ofList (c :: rest) := by
    rw [memberName, hpascal, escapeIdentifier, if_neg hkeyword]
  refine ⟨c, rest, hupper, hrest, hmember, hmember ▸ hkeyword, ?_, ?_, ?_⟩
  · rw [hmember]
    exact notMem_ofList (by decide) (isAlphanum_of_isUpper hupper) hrest
  · rw [parameterName, hcamel, escapeIdentifier]
    split
    · exact .inr ⟨‹_›, rfl⟩
    · exact .inl rfl
  · exact escapeIdentifier_notMem_reservedKeywords _

/-- Two members have one name exactly if their parameters do. -/
theorem BeginsWithLetter.memberName_eq_iff {a b : String} (ha : BeginsWithLetter a)
    (hb : BeginsWithLetter b) :
    memberName a = memberName b ↔ parameterName a = parameterName b := by
  obtain ⟨c, cs, hc, hcs, hpascalA, hcamelA⟩ := ha.exists_capital
  obtain ⟨d, ds, hd, hds, hpascalB, hcamelB⟩ := hb.exists_capital
  rw [memberName, memberName, parameterName, parameterName, hpascalA, hpascalB, hcamelA, hcamelB,
    escapeIdentifier_eq_iff (notMem_ofList (by decide) (isAlphanum_of_isUpper hc) hcs)
      (notMem_ofList (by decide) (isAlphanum_of_isUpper hd) hds),
    escapeIdentifier_eq_iff (notMem_ofList (by decide) (isAlphanum_toLower hc) hcs)
      (notMem_ofList (by decide) (isAlphanum_toLower hd) hds),
    String.ofList_inj, String.ofList_inj, List.cons.injEq, List.cons.injEq]
  exact and_congr_left' ⟨congrArg Char.toLower, eq_of_toLower_eq_toLower hc hd⟩

/-- Neither name has a line feed. -/
theorem BeginsWithLetter.isOneLine {name : String} (h : BeginsWithLetter name) :
    IsOneLine (memberName name) ∧ IsOneLine (parameterName name) := by
  obtain ⟨c, rest, hc, hrest, hpascal, hcamel⟩ := h.exists_capital
  rw [memberName, parameterName, hpascal, hcamel]
  exact ⟨isOneLine_escapeIdentifier (notMem_ofList (by decide) (isAlphanum_of_isUpper hc) hrest),
    isOneLine_escapeIdentifier (notMem_ofList (by decide) (isAlphanum_toLower hc) hrest)⟩

/-- A name whose letters and digits begin with a letter gives a member that is a capital with
letters and digits behind it, and a parameter that begins with the small letter; neither is a
keyword, as the parameter has an at sign in front of one. Members for two such names have one name
exactly if the parameters do, so the constructor of a struct has two parameters of one name exactly
if the struct has two such members. The text of this constructor is made of its comments, a header
with the texts of the parameters, and a line for each assignment. -/
theorem memberName_eq_iff_parameterName_eq :
    (∀ name, BeginsWithLetter name → ∃ c rest, HasFieldNames name c rest) ∧
    (∀ a b, BeginsWithLetter a → BeginsWithLetter b →
      (memberName a = memberName b ↔ parameterName a = parameterName b)) ∧
    ∀ namespaceName (struct : Struct) block,
      (∀ field ∈ struct.fields, BeginsWithLetter field.name) →
      mainConstructor namespaceName struct = .ok block →
      ∃ types, fieldTypes namespaceName struct.fields = .ok types ∧
        block = (fieldConstructor struct types).build ∧
        PrintsFieldwise struct (fieldConstructor struct types) block ∧
        lines block.text =
          Block.cleanLines
            ((fieldConstructor struct types).preamble.comments.map CommentTag.text) ++
            Block.cleanLines [(fieldConstructor struct types).header] ++
              "\x7b" :: struct.fields.map (fun field =>
                s!"    this.{memberName field.name} = {parameterName field.name};") ++ ["\x7d"] ∧
        (((fieldConstructor struct types).parameters.map Parameter.name).Nodup ↔
          (struct.fields.map fun field => memberName field.name).Nodup) := by
  refine ⟨fun _ => BeginsWithLetter.exists_hasFieldNames,
    fun _ _ => BeginsWithLetter.memberName_eq_iff, ?_⟩
  intro namespaceName struct block hfields hblock
  obtain ⟨types, htypes, rfl⟩ := (mainConstructor_eq_ok_iff namespaceName).mp hblock
  have hlength := (Result.mapM_eq_ok_iff.mp htypes).length_eq
  have hnames : (fieldConstructor struct types).parameters.map Parameter.name =
      struct.fields.map fun field => parameterName field.name := map_name_fieldParameters hlength
  have hprints := printsFieldwise_build struct types
  have hlines := hprints.lines
  rw [hprints.assignments fun field hfield => (hfields field hfield).isOneLine] at hlines
  refine ⟨types, htypes, rfl, hprints, by simpa using hlines, ?_⟩
  unfold List.Nodup
  rw [hnames, List.pairwise_map, List.pairwise_map]
  exact List.Pairwise.iff_of_mem fun ha hb =>
    not_congr ((hfields _ ha).memberName_eq_iff (hfields _ hb)).symm

/-- A keyword with a separator in front, and a struct with one field in two spellings. -/
theorem memberName_eq_iff_parameterName_eq_keyword :
    (∃ c rest, HasFieldNames "_lock" c rest) ∧ parameterName "_lock" = "@lock" ∧
      ∃ (struct : Struct) (types : List String), struct.fields.map Field.name = ["a-b", "A_B"] ∧
        (memberName "a-b" = memberName "A_B" ↔ parameterName "a-b" = parameterName "A_B") ∧
        mainConstructor "Demo" struct = .ok (fieldConstructor struct types).build ∧
        ¬((fieldConstructor struct types).parameters.map Parameter.name).Nodup := by
  obtain ⟨hnames, hiff, hconstructors⟩ := memberName_eq_iff_parameterName_eq
  let text : TypeRef := { kind := .primitive, name := some "string" }
  let struct : Struct :=
    { name := "Twice", fields := [{ name := "a-b", type := text }, { name := "A_B", type := text }],
      encodings := .both }
  have hletters : ∀ field ∈ struct.fields, BeginsWithLetter field.name := by
    simp only [struct, List.forall_mem_cons]
    exact ⟨by decide +kernel, by decide +kernel, List.forall_mem_nil _⟩
  have hconstructor : mainConstructor "Demo" struct =
      .ok (fieldConstructor struct ["string", "string"]).build :=
    (mainConstructor_eq_ok_iff "Demo").mpr ⟨_, rfl, rfl⟩
  have hmembers : ¬(struct.fields.map fun field => memberName field.name).Nodup := by
    have hsame : memberName "a-b" = memberName "A_B" := by
      rw [memberName, memberName, pascalCase_eq_joined, pascalCase_eq_joined]
      decide +kernel
    simp [struct, hsame]
  obtain ⟨types, _, hbuild, _, _, hnodup⟩ := hconstructors "Demo" struct _ hletters hconstructor
  have hlock : parameterName "_lock" = "@lock" := by
    rw [parameterName, camelCase, pascalCase_eq_joined]
    decide +kernel
  exact ⟨hnames "_lock" (by decide +kernel), hlock, struct, types, rfl,
    hiff "a-b" "A_B" (by decide +kernel) (by decide +kernel),
    hconstructor.trans (congrArg _ hbuild), mt hnodup.mp hmembers⟩

end SliceRecords.Code
