import SliceRecords.Proofs.Code.JoinedWords
import SliceRecords.Proofs.Code.Members
import SliceRecords.Proofs.Code.OneLine
import SliceRecords.Proofs.Result
import SliceRecords.Proofs.Text.NormalLines

/-!
# The constructor from the values of all fields

The constructor takes one parameter and makes one assignment for each field, in declared order. A
parameter has a default value exactly if its field and all the fields behind it have one, so the
parameters with default values are the last ones. The block prints that method: its comments, a
header with the texts of the parameters, and a line for each assignment. Main statements:
`mainConstructor_eq` and `mainConstructor_isFieldwise`.
-/

namespace SliceRecords.Code

open Text

variable (namespaceName : String)

/-- The required fields are what is left in front of the longest final part of
fields with default values. -/
theorem exists_required_append (fields : List Field) :
    ∃ required optional, fields = required ++ optional ∧ required.length = requiredCount fields ∧
      (∀ field ∈ optional, field.hasDefault = true) ∧
      ∀ field ∈ required.getLast?, field.hasDefault = false := by
  obtain ⟨optional, hsplit, hoptional⟩ := exists_dropTrailing_append Field.hasDefault fields
  exact ⟨dropTrailing Field.hasDefault fields, optional, hsplit.symm, rfl, hoptional,
    fun _ => eq_false_of_mem_getLast?_dropTrailing⟩

/-- All fields from an index on have default values exactly if no required field is left there. -/
theorem requiredCount_le_iff {fields : List Field} {i : Nat} :
    requiredCount fields ≤ i ↔ ∀ field ∈ fields.drop i, field.hasDefault = true := by
  obtain ⟨required, optional, hfields, hlength, hoptional, hlast⟩ := exists_required_append fields
  rw [← hlength, hfields]
  constructor
  · intro hle field hfield
    rw [List.drop_append, List.drop_eq_nil_of_le hle, List.nil_append] at hfield
    exact hoptional field (List.drop_subset _ _ hfield)
  · intro hdefault
    by_contra hlt
    -- The last required field would be among the fields from the index on.
    have hne : required.drop i ≠ [] := by simpa using hlt
    obtain ⟨last, hmem⟩ := Option.isSome_iff_exists.mp (List.getLast?_isSome.mpr hne)
    have hrequired := hlast last (by rwa [List.getLast?_drop, if_neg hlt] at hmem)
    rw [List.drop_append_of_le_length (by omega)] at hdefault
    rw [hdefault last (List.mem_append_left _ (List.mem_of_getLast? hmem))] at hrequired
    cases hrequired

/-- The comment on a parameter, if there is documentation for it. -/
def parameterComments (name : String) (doc : Option String) : List CommentTag :=
  (docText? doc).toList.map fun text =>
    ⟨"param", text, some "name", some (trimStart (· == '@') name)⟩

/-- Adding a parameter adds it behind the others, and its comment behind the comments. -/
theorem Method.addParameter_eq (method : Method) (parameter : Parameter) (doc : Option String) :
    method.addParameter parameter doc =
      { method with
        preamble :=
          { method.preamble with
            comments := method.preamble.comments ++ parameterComments parameter.name doc }
        parameters := method.parameters ++ [parameter] } := by
  unfold addParameter parameterComments docText?
  cases doc with
  | none => simp
  | some text =>
    by_cases hempty : text.isEmpty = true <;> simp [hempty, Option.filter, Preamble.addComment]

/-- The parameters for fields with the texts of their types. A parameter takes the default value of
its field if all the fields behind that have one too. -/
def fieldParameters : List Field → List String → List Parameter
  | field :: rest, type :: types =>
    let value :=
      if (field :: rest).all Field.hasDefault then
        field.defaultValue.map (defaultLiteral field.type)
      else none
    ⟨type, parameterName field.name, value⟩ :: fieldParameters rest types
  | _, _ => []

/-- The texts of the types of fields. -/
def fieldTypes (fields : List Field) : Except RenderError (List String) :=
  fields.mapM fun field => typeText namespaceName field.type

/-- The constructor of a struct from the values of its fields, which have types with these texts. -/
def fieldConstructor (struct : Struct) (types : List String) : Method :=
  let identifier := memberName struct.name
  { access := "public"
    returnType := ""
    name := identifier
    preamble :=
      { comments :=
          summary s!"Constructs a new instance of <see cref=\"{identifier}\" />." ::
            struct.fields.flatMap fun field =>
              parameterComments (parameterName field.name) field.doc }
    parameters := fieldParameters struct.fields types
    body := Block.ofLines (struct.fields.map fieldAssignment) }

/-- Adding the parameters for fields adds one for each of them, in order, or fails as the first
type without a text does. -/
theorem addFieldParameters_eq {fields : List Field} {required index : Nat}
    (h : ∀ i, required ≤ index + i ↔ ∀ field ∈ fields.drop i, field.hasDefault = true)
    (method : Method) :
    addFieldParameters namespaceName required method index fields =
      (fun types =>
        { method with
          preamble :=
            { method.preamble with
              comments := method.preamble.comments ++
                fields.flatMap fun field => parameterComments (parameterName field.name) field.doc }
          parameters := method.parameters ++ fieldParameters fields types }) <$>
        fieldTypes namespaceName fields := by
  induction fields generalizing index method with
  | nil =>
    simp [addFieldParameters, fieldTypes, fieldParameters, Functor.map, Except.map, pure,
      Except.pure]
  | cons field rest ih =>
    have hrest : ∀ i, required ≤ index + 1 + i ↔ ∀ f ∈ rest.drop i, f.hasDefault = true := by
      intro i
      have hsucc := h (i + 1)
      rwa [List.drop_succ_cons, Nat.add_comm i 1, ← Nat.add_assoc] at hsucc
    have hall : decide (required ≤ index) = (field :: rest).all Field.hasDefault := by
      rw [Bool.eq_iff_iff, decide_eq_true_eq, List.all_eq_true]
      exact h 0
    rw [addFieldParameters, fieldParameter, hall, fieldTypes, List.mapM_cons]
    cases htype : typeText namespaceName field.type with
    | error error => rfl
    | ok type =>
      change addFieldParameters namespaceName required (method.addParameter _ _) (index + 1)
        rest = _
      rw [Method.addParameter_eq, ih hrest, fieldTypes]
      cases rest.mapM fun field => typeText namespaceName field.type with
      | error error => rfl
      | ok types =>
        simp [fieldParameters, Functor.map, Except.map, bind, Except.bind, pure, Except.pure]

/-- The constructor from the values of all fields is the one for the texts of their types, and there
is none if one of these types has no text. -/
theorem mainConstructor_eq (struct : Struct) :
    mainConstructor namespaceName struct = (fun types => (fieldConstructor struct types).build) <$>
      fieldTypes namespaceName struct.fields := by
  have hrequired : ∀ i, requiredCount struct.fields ≤ 0 + i ↔
      ∀ field ∈ struct.fields.drop i, field.hasDefault = true := by
    intro i
    rw [Nat.zero_add, requiredCount_le_iff]
  unfold mainConstructor
  extract_lets identifier constructor
  rw [addFieldParameters_eq namespaceName hrequired]
  cases fieldTypes namespaceName struct.fields with
  | error error => rfl
  | ok types => rfl

/-- So a block is that constructor exactly if it is built for the texts of the types. -/
theorem mainConstructor_eq_ok_iff {struct : Struct} {block : Block} :
    mainConstructor namespaceName struct = .ok block ↔
      ∃ types, fieldTypes namespaceName struct.fields = .ok types ∧
        (fieldConstructor struct types).build = block := by
  rw [mainConstructor_eq, Result.map_eq_ok_iff]

section Parameters

variable {fields : List Field} {types : List String}

/-- The parameters have the types of the fields, in order. -/
theorem map_type_fieldParameters (h : fields.length = types.length) :
    (fieldParameters fields types).map Parameter.type = types := by
  induction fields generalizing types with
  | nil =>
    rw [List.length_eq_zero_iff.mp h.symm]
    rfl
  | cons field rest ih =>
    obtain ⟨type, others, rfl⟩ := List.exists_cons_of_length_eq_add_one h.symm
    rw [fieldParameters, List.map_cons, ih (Nat.succ.inj h)]

/-- The parameters have the names for the fields, in order. -/
theorem map_name_fieldParameters (h : fields.length = types.length) :
    (fieldParameters fields types).map Parameter.name =
      fields.map fun field => parameterName field.name := by
  induction fields generalizing types with
  | nil => rfl
  | cons field rest ih =>
    obtain ⟨type, others, rfl⟩ := List.exists_cons_of_length_eq_add_one h.symm
    rw [fieldParameters, List.map_cons, List.map_cons, ih (Nat.succ.inj h)]

/-- The parameter of a field has a default value exactly if the field and all fields behind it have
one, and then it is the one of the field. -/
theorem defaultValue_of_getElem?_fieldParameters {i : Nat} {parameter : Parameter}
    (h : (fieldParameters fields types)[i]? = some parameter) :
    (parameter.defaultValue.isSome = true ↔ ∀ field ∈ fields.drop i, field.hasDefault = true) ∧
      ∀ text, parameter.defaultValue = some text → ∃ field value, fields[i]? = some field ∧
        field.defaultValue = some value ∧ text = defaultLiteral field.type value := by
  induction fields generalizing types i with
  | nil => cases h
  | cons field rest ih =>
    cases types with
    | nil => cases h
    | cons type types =>
      rw [fieldParameters] at h
      cases i with
      | succ i => exact ih h
      | zero =>
        obtain rfl := Option.some.inj h
        constructor
        · rw [List.drop_zero, ← List.all_eq_true]
          split
          · rename_i hall
            rw [Option.isSome_map]
            exact iff_of_true (List.all_eq_true.mp hall field List.mem_cons_self) hall
          · rename_i hall
            exact iff_of_false Bool.false_ne_true hall
        · intro text htext
          split at htext
          · obtain ⟨value, hvalue, rfl⟩ := Option.map_eq_some_iff.mp htext
            exact ⟨field, value, rfl, hvalue, rfl⟩
          · cases htext

end Parameters

/-- A method that takes the values of fields, which have types with these texts, and gives them to
the members for the fields. -/
structure IsFieldwise (fields : List Field) (types : List String) (method : Method) : Prop where
  map_type : method.parameters.map Parameter.type = types
  map_name : method.parameters.map Parameter.name = fields.map fun field => parameterName field.name
  body : method.body = Block.ofLines
    (fields.map fun field => s!"this.{memberName field.name} = {parameterName field.name};")
  /-- A parameter has a default value exactly if its field and all fields behind it have one. -/
  default_iff : ∀ (i : Nat) (parameter : Parameter), method.parameters[i]? = some parameter →
    (parameter.defaultValue.isSome = true ↔ ∀ field ∈ fields.drop i, field.hasDefault = true)
  /-- The default value of a parameter is that of its field. -/
  value : ∀ (i : Nat) (parameter : Parameter) (text : String),
      method.parameters[i]? = some parameter →
      parameter.defaultValue = some text →
      ∃ field value, fields[i]? = some field ∧ field.defaultValue = some value ∧
        text = defaultLiteral field.type value
  /-- The parameters with default values are those of the longest final part of
  fields with default values. -/
  longest : ∃ required optional, fields = required ++ optional ∧
    (∀ field ∈ optional, field.hasDefault = true) ∧
    (∀ field ∈ required.getLast?, field.hasDefault = false) ∧
    ∀ (i : Nat) (parameter : Parameter), method.parameters[i]? = some parameter →
      (parameter.defaultValue.isSome = true ↔ required.length ≤ i)
  /-- No parameter without a default value is behind one that has one. -/
  trailing : method.parameters.Pairwise fun front behind =>
    front.defaultValue.isSome = true → behind.defaultValue.isSome = true

/-- The constructor for the texts of the types of all fields takes and gives away their values. -/
theorem isFieldwise_fieldConstructor {struct : Struct} {types : List String}
    (h : struct.fields.length = types.length) :
    IsFieldwise struct.fields types (fieldConstructor struct types) := by
  have hdefault : ∀ i parameter, (fieldParameters struct.fields types)[i]? = some parameter →
        (parameter.defaultValue.isSome = true ↔
         ∀ field ∈ struct.fields.drop i, field.hasDefault = true) :=
    fun i parameter hparameter => (defaultValue_of_getElem?_fieldParameters hparameter).1
  constructor
  · exact map_type_fieldParameters h
  · exact map_name_fieldParameters h
  · rfl
  · exact hdefault
  · exact fun i parameter text hparameter =>
      (defaultValue_of_getElem?_fieldParameters hparameter).2 text
  · obtain ⟨required, optional, hfields, hlength, hoptional, hlast⟩ :=
      exists_required_append struct.fields
    refine ⟨required, optional, hfields, hoptional, hlast, fun i parameter hparameter => ?_⟩
    rw [hdefault i parameter hparameter, hlength, requiredCount_le_iff]
  · rw [List.pairwise_iff_getElem]
    intro i j hi hj hlt hsome
    rw [hdefault i _ (List.getElem?_eq_getElem hi)] at hsome
    rw [hdefault j _ (List.getElem?_eq_getElem hj)]
    exact fun field hfield => hsome field (List.drop_subset_drop_left _ hlt.le hfield)

/-- An assignment by its parts. -/
theorem fieldAssignment_eq (field : Field) : fieldAssignment field =
    "this." ++ memberName field.name ++ " = " ++ parameterName field.name ++ ";" := rfl

/-- An assignment ends with its semicolon. -/
theorem endsVisibly_fieldAssignment (field : Field) :
    endsVisibly (fieldAssignment field) = true := by
  rw [fieldAssignment_eq]
  exact endsVisibly_append (by decide) _

/-- The assignments of a constructor begin and end with visible characters. -/
theorem bounded_fieldAssignments {fields : List Field} (h : fields ≠ []) :
    Block.Bounded "this." (fields.map fieldAssignment) := by
  constructor
  · obtain ⟨field, rest, rfl⟩ := List.exists_cons_of_ne_nil h
    refine ⟨fieldAssignment field, rfl, ?_⟩
    have hopens : "this.".toList <+: ("this." ++ memberName field.name).toList :=
      isPrefix_append List.prefix_rfl _
    rw [fieldAssignment_eq]
    exact isPrefix_append (isPrefix_append (isPrefix_append hopens _) _) _
  · refine ⟨fieldAssignment (fields.getLast h), ?_, endsVisibly_fieldAssignment _⟩
    rw [List.getLast?_map, List.getLast?_eq_some_getLast h]
    rfl

/-- The body of a constructor has the clean lines of its assignments. -/
theorem normalLines_fieldAssignments (fields : List Field) :
    Block.normalLines (Block.ofLines (fields.map fieldAssignment)).content =
      Block.cleanLines (fields.map fieldAssignment) := by
  apply Block.normalLines_ofLines
  by_cases hnil : fields = []
  · rw [hnil]
    exact isNormal_nil
  · exact (bounded_fieldAssignments hnil).isNormal_cleanLines (by decide)

/-- An assignment between names on one line is a line, which stands one level further in. -/
theorem indentLine_fieldAssignment {field : Field} (hmember : IsOneLine (memberName field.name))
    (hparameter : IsOneLine (parameterName field.name)) :
    (Block.cleanLines [fieldAssignment field]).map Block.indentLine =
      [s!"    this.{memberName field.name} = {parameterName field.name};"] := by
  have hbreak : IsOneLine (fieldAssignment field) := by
    rw [fieldAssignment_eq]
    exact (((IsOneLine.append (by decide) hmember).append (by decide)).append hparameter).append
      (by decide)
  have hvisible : isBlankText (fieldAssignment field) = false := by
    rw [fieldAssignment_eq, isBlankText]
    simp [isBlank]
  rw [Block.cleanLines_line (isOpeningText_iff.mpr ⟨endsVisibly_fieldAssignment field, hbreak⟩),
    List.map_singleton, Block.indentLine, if_neg (Bool.eq_false_iff.mp hvisible),
    fieldAssignment_eq]
  rfl

/-- So each assignment is a line of its own. -/
theorem map_indentLine_fieldAssignments {fields : List Field}
    (h : ∀ field ∈ fields,
        IsOneLine (memberName field.name) ∧ IsOneLine (parameterName field.name)) :
    (Block.cleanLines (fields.map fieldAssignment)).map Block.indentLine = fields.map fun field =>
      s!"    this.{memberName field.name} = {parameterName field.name};" := by
  induction fields with
  | nil => rfl
  | cons field rest ih =>
    obtain ⟨hfield, hrest⟩ := List.forall_mem_cons.mp h
    rw [List.map_cons, Block.cleanLines_cons, List.map_append,
      indentLine_fieldAssignment hfield.1 hfield.2, ih hrest]
    rfl

/-- The header of a constructor: its access and name, and its parameters between parentheses. -/
theorem header_fieldConstructor (struct : Struct) (types : List String) :
    (fieldConstructor struct types).header =
      (if (memberName struct.name).isEmpty then "public"
        else "public " ++ memberName struct.name) ++
      "(" ++ ", ".intercalate ((fieldConstructor struct types).parameters.map Parameter.text) ++
      ")" := by
  unfold Method.header fieldConstructor
  by_cases hname : (memberName struct.name).isEmpty = true
  · simp [hname]
    rfl
  · simp [hname]
    rfl

/-- What prints a constructor from the values of the fields of a struct: its comments, a header with
the texts of its parameters, and between braces its assignments. -/
structure PrintsFieldwise (struct : Struct) (constructor : Method) (block : Block) : Prop where
  lines : lines block.text =
    Block.cleanLines (constructor.preamble.comments.map CommentTag.text) ++
      Block.cleanLines [constructor.header] ++
        armLines (Block.cleanLines (struct.fields.map fieldAssignment))
  header : constructor.header =
    (if (memberName struct.name).isEmpty then "public" else "public " ++ memberName struct.name) ++
      "(" ++ ", ".intercalate (constructor.parameters.map Parameter.text) ++ ")"
  /-- A header without line feeds is a line. -/
  header_line : IsOneLine constructor.header →
    Block.cleanLines [constructor.header] = [constructor.header]
  /-- So is an assignment between such names, one level further in. -/
  assignments :
    (∀ field ∈ struct.fields,
      IsOneLine (memberName field.name) ∧ IsOneLine (parameterName field.name)) →
    armLines (Block.cleanLines (struct.fields.map fieldAssignment)) =
      "\x7b" :: struct.fields.map (fun field =>
        s!"    this.{memberName field.name} = {parameterName field.name};") ++ ["\x7d"]

/-- Building the constructor of a struct prints it. -/
theorem printsFieldwise_build (struct : Struct) (types : List String) :
    PrintsFieldwise struct (fieldConstructor struct types)
      (fieldConstructor struct types).build := by
  have hlines := (fieldConstructor struct types).lines_text_build (List.cons_ne_nil _ _)
  have hassignments := normalLines_fieldAssignments struct.fields
  constructor
  · rw [hlines, ← hassignments, Preamble.pieces]
    simp [fieldConstructor]
  · exact header_fieldConstructor struct types
  · intro hline
    have hend : endsVisibly (fieldConstructor struct types).header = true := by
      rw [header_fieldConstructor]
      exact endsVisibly_append (by decide) _
    exact Block.cleanLines_line (isOpeningText_iff.mpr ⟨hend, hline⟩)
  · intro hnames
    rw [armLines, map_indentLine_fieldAssignments hnames]

/-- There is a constructor from the values of all fields exactly if their types have texts, and it
takes one parameter and makes one assignment for each field, in declared order. A parameter has a
default value exactly if its field and all the fields behind it have one: these are the longest
final part of the fields that has default values, and no parameter without one is behind one that
has one. The block prints this constructor: its comments, a header with the texts of the parameters,
and a line for each assignment. -/
theorem mainConstructor_isFieldwise (struct : Struct) :
    ((∃ block, mainConstructor namespaceName struct = .ok block) ↔
      ∀ field ∈ struct.fields, ∃ text, typeText namespaceName field.type = .ok text) ∧
    ∀ block, mainConstructor namespaceName struct = .ok block →
      ∃ types, fieldTypes namespaceName struct.fields = .ok types ∧
        block = (fieldConstructor struct types).build ∧
        IsFieldwise struct.fields types (fieldConstructor struct types) ∧
        PrintsFieldwise struct (fieldConstructor struct types) block := by
  constructor
  · rw [← Result.exists_mapM_eq_ok_iff]
    constructor
    · rintro ⟨block, hblock⟩
      obtain ⟨types, htypes, _⟩ := (mainConstructor_eq_ok_iff namespaceName).mp hblock
      exact ⟨types, htypes⟩
    · rintro ⟨types, htypes⟩
      exact ⟨_, (mainConstructor_eq_ok_iff namespaceName).mpr ⟨types, htypes, rfl⟩⟩
  · intro block hblock
    obtain ⟨types, htypes, rfl⟩ := (mainConstructor_eq_ok_iff namespaceName).mp hblock
    have hlength := (Result.mapM_eq_ok_iff.mp htypes).length_eq
    exact ⟨types, htypes, rfl, isFieldwise_fieldConstructor hlength,
      printsFieldwise_build struct types⟩

/-- A default value in front of a required field is left out, and a tagged field with one is among
the last ones. The header shows the others. -/
theorem mainConstructor_isFieldwise_trailing :
    ∃ (struct : Struct) (block : Block) (types : List String),
      struct.fields.map Field.hasDefault = [true, false, true, true] ∧
      struct.fields.map Field.isTagged = [false, false, true, false] ∧
      mainConstructor "Demo" struct = .ok block ∧ block = (fieldConstructor struct types).build ∧
      IsFieldwise struct.fields types (fieldConstructor struct types) ∧
      (fieldConstructor struct types).parameters.map Parameter.defaultValue =
        [none, none, some "5", some "true"] ∧
      lines block.text =
        ["/// <summary>Constructs a new instance of <see cref=\"Settings\" />.</summary>",
          "public Settings(int a, string b, int? c = 5, bool d = true)", "\x7b", "    this.A = a;",
          "    this.B = b;", "    this.C = c;", "    this.D = d;", "\x7d"] := by
  let struct : Struct :=
    { name := "Settings"
      fields :=
        [{ name := "a"
           type := { kind := .primitive, name := some "int32" }
           defaultValue := some (.number (.integer 1)) },
          { name := "b", type := { kind := .primitive, name := some "string" } },
          { name := "c"
            type := { kind := .primitive, name := some "int32", optional := true }
            tag := some (.integer 3)
            defaultValue := some (.number (.integer 5))
            optional_of_tag := fun _ => rfl },
          { name := "d"
            type := { kind := .primitive, name := some "bool" }
            defaultValue := some (.bool true) }]
      encodings := .both }
  have htypes : fieldTypes "Demo" struct.fields = .ok ["int", "string", "int?", "bool"] := by rfl
  have hparameters :
      (fieldParameters struct.fields ["int", "string", "int?", "bool"]).map Parameter.defaultValue =
        [none, none, some "5", some "true"] := by
    decide +kernel
  obtain ⟨hexists, hfieldwise⟩ := mainConstructor_isFieldwise "Demo" struct
  obtain ⟨block, hblock⟩ := hexists.mpr (Result.exists_mapM_eq_ok_iff.mp ⟨_, htypes⟩)
  obtain ⟨types, hsame, hbuild, hmethod, hprints⟩ := hfieldwise block hblock
  obtain rfl := Except.ok.inj (htypes.symm.trans hsame)
  have hnames : ∀ field ∈ struct.fields,
      IsOneLine (memberName field.name) ∧ IsOneLine (parameterName field.name) := by
    have hbreak : ∀ field ∈ struct.fields, IsOneLine field.name := by decide
    exact fun field hfield =>
      ⟨isOneLine_memberName (hbreak field hfield), isOneLine_parameterName (hbreak field hfield)⟩
  have hassignments : (struct.fields.map fun field =>
      s!"    this.{memberName field.name} = {parameterName field.name};") =
        ["    this.A = a;", "    this.B = b;", "    this.C = c;", "    this.D = d;"] := by
    simp only [struct, List.map_cons, List.map_nil, memberName, parameterName, camelCase,
      pascalCase_eq_joined]
    decide +kernel
  have hcomments : Block.cleanLines
      ((fieldConstructor struct ["int", "string", "int?", "bool"]).preamble.comments.map
        CommentTag.text) =
        ["/// <summary>Constructs a new instance of <see cref=\"Settings\" />.</summary>"] := by
    simp only [fieldConstructor, struct, memberName, pascalCase_eq_joined]
    decide +kernel
  have hheader : (fieldConstructor struct ["int", "string", "int?", "bool"]).header =
      "public Settings(int a, string b, int? c = 5, bool d = true)" := by
    rw [hprints.header]
    simp only [fieldConstructor, struct, fieldParameters, memberName, parameterName, camelCase,
      pascalCase_eq_joined]
    decide +kernel
  have htext : lines block.text = _ := hprints.lines
  rw [hprints.assignments hnames, hprints.header_line (hheader ▸ by decide +kernel), hassignments,
    hcomments, hheader] at htext
  exact ⟨struct, block, _, rfl, rfl, hblock, hbuild, hmethod, hparameters, htext⟩

end SliceRecords.Code
