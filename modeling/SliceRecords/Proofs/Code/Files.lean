import Mathlib.Data.List.Nodup
import SliceRecords.Proofs.Code.Declarations

/-!
# Files and namespaces

A file holds the bodies of the modules of its name, in order, below one declaration of a namespace.
A file is named after its namespace, so modules of one file have one namespace, except where the
name that stands for no namespace is that of a namespace too. Main statement: `keepsNamespaces_iff`.
-/

namespace SliceRecords.Code

/-- A file that declares a namespace, or none if it is empty, and holds bodies of modules. -/
def fileText (namespaceName : String) (bodies : List String) : String :=
  let namespaceLines := if namespaceName.isEmpty then [] else [s!"namespace {namespaceName};\n"]
  Text.unlines ([fileHeader] ++ namespaceLines ++ bodies)

/-- The modules that go to the file of a name. -/
def modulesOf (model : Model) (outputName : Option String) (name : String) : List Module :=
  model.modules.filter fun module => fileName outputName model.modules.length module = name

/-- Every file holds the bodies of the modules of its name, and these have the namespace
that the file declares. -/
def KeepsNamespaces (model : Model) (outputName : Option String) (files : Files) : Prop :=
  ∀ file ∈ files, ∃ declared bodies,
      (modulesOf model outputName file.1).mapM moduleBody = .ok bodies ∧
      file.2 = fileText declared bodies ∧
      ∀ module ∈ modulesOf model outputName file.1, namespaceOf module.name = declared

/-- A body is added to a file at its end. -/
theorem fileText_concat (namespaceName : String) (bodies : List String) (body : String) :
    fileText namespaceName (bodies ++ [body]) = fileText namespaceName bodies ++ "\n" ++ body := by
  simp only [fileText, Text.unlines, ← List.append_assoc]
  rw [String.intercalate_append_of_ne_nil (by simp) (by simp), String.intercalate_singleton]

/-- A file begins with a module: it declares its namespace and holds its body. -/
theorem moduleFile_eq_ok_iff {module : Module} {content : String} :
    moduleFile module = .ok content ↔
    ∃ body, moduleBody module = .ok body ∧ content = fileText (namespaceOf module.name) [body] := by
  simp only [moduleFile, Result.bind_eq_ok_iff, Result.pure_eq_ok_iff, eq_comm (b := content)]
  rfl

/-- A text is the file of a list of modules: it declares the namespace of the first one and
holds the bodies of all. -/
def IsFileOf (content : String) (modules : List Module) : Prop :=
  ∃ first rest bodies, modules = first :: rest ∧ modules.mapM moduleBody = .ok bodies ∧
    content = fileText (namespaceOf first.name) bodies

/-- A file that a module begins is the file of that module alone. -/
theorem isFileOf_of_moduleFile {module : Module} {content : String}
    (h : moduleFile module = .ok content) : IsFileOf content [module] := by
  obtain ⟨body, hbody, rfl⟩ := moduleFile_eq_ok_iff.mp h
  have hbodies : [module].mapM moduleBody = .ok [body] :=
    Result.mapM_eq_ok_iff.mpr (.cons hbody .nil)
  exact ⟨module, [], [body], rfl, hbodies, rfl⟩

/-- A file with one more body is the file with one more module. -/
theorem IsFileOf.concat {content : String} {modules : List Module} (h : IsFileOf content modules)
    {module : Module} {body : String} (hbody : moduleBody module = .ok body) :
    IsFileOf (content ++ "\n" ++ body) (modules ++ [module]) := by
  obtain ⟨first, rest, bodies, rfl, hbodies, rfl⟩ := h
  have hall : (first :: rest ++ [module]).mapM moduleBody = .ok (bodies ++ [body]) := by
    rw [Result.mapM_eq_ok_iff] at hbodies ⊢
    exact List.rel_append hbodies (.cons hbody .nil)
  exact ⟨first, rest ++ [module], bodies ++ [body], rfl, hall, (fileText_concat _ _ _).symm⟩

/-- A module is added to the end of the file of its name, if there is one, and else as a
file behind the others. -/
theorem addModule_cases {files next : Files} {name : String} {module : Module}
    (h : addModule files name module = .ok next) :
    (∃ front content rest body, files = front ++ (name, content) :: rest ∧
        moduleBody module = .ok body ∧ next = front ++ (name, content ++ "\n" ++ body) :: rest) ∨
      (name ∉ files.map Prod.fst ∧ ∃ content, moduleFile module = .ok content ∧
        next = files ++ [(name, content)]) := by
  induction files generalizing next with
  | nil =>
    simp only [addModule, Result.bind_eq_ok_iff, Result.pure_eq_ok_iff] at h
    obtain ⟨content, hcontent, rfl⟩ := h
    exact .inr ⟨List.not_mem_nil, content, hcontent, rfl⟩
  | cons file files ih =>
    obtain ⟨other, content⟩ := file
    rw [addModule] at h
    split at h
    · rename_i hother
      simp only [Result.bind_eq_ok_iff, Result.pure_eq_ok_iff] at h
      obtain ⟨body, hbody, rfl⟩ := h
      exact .inl ⟨[], content, files, body, by rw [hother]; rfl, hbody, by rw [hother]; rfl⟩
    · rename_i hother
      simp only [Result.bind_eq_ok_iff, Result.pure_eq_ok_iff] at h
      obtain ⟨last, hlast, rfl⟩ := h
      rcases ih hlast with ⟨front, old, rest, body, rfl, hbody, rfl⟩ | ⟨hnew, begun, hbegun, rfl⟩
      · exact .inl ⟨(other, content) :: front, old, rest, body, rfl, hbody, rfl⟩
      · refine .inr ⟨?_, begun, hbegun, rfl⟩
        simp [Ne.symm hother, hnew]

/-- Files hold modules by name: each name has one file, which is the file of the
modules of this name. -/
structure HoldByName (nameOf : Module → String) (modules : List Module) (files : Files) : Prop where
  nodup : (files.map Prod.fst).Nodup
  mem_iff : ∀ name, name ∈ files.map Prod.fst ↔ ∃ module ∈ modules, nameOf module = name
  isFileOf : ∀ file ∈ files, IsFileOf file.2 (modules.filter fun module => nameOf module = file.1)

section Step

variable {nameOf : Module → String} {modules : List Module} {files : Files} {module : Module}

/-- A module of another name adds nothing to the modules of a name. -/
theorem filter_concat_of_ne {name : String} (h : nameOf module ≠ name) :
    (modules ++ [module]).filter (fun m => nameOf m = name) =
      modules.filter fun m => nameOf m = name := by
  simp [h]

/-- A module comes last among the modules of its name. -/
theorem filter_concat_self :
    (modules ++ [module]).filter (fun m => nameOf m = nameOf module) =
      modules.filter (fun m => nameOf m = nameOf module) ++ [module] := by
  simp

/-- A file of another name holds what it held before. -/
theorem HoldByName.isFileOf_concat_of_ne (h : HoldByName nameOf modules files)
    {file : String × String} (hfile : file ∈ files) (hname : nameOf module ≠ file.1) :
    IsFileOf file.2 ((modules ++ [module]).filter fun m => nameOf m = file.1) := by
  rw [filter_concat_of_ne hname]
  exact h.isFileOf file hfile

/-- A module that goes to the end of the file of its name keeps files by name. -/
theorem HoldByName.extend {front rest : Files} {content body : String}
    (h : HoldByName nameOf modules (front ++ (nameOf module, content) :: rest))
    (hbody : moduleBody module = .ok body) :
    HoldByName nameOf (modules ++ [module])
      (front ++ (nameOf module, content ++ "\n" ++ body) :: rest) := by
  have hnames : (front ++ (nameOf module, content ++ "\n" ++ body) :: rest).map Prod.fst =
      (front ++ (nameOf module, content) :: rest).map Prod.fst := by simp
  have hown : nameOf module ∈ (front ++ (nameOf module, content) :: rest).map Prod.fst := by simp
  have hnodup := h.nodup
  rw [List.map_append, List.map_cons, List.nodup_middle, ← List.map_append,
    List.nodup_cons] at hnodup
  have hother {file : String × String} (hfile : file ∈ front ++ rest) : nameOf module ≠ file.1 :=
    fun heq => hnodup.1 (List.mem_map.mpr ⟨file, hfile, heq.symm⟩)
  constructor
  · rw [hnames]
    exact h.nodup
  · intro name
    rw [hnames, h.mem_iff]
    constructor
    · rintro ⟨m, hm, rfl⟩
      exact ⟨m, List.mem_append_left [module] hm, rfl⟩
    · rintro ⟨m, hm, rfl⟩
      rcases List.mem_append.mp hm with hm | hm
      · exact ⟨m, hm, rfl⟩
      · rw [List.mem_singleton.mp hm]
        exact (h.mem_iff _).mp hown
  · intro file hfile
    rcases List.mem_append.mp hfile with hfront | hrest
    · exact h.isFileOf_concat_of_ne (List.mem_append_left _ hfront)
        (hother (List.mem_append_left rest hfront))
    rcases List.mem_cons.mp hrest with rfl | hrest
    · rw [filter_concat_self]
      exact (h.isFileOf (nameOf module, content) (by simp)).concat hbody
    · exact h.isFileOf_concat_of_ne (List.mem_append_right _ (List.mem_cons_of_mem _ hrest))
        (hother (List.mem_append_right front hrest))

/-- A module that begins a file keeps files by name. -/
theorem HoldByName.begin {content : String} (h : HoldByName nameOf modules files)
    (hnew : nameOf module ∉ files.map Prod.fst) (hcontent : moduleFile module = .ok content) :
    HoldByName nameOf (modules ++ [module]) (files ++ [(nameOf module, content)]) := by
  have hnone : modules.filter (fun m => nameOf m = nameOf module) = [] := by
    rw [List.filter_eq_nil_iff]
    intro m hm heq
    exact hnew ((h.mem_iff _).mpr ⟨m, hm, by simpa using heq⟩)
  constructor
  · rw [List.map_append, List.map_singleton, List.nodup_append_comm]
    exact List.nodup_cons.mpr ⟨hnew, h.nodup⟩
  · intro name
    have hlast : (∃ m ∈ [module], nameOf m = name) ↔ name = nameOf module := by
      simp [eq_comm]
    simp only [List.map_append, List.mem_append, h.mem_iff, or_and_right, exists_or, hlast]
    simp
  · intro file hfile
    rcases List.mem_append.mp hfile with hold | hlast
    · exact h.isFileOf_concat_of_ne hold fun heq => hnew (List.mem_map.mpr ⟨file, hold, heq.symm⟩)
    · rw [List.mem_singleton.mp hlast, filter_concat_self, hnone]
      exact isFileOf_of_moduleFile hcontent

/-- Adding a module keeps files by name. -/
theorem HoldByName.addModule {next : Files} (h : HoldByName nameOf modules files)
    (hnext : Code.addModule files (nameOf module) module = .ok next) :
    HoldByName nameOf (modules ++ [module]) next := by
  rcases addModule_cases hnext
    with ⟨front, content, rest, body, rfl, hbody, rfl⟩ | ⟨hnew, content, hcontent, rfl⟩
  · exact h.extend hbody
  · exact h.begin hnew hcontent

end Step

/-- Adding modules one after the other keeps files by name. -/
theorem HoldByName.foldlM {nameOf : Module → String} {modules : List Module} {files last : Files}
    (h : HoldByName nameOf modules files) {more : List Module}
    (hlast : more.foldlM (fun files module => Code.addModule files (nameOf module) module) files =
      .ok last) : HoldByName nameOf (modules ++ more) last := by
  induction more generalizing modules files with
  | nil =>
    rw [List.foldlM_nil, Result.pure_eq_ok_iff] at hlast
    subst hlast
    rwa [List.append_nil]
  | cons module more ih =>
    rw [List.foldlM_cons, Result.bind_eq_ok_iff] at hlast
    obtain ⟨next, hnext, hlast⟩ := hlast
    rw [List.append_cons]
    exact ih (h.addModule hnext) hlast

/-- The files of a model hold its modules by the names of their files. -/
theorem holdByName_of_generate {model : Model} {outputName : Option String} {files : Files}
    (h : generate model outputName = .ok files) :
    HoldByName (fileName outputName model.modules.length) model.modules files := by
  have hempty : HoldByName (fileName outputName model.modules.length) [] [] :=
    ⟨List.nodup_nil, by simp, by simp⟩
  exact hempty.foldlM h

/-- The name that the file of the modules outside of any namespace goes by. -/
def globalBase : String := "Global"

/-- Default names of files agree for one namespace, and for no namespace and the one that is called
like the file of no namespace. -/
theorem defaultFileBase_eq_iff {a b : Module} :
    defaultFileBase a = defaultFileBase b ↔
      namespaceOf a.name = namespaceOf b.name ∨
        (namespaceOf a.name = "" ∧ namespaceOf b.name = globalBase) ∨
        (namespaceOf a.name = globalBase ∧ namespaceOf b.name = "") := by
  simp only [defaultFileBase, String.isEmpty_iff, globalBase]
  by_cases ha : namespaceOf a.name = "" <;> by_cases hb : namespaceOf b.name = ""
  · simp [ha, hb]
  · have hempty : ¬"" = namespaceOf b.name := Ne.symm hb
    simp only [ha, hb, hempty, if_true, if_false, false_or, true_and, and_false, or_false]
    exact eq_comm
  · simp [ha, hb]
  · simp [ha, hb]

/-- In a model of several modules a file has the default name. -/
theorem fileName_of_ne_one {outputName : Option String} {count : Nat} (h : count ≠ 1)
    (module : Module) : fileName outputName count module = defaultFileBase module ++ ".cs" := by
  unfold fileName
  cases outputName <;> simp [h]

/-- Modules of different namespaces are not the only module of a list. -/
theorem length_ne_one_of_namespaceOf_ne {modules : List Module} {a b : Module} (ha : a ∈ modules)
    (hb : b ∈ modules) (hne : namespaceOf a.name ≠ namespaceOf b.name) : modules.length ≠ 1 := by
  intro hone
  obtain ⟨only, rfl⟩ := List.length_eq_one_iff.mp hone
  rw [List.mem_singleton] at ha hb
  exact hne (by rw [ha, hb])

/-- The modules of a file are those of the model that go by its name. -/
theorem mem_modulesOf_iff {model : Model} {outputName : Option String} {name : String}
    {module : Module} :
    module ∈ modulesOf model outputName name ↔
    module ∈ model.modules ∧ fileName outputName model.modules.length module = name := by
  simp [modulesOf]

section Generate

variable {model : Model} {outputName : Option String} {files : Files}

/-- A module outside of any namespace and one of the namespace that is called like the file of
the former share a file. -/
theorem not_keepsNamespaces_of_global (h : generate model outputName = .ok files) {a b : Module}
    (ha : a ∈ model.modules) (hb : b ∈ model.modules) (hempty : namespaceOf a.name = "")
    (hglobal : namespaceOf b.name = globalBase) : ¬KeepsNamespaces model outputName files := by
  intro hkeeps
  have hne : namespaceOf a.name ≠ namespaceOf b.name := by
    rw [hempty, hglobal]
    decide
  have hcount := length_ne_one_of_namespaceOf_ne ha hb hne
  have hshared : fileName outputName model.modules.length b =
      fileName outputName model.modules.length a := by
    rw [fileName_of_ne_one hcount, fileName_of_ne_one hcount,
      defaultFileBase_eq_iff.mpr (.inr (.inr ⟨hglobal, hempty⟩))]
  have hbegun := ((holdByName_of_generate h).mem_iff _).mpr ⟨a, ha, rfl⟩
  obtain ⟨file, hfile, hname⟩ := List.mem_map.mp hbegun
  obtain ⟨declared, _, _, _, hdeclared⟩ := hkeeps file hfile
  have hdeclaredA := hdeclared a (mem_modulesOf_iff.mpr ⟨ha, hname.symm⟩)
  have hdeclaredB := hdeclared b (mem_modulesOf_iff.mpr ⟨hb, hshared.trans hname.symm⟩)
  exact hne (hdeclaredA.trans hdeclaredB.symm)

/-- Modules of one file have one namespace, unless one of them is outside of any namespace and the
other one is of the namespace that is called like the file of the former. -/
theorem namespaceOf_eq_of_fileName_eq {a b : Module} (ha : a ∈ model.modules)
    (hb : b ∈ model.modules)
    (hname :
      fileName outputName model.modules.length a = fileName outputName model.modules.length b) :
    namespaceOf a.name = namespaceOf b.name ∨
    (namespaceOf a.name = "" ∧ namespaceOf b.name = globalBase) ∨
    (namespaceOf a.name = globalBase ∧ namespaceOf b.name = "") := by
  by_cases heq : namespaceOf a.name = namespaceOf b.name
  · exact .inl heq
  · have hcount := length_ne_one_of_namespaceOf_ne ha hb heq
    rw [fileName_of_ne_one hcount, fileName_of_ne_one hcount] at hname
    exact defaultFileBase_eq_iff.mp (String.append_left_inj ".cs" |>.mp hname)

/-- Every module of a model goes to a file. The files hold modules of one namespace each, the one
that the file declares, exactly if the model has not both a module outside of any namespace and one
of the namespace that is called like the file of the former. -/
theorem keepsNamespaces_iff (h : generate model outputName = .ok files) :
    (∀ module ∈ model.modules,
       fileName outputName model.modules.length module ∈ files.map Prod.fst) ∧
    (KeepsNamespaces model outputName files ↔
     ¬∃ a ∈ model.modules, ∃ b ∈ model.modules,
       namespaceOf a.name = "" ∧ namespaceOf b.name = globalBase) := by
  refine ⟨fun module hmodule => ((holdByName_of_generate h).mem_iff _).mpr ⟨module, hmodule, rfl⟩,
    ?_⟩
  constructor
  · rintro hkeeps ⟨a, ha, b, hb, hempty, hglobal⟩
    exact not_keepsNamespaces_of_global h ha hb hempty hglobal hkeeps
  · intro hfree file hfile
    -- A file declares the namespace of its first module; its other modules share the name of the
    -- file with it.
    obtain ⟨first, rest, bodies, hmodules, hbodies, hcontent⟩ :=
      (holdByName_of_generate h).isFileOf file hfile
    have hfirst : first ∈ modulesOf model outputName file.1 := by
      rw [modulesOf, hmodules]
      exact List.mem_cons_self
    obtain ⟨hfirstMem, hfirstName⟩ := mem_modulesOf_iff.mp hfirst
    refine ⟨namespaceOf first.name, bodies, hbodies, hcontent, ?_⟩
    intro module hmodule
    obtain ⟨hmem, hname⟩ := mem_modulesOf_iff.mp hmodule
    rcases namespaceOf_eq_of_fileName_eq hmem hfirstMem (hname.trans hfirstName.symm) with
      heq | ⟨hempty, hglobal⟩ | ⟨hglobal, hempty⟩
    · exact heq
    · exact absurd ⟨module, hmem, first, hfirstMem, hempty, hglobal⟩ hfree
    · exact absurd ⟨first, hfirstMem, module, hmem, hempty, hglobal⟩ hfree

end Generate

/-- A struct with one field, in a module. -/
def pointOf (path : String) : Module :=
  let x : Field := { name := "x", type := { kind := .primitive, name := some "int32" } }
  { name := path, structs := [{ name := "Point", fields := [x], encodings := .both }] }

/-- Modules with one struct of two numbers have files. -/
theorem exists_generate_pointOf (paths : List String) :
    ∃ files, generate { file := none, modules := paths.map pointOf } none = .ok files := by
  refine exists_generate ?_ none
  intro module hmodule struct hstruct field hfield
  obtain ⟨path, _, rfl⟩ := List.mem_map.mp hmodule
  rw [List.mem_singleton.mp hstruct] at hfield
  rw [List.mem_singleton.mp hfield]
  exact .primitive .int32 false none none none

/-- Two modules of one namespace, and one outside of any between them. -/
theorem keepsNamespaces_iff_shared :
    ∃ files, generate { file := none, modules := ["Demo::Inner", "", "::Demo::Inner"].map pointOf }
      none = .ok files ∧
      KeepsNamespaces { file := none, modules := ["Demo::Inner", "", "::Demo::Inner"].map pointOf }
        none files := by
  obtain ⟨files, hfiles⟩ := exists_generate_pointOf ["Demo::Inner", "", "::Demo::Inner"]
  have hfree : ∀ path ∈ ["Demo::Inner", "", "::Demo::Inner"], namespaceOf path ≠ globalBase := by
    decide +kernel
  refine ⟨files, hfiles, (keepsNamespaces_iff hfiles).2.mpr ?_⟩
  rintro ⟨_, _, b, hb, _, hglobal⟩
  obtain ⟨path, hpath, rfl⟩ := List.mem_map.mp hb
  exact hfree path hpath hglobal

/-- The structs of a module without a name and those of the module `Global` get into one file. -/
theorem not_keepsNamespaces_pointOf :
    ∃ files, generate { file := none, modules := ["", "Global"].map pointOf } none = .ok files ∧
      ¬KeepsNamespaces { file := none, modules := ["", "Global"].map pointOf } none files := by
  obtain ⟨files, hfiles⟩ := exists_generate_pointOf ["", "Global"]
  have hempty : namespaceOf "" = "" := by decide +kernel
  have hglobal : namespaceOf "Global" = globalBase := by decide +kernel
  refine ⟨files, hfiles, ?_⟩
  apply not_keepsNamespaces_of_global hfiles (a := pointOf "") (b := pointOf "Global") ?_ ?_ hempty
    hglobal
  · exact List.mem_map_of_mem List.mem_cons_self
  · exact List.mem_map_of_mem (List.mem_cons_of_mem _ List.mem_cons_self)

end SliceRecords.Code
