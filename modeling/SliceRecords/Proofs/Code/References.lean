import SliceRecords.Code.RecordStruct
import SliceRecords.Proofs.Code.PascalCase
import SliceRecords.Proofs.Result

/-!
# References to declared types

A struct is declared under its name in words with a capital each, but a reference to it keeps the
name as it is written. So references from whatever namespace name the declared type if the
declaration keeps the name, and a type that does not exist otherwise. Main statement:
`typeName_names_declared_iff`.
-/

namespace SliceRecords.Code

/-- What follows the last dot of a name. -/
def lastComponent (name : String) : String :=
  String.ofList (name.toList.reverse.takeWhile (· != '.')).reverse

/-- A reference that is written in the namespace `here` names the type that the namespace `home` has
under an identifier: by the identifier alone at home, and from the global scope on elsewhere. -/
structure Names (reference here home identifier : String) : Prop where
  lastComponent_eq : lastComponent reference = identifier
  spelling : reference = if here = home then identifier else "global::" ++ home ++ "." ++ identifier

/-- A block that declares a type for a struct under an identifier, below all that documents it. -/
def Declares (block : Block) (struct : Struct) (identifier : String) : Prop :=
  ∃ members, block = braced (structPreamble struct) s!"{structKeywords struct} {identifier}" members

/-- Members that are added to a container follow those that it has, without
the ones that are empty. -/
theorem Container.foldl_addBlock (members : List Block) (container : Container) :
    members.foldl addBlock container =
      { container with
        blocks := container.blocks ++ members.filter fun member => !member.isEmpty } := by
  induction members generalizing container with
  | nil => rw [List.foldl_nil, List.filter_nil, List.append_nil]
  | cons member rest ih =>
    rw [List.foldl_cons, ih, addBlock]
    cases hempty : member.isEmpty with
    | true => simp [hempty]
    | false => simp [hempty]

/-- The declaration of a struct is under its name in words with a capital
each, in every namespace. -/
theorem declares_of_structDeclaration {namespaceName : String} {struct : Struct} {block : Block}
    (h : structDeclaration namespaceName struct = .ok block) :
    Declares block struct (memberName struct.name) := by
  simp only [structDeclaration, Result.bind_eq_ok_iff, Result.pure_eq_ok_iff] at h
  obtain ⟨_, _, _, _, _, _, _, _, rfl⟩ := h
  rw [Container.foldl_addBlock]
  exact ⟨_, rfl⟩

/-- A name without dots has none from its end either. -/
theorem ne_dot_of_mem_reverse {name : String} (h : '.' ∉ name.toList) :
    ∀ c ∈ name.toList.reverse, (c != '.') = true := by
  intro c hc
  rw [bne_iff_ne]
  rintro rfl
  exact h (List.mem_reverse.mp hc)

/-- The last component of a name without dots is all of it. -/
theorem lastComponent_of_notMem {name : String} (h : '.' ∉ name.toList) :
    lastComponent name = name := by
  rw [lastComponent, List.takeWhile_eq_self_iff.mpr (ne_dot_of_mem_reverse h), List.reverse_reverse,
    String.ofList_toList]

/-- The last component of a name is what follows its last dot. -/
theorem lastComponent_append_dot_append (front : String) {name : String} (h : '.' ∉ name.toList) :
    lastComponent (front ++ "." ++ name) = name := by
  have hreverse : (front ++ "." ++ name).toList.reverse =
      name.toList.reverse ++ '.' :: front.toList.reverse := by simp
  rw [lastComponent, hreverse, List.takeWhile_append_of_pos (ne_dot_of_mem_reverse h)]
  simp

/-- A name in a path of identifiers makes a longer path. -/
theorem IsPath.append_name {path : String} {parts : List String} (hpath : IsPath path parts)
    {name : String} (hname : IsIdentifier name) :
    IsPath (path ++ "::" ++ name) (parts ++ [name]) := by
  have hjoin : "::".intercalate (parts ++ [name]) = "::".intercalate parts ++ "::" ++ name := by
    rw [String.intercalate_append_of_ne_nil hpath.ne_nil (List.cons_ne_nil _ _),
      String.intercalate_singleton]
  constructor
  · simp
  · simp only [List.mem_append, List.mem_singleton]
    rintro part (hpart | rfl)
    · exact hpath.identifier part hpart
    · exact hname
  · rw [hjoin]
    rcases hpath.spelling with rfl | rfl
    · exact .inl rfl
    · exact .inr (by simp only [String.append_assoc])

/-- Colons in front of a name add no scopes. -/
theorem scopes_colons_append (name : String) : scopes ("::" ++ name) = scopes name := by
  have hdrop : Text.dropEnds (· == ':') ("::" ++ name).toList =
      Text.dropEnds (· == ':') name.toList := by
    rw [String.toList_append]
    rfl
  rw [scopes, hdrop]
  rfl

/-- Escaping makes no name empty. -/
theorem escapeIdentifier_ne_empty {name : String} (h : name ≠ "") : escapeIdentifier name ≠ "" := by
  rcases escapeIdentifier_eq_or name with hname | hname
  · rwa [hname]
  · rw [hname]
    simp

/-- The namespace of a path is not the global scope. -/
theorem namespaceOf_ne_empty {path : String} {parts : List String} (h : IsPath path parts) :
    namespaceOf path ≠ "" := by
  obtain ⟨part, rest, rfl⟩ := List.exists_cons_of_ne_nil h.ne_nil
  have hpart := escapeIdentifier_ne_empty (h.identifier part List.mem_cons_self).ne_empty
  rw [namespaceOf_of_isPath h, List.map_cons]
  cases rest with
  | nil => simpa using hpart
  | cons next rest =>
    rw [List.map_cons, String.intercalate_cons_cons]
    simp

/-- The ways to write the name of a type of a module. -/
def scopedNames (path name : String) : List String :=
  [path ++ "::" ++ name, "::" ++ path ++ "::" ++ name]

/-- The scopes of a type of a module are those of the module and its name. -/
theorem scopes_of_mem_scopedNames {path : String} {parts : List String} (hpath : IsPath path parts)
    {name : String} (hname : IsIdentifier name) {scopedName : String}
    (hscoped : scopedName ∈ scopedNames path name) : scopes scopedName = parts ++ [name] := by
  have hscopes := scopes_of_isPath (hpath.append_name hname)
  rw [scopedNames, List.mem_pair] at hscoped
  rcases hscoped with rfl | rfl
  · exact hscopes
  · rw [String.append_assoc, String.append_assoc, scopes_colons_append, ← String.append_assoc]
    exact hscopes

/-- A reference to a type of a module keeps the name of the type: by its name alone in the namespace
of the module, and from the global scope on elsewhere. -/
theorem typeName_of_mem_scopedNames {path : String} {parts : List String}
    (hpath : IsPath path parts) {name : String} (hname : IsIdentifier name) {scopedName : String}
    (hscoped : scopedName ∈ scopedNames path name) (here : String) :
    typeName here scopedName = if here = namespaceOf path then escapeIdentifier name
      else "global::" ++ namespaceOf path ++ "." ++ escapeIdentifier name := by
  have hscopes := scopes_of_mem_scopedNames hpath hname hscoped
  have hlocal : localName scopedName = name := by
    rw [localName, hscopes, List.getLast?_append_cons]
    rfl
  have hhome : namespaceOf ("::".intercalate (parts ++ [name]).dropLast) = namespaceOf path := by
    have hinner : IsPath ("::".intercalate parts) parts :=
      ⟨hpath.ne_nil, hpath.identifier, .inl rfl⟩
    rw [List.dropLast_concat, namespaceOf_of_isPath hinner, namespaceOf_of_isPath hpath]
  have hlength : (parts ++ [name]).length ≠ 1 := by simp [hpath.ne_nil]
  unfold typeName
  simp only [hscopes, hlocal, hhome, if_neg hlength]
  by_cases hhere : here = namespaceOf path
  · subst hhere
    simp [namespaceOf_ne_empty hpath]
  · rw [if_neg hhere, if_neg (by simp [Ne.symm hhere])]
    rfl

/-- A name stands for one type only, under one identifier. -/
theorem Names.identifier_eq {reference here home identifier other : String}
    (h : Names reference here home identifier) (hother : Names reference here home other) :
    identifier = other :=
  h.lastComponent_eq.symm.trans hother.lastComponent_eq

/-- A name in a scope is referred to by its escaped identifier, in the namespace of its path. -/
theorem typeName_names {path : String} {parts : List String} (hpath : IsPath path parts)
    {name : String} (hname : IsIdentifier name) {scopedName : String}
    (hscoped : scopedName ∈ scopedNames path name) (here : String) :
    Names (typeName here scopedName) here (namespaceOf path) (escapeIdentifier name) := by
  have hspelling := typeName_of_mem_scopedNames hpath hname hscoped here
  have hdot : '.' ∉ (escapeIdentifier name).toList :=
    notMem_escapeIdentifier (by decide) hname.dot_notMem
  refine ⟨?_, hspelling⟩
  rw [hspelling]
  split
  · exact lastComponent_of_notMem hdot
  · exact lastComponent_append_dot_append _ hdot

/-- The declaration of a struct is under its name in words with a capital each. A reference from any
module names what is declared under the name as it is written, and so the struct exactly if its
declaration keeps the name. -/
theorem typeName_names_declared_iff {path : String} {parts : List String}
    (hpath : IsPath path parts) {struct : Struct} (hname : IsIdentifier struct.name)
    {scopedName : String} (hscoped : scopedName ∈ scopedNames path struct.name) (other : String) :
    (∀ block, structDeclaration (namespaceOf path) struct = .ok block →
       Declares block struct (memberName struct.name)) ∧
    Names (typeName (namespaceOf other) scopedName) (namespaceOf other) (namespaceOf path)
      (escapeIdentifier struct.name) ∧
    (Names (typeName (namespaceOf other) scopedName) (namespaceOf other) (namespaceOf path)
       (memberName struct.name) ↔ IsKept struct.name) := by
  have hnames := typeName_names hpath hname hscoped (namespaceOf other)
  refine ⟨fun _ => declares_of_structDeclaration, hnames, ?_⟩
  rw [← hname.memberName_eq_escapeIdentifier_iff]
  constructor
  · exact fun hdeclared => hdeclared.identifier_eq hnames
  · intro hkept
    rwa [hkept]

/-- A struct of a module in a module, named from elsewhere: its declaration keeps the
capitals of its name. -/
theorem typeName_names_declared_nested :
    Names (typeName "Geo" "::Demo::Inner::HTTPServer") "Geo" "Demo.Inner"
      (memberName "HTTPServer") := by
  let struct : Struct := { name := "HTTPServer", fields := [], encodings := .both }
  have hpath : IsPath "Demo::Inner" ["Demo", "Inner"] := by decide
  have hname : IsIdentifier struct.name := by decide
  have hscoped : "::Demo::Inner::HTTPServer" ∈ scopedNames "Demo::Inner" struct.name := by decide
  have hhere : namespaceOf "Geo" = "Geo" := by decide +kernel
  have hhome : namespaceOf "Demo::Inner" = "Demo.Inner" := by decide +kernel
  obtain ⟨_, _, hiff⟩ := typeName_names_declared_iff hpath hname hscoped "Geo"
  rw [hhere, hhome] at hiff
  exact hiff.mpr (by decide)

/-- A name in small letters is not kept: `my_struct` is declared as `MyStruct`, and references to
it are to `my_struct`. -/
theorem not_names_my_struct :
    IsPath "Demo" ["Demo"] ∧ IsIdentifier "my_struct" ∧
    "Demo::my_struct" ∈ scopedNames "Demo" "my_struct" ∧
    ¬Names (typeName (namespaceOf "Demo") "Demo::my_struct") (namespaceOf "Demo")
      (namespaceOf "Demo") (memberName "my_struct") := by
  refine ⟨by decide, by decide, by decide, fun hnames => ?_⟩
  exact absurd hnames.lastComponent_eq (by decide +kernel)

end SliceRecords.Code
