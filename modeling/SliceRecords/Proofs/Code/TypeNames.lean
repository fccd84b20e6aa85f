import SliceRecords.Proofs.Code.MemberNames
import SliceRecords.Proofs.Code.References
import SliceRecords.Proofs.Text.NormalLines

/-!
# Names of types

A type of the current module, and a type outside of all modules, is named by its identifier alone,
and every other one from the global scope on. Types from the global scope on have names of their
own, so types share a name only if one of them is outside of all modules and the other in the
current module. Main statement: `typeName_eq_iff`.
-/

namespace SliceRecords

namespace Text

/-- Parts that are put together with a separator that none of them holds are cut apart again. -/
theorem split_intercalate {α : Type} [DecidableEq α] {separator : α} {parts : List (List α)}
    (hne : parts ≠ []) (h : ∀ part ∈ parts, separator ∉ part) :
    split separator ([separator].intercalate parts) = parts := by
  induction parts with
  | nil => exact absurd rfl hne
  | cons part rest ih =>
    obtain ⟨hpart, hrest⟩ := List.forall_mem_cons.mp h
    cases rest with
    | nil => rw [List.intercalate_singleton, split_of_notMem hpart]
    | cons next rest =>
      rw [List.intercalate_cons_cons, List.append_assoc, List.singleton_append, split_append_cons,
        split_of_notMem hpart, ih (List.cons_ne_nil next rest) hrest, List.singleton_append]

end Text

namespace Code

open Text

/-- An identifier has no at sign, so escaping can be undone. -/
theorem IsIdentifier.at_notMem {name : String} (h : IsIdentifier name) : '@' ∉ name.toList :=
  fun hat => absurd (h.word '@' hat) (by decide)

/-- A namespace gives back the parts of its path. -/
theorem map_split_namespaceOf {path : String} {parts : List String} (h : IsPath path parts) :
    (split '.' (namespaceOf path).toList).map
      (fun part => trimStart (· == '@') (String.ofList part)) = parts := by
  have hinner : (namespaceOf path).toList =
      ['.'].intercalate ((parts.map escapeIdentifier).map String.toList) := by
    rw [namespaceOf_of_isPath h, String.toList_intercalate]
    rfl
  have hne : (parts.map escapeIdentifier).map String.toList ≠ [] := by simpa using h.ne_nil
  have hdots : ∀ part ∈ (parts.map escapeIdentifier).map String.toList, '.' ∉ part := by
    simp only [List.forall_mem_map]
    exact fun part hpart => notMem_escapeIdentifier (by decide) (h.identifier part hpart).dot_notMem
  rw [hinner, split_intercalate hne hdots, List.map_map, List.map_map]
  refine (List.map_congr_left fun part hpart => ?_).trans (List.map_id parts)
  rw [Function.comp_apply, Function.comp_apply, String.ofList_toList]
  exact trimStart_escapeIdentifier (h.identifier part hpart).at_notMem

/-- Paths with one namespace have the same parts. -/
theorem namespaceOf_eq_iff {a b : String} {as bs : List String} (ha : IsPath a as)
    (hb : IsPath b bs) : namespaceOf a = namespaceOf b ↔ as = bs := by
  constructor
  · intro h
    rw [← map_split_namespaceOf ha, h, map_split_namespaceOf hb]
  · rintro rfl
    rw [namespaceOf_of_isPath ha, namespaceOf_of_isPath hb]

/-- A path of a module, or no path: what is outside of all modules is in the global scope. -/
def IsModule (path : String) (parts : List String) : Prop :=
  path = "" ∧ parts = [] ∨ IsPath path parts

/-- Whether a path is a module of given parts can be decided. -/
instance (path : String) (parts : List String) : Decidable (IsModule path parts) :=
  inferInstanceAs (Decidable (_ ∨ _))

/-- The namespace of a path is the current one exactly if the path leads to the current module. -/
theorem namespaceOf_eq_iff_of_isModule {here path : String} {current parts : List String}
    (hhere : IsModule here current) (hpath : IsPath path parts) :
    namespaceOf here = namespaceOf path ↔ parts = current := by
  rcases hhere with ⟨rfl, rfl⟩ | hhere
  · exact iff_of_false (fun h => namespaceOf_ne_empty hpath h.symm) hpath.ne_nil
  · rw [namespaceOf_eq_iff hhere hpath, eq_comm]

/-- A scoped name from the global scope on. -/
def absoluteName (parts : List String) : String :=
  "::" ++ "::".intercalate parts

/-- Identifiers behind colons are a path. -/
theorem isPath_absoluteName {parts : List String} (hne : parts ≠ [])
    (h : ∀ part ∈ parts, IsIdentifier part) : IsPath (absoluteName parts) parts :=
  ⟨hne, h, .inr rfl⟩

/-- Scoped names from the global scope on are equal exactly if all of their parts are. -/
theorem absoluteName_eq_iff {as bs : List String} (ha : as ≠ []) (hb : bs ≠ [])
    (has : ∀ part ∈ as, IsIdentifier part) (hbs : ∀ part ∈ bs, IsIdentifier part) :
    absoluteName as = absoluteName bs ↔ as = bs := by
  refine ⟨fun h => ?_, congrArg absoluteName⟩
  rw [← scopes_of_isPath (isPath_absoluteName ha has), h,
    scopes_of_isPath (isPath_absoluteName hb hbs)]

section Types

variable {here : String} {current : List String} {module other : List String}
  {name otherName : String}

/-- The namespace of an absolute name is that of its module, then a dot and its own identifier. -/
theorem namespaceOf_absoluteName (hmodule : module ≠ [])
    (h : ∀ part ∈ module ++ [name], IsIdentifier part) :
    namespaceOf (absoluteName (module ++ [name])) =
      ".".intercalate (module.map escapeIdentifier) ++ "." ++ escapeIdentifier name := by
  have hne : module.map escapeIdentifier ≠ [] := by simpa using hmodule
  rw [namespaceOf_of_isPath (isPath_absoluteName (by simp) h), List.map_append, List.map_singleton,
    String.intercalate_append_of_ne_nil hne (List.cons_ne_nil _ []), String.intercalate_singleton]

/-- A type of the current module and one outside of all modules are named by their identifiers,
every other type by all parts of its name from the global scope on. -/
theorem typeName_absoluteName (hhere : IsModule here current)
    (h : ∀ part ∈ module ++ [name], IsIdentifier part) :
    typeName (namespaceOf here) (absoluteName (module ++ [name])) =
      if module = [] ∨ module = current then escapeIdentifier name
      else "global::" ++ namespaceOf (absoluteName (module ++ [name])) := by
  by_cases hnil : module = []
  · subst hnil
    have hscopes : scopes (absoluteName ([] ++ [name])) = [name] :=
      scopes_of_isPath (isPath_absoluteName (by simp) h)
    have hlocal : localName (absoluteName ([] ++ [name])) = name := by
      rw [localName, hscopes]
      rfl
    rw [if_pos (.inl rfl)]
    unfold typeName
    simp only [hscopes, hlocal, List.length_singleton, if_pos]
  · obtain ⟨hmodule, hname⟩ := List.forall_mem_append.mp h
    have hpath : IsPath ("::".intercalate module) module := ⟨hnil, hmodule, .inl rfl⟩
    have hscoped :
        absoluteName (module ++ [name]) ∈ scopedNames ("::".intercalate module) name := by
      rw [absoluteName, String.intercalate_append_of_ne_nil hnil (List.cons_ne_nil name []),
        String.intercalate_singleton, scopedNames, ← String.append_assoc, ← String.append_assoc]
      exact List.mem_cons_of_mem _ List.mem_cons_self
    rw [typeName_of_mem_scopedNames hpath (hname name List.mem_cons_self) hscoped,
      namespaceOf_absoluteName hnil h, namespaceOf_of_isPath hpath,
      ← String.append_assoc, ← String.append_assoc]
    simp only [← namespaceOf_of_isPath hpath, namespaceOf_eq_iff_of_isModule hhere hpath, hnil,
      false_or]

/-- A name from the global scope on is no identifier. -/
theorem escapeIdentifier_ne_qualified (h : IsIdentifier name) (rest : String) :
    escapeIdentifier name ≠ "global::" ++ rest := by
  intro heq
  have hcolon : ':' ∈ ("global::" ++ rest).toList := by simp
  exact notMem_escapeIdentifier (by decide) h.colon_notMem (heq ▸ hcolon)

/-- Two types have one name in the current module exactly if they have one name from the global
scope on, or one of them is outside of all modules and the other has its identifier in the
current module. A type is named by its identifier alone in these two places, and from the global
scope on everywhere else. -/
theorem typeName_eq_iff (hhere : IsModule here current)
    (h : ∀ part ∈ module ++ [name], IsIdentifier part)
    (hother : ∀ part ∈ other ++ [otherName], IsIdentifier part) :
    (typeName (namespaceOf here) (absoluteName (module ++ [name])) =
       typeName (namespaceOf here) (absoluteName (other ++ [otherName])) ↔
     absoluteName (module ++ [name]) = absoluteName (other ++ [otherName]) ∨
     name = otherName ∧ (module = [] ∧ other = current ∨ module = current ∧ other = [])) ∧
    typeName (namespaceOf here) (absoluteName (module ++ [name])) =
      if module = [] ∨ module = current then escapeIdentifier name
      else "global::" ++ ".".intercalate (module.map escapeIdentifier) ++ "." ++
        escapeIdentifier name := by
  have hname : IsIdentifier name := h name (by simp)
  have hotherName : IsIdentifier otherName := hother otherName (by simp)
  have hsame : absoluteName (module ++ [name]) = absoluteName (other ++ [otherName]) ↔
      module = other ∧ name = otherName := by
    rw [absoluteName_eq_iff (by simp) (by simp) h hother, List.append_singleton_inj]
  have hqualified : namespaceOf (absoluteName (module ++ [name])) =
      namespaceOf (absoluteName (other ++ [otherName])) ↔ module = other ∧ name = otherName := by
    rw [namespaceOf_eq_iff (isPath_absoluteName (by simp) h) (isPath_absoluteName (by simp) hother),
      List.append_singleton_inj]
  rw [typeName_absoluteName hhere h, typeName_absoluteName hhere hother, hsame]
  constructor
  · by_cases hshort : module = [] ∨ module = current <;>
      by_cases hotherShort : other = [] ∨ other = current
    · rw [if_pos hshort, if_pos hotherShort,
        escapeIdentifier_eq_iff hname.at_notMem hotherName.at_notMem]
      constructor
      · intro hidentifier
        rcases hshort with hnone | hcurrent <;> rcases hotherShort with hotherNone | hotherCurrent
        · exact .inl ⟨hnone.trans hotherNone.symm, hidentifier⟩
        · exact .inr ⟨hidentifier, .inl ⟨hnone, hotherCurrent⟩⟩
        · exact .inr ⟨hidentifier, .inr ⟨hcurrent, hotherNone⟩⟩
        · exact .inl ⟨hcurrent.trans hotherCurrent.symm, hidentifier⟩
      · rintro (⟨_, hidentifier⟩ | ⟨hidentifier, _⟩) <;> exact hidentifier
    · rw [if_pos hshort, if_neg hotherShort]
      refine iff_of_false (escapeIdentifier_ne_qualified hname _) ?_
      rintro (⟨rfl, _⟩ | ⟨_, ⟨_, hcurrent⟩ | ⟨_, hnone⟩⟩)
      · exact hotherShort hshort
      · exact hotherShort (.inr hcurrent)
      · exact hotherShort (.inl hnone)
    · rw [if_neg hshort, if_pos hotherShort]
      refine iff_of_false (escapeIdentifier_ne_qualified hotherName _).symm ?_
      rintro (⟨rfl, _⟩ | ⟨_, ⟨hnone, _⟩ | ⟨hcurrent, _⟩⟩)
      · exact hshort hotherShort
      · exact hshort (.inl hnone)
      · exact hshort (.inr hcurrent)
    · rw [if_neg hshort, if_neg hotherShort, String.append_right_inj, hqualified, iff_self_or]
      rintro ⟨_, ⟨hnone, _⟩ | ⟨hcurrent, _⟩⟩
      · exact absurd (.inl hnone) hshort
      · exact absurd (.inr hcurrent) hshort
  · split
    · rfl
    · rename_i hlong
      rw [namespaceOf_absoluteName (fun hnil => hlong (.inl hnil)) h, ← String.append_assoc,
        ← String.append_assoc]

/-- A type of the current module and one with the same identifier in another module. -/
theorem typeName_eq_iff_nested :
    IsModule "Demo::lock" ["Demo", "lock"] ∧
    (∀ part ∈ ["Demo", "lock", "Point"], IsIdentifier part) ∧
    (∀ part ∈ ["Geo", "Point"], IsIdentifier part) ∧
    typeName (namespaceOf "Demo::lock") (absoluteName ["Demo", "lock", "Point"]) ≠
      typeName (namespaceOf "Demo::lock") (absoluteName ["Geo", "Point"]) ∧
    typeName (namespaceOf "Demo::lock") (absoluteName ["Geo", "Point"]) = "global::Geo.Point" := by
  have hhere : IsModule "Demo::lock" ["Demo", "lock"] := by decide
  have hpoint : ∀ part ∈ ["Demo", "lock"] ++ ["Point"], IsIdentifier part := by decide
  have hother : ∀ part ∈ ["Geo"] ++ ["Point"], IsIdentifier part := by decide
  obtain ⟨hiff, hspelling⟩ := typeName_eq_iff hhere hother hpoint
  refine ⟨hhere, hpoint, hother, fun hsame => ?_, hspelling⟩
  exact absurd (hiff.mp hsame.symm) (by decide +kernel)

/-- A type outside of all modules shares its name with the type of the same identifier in the
current module: in `Demo` both `::Point` and `::Demo::Point` are named `Point`. -/
theorem not_typeName_eq_iff_point :
    IsModule "Demo" ["Demo"] ∧ (∀ part ∈ ["Point"], IsIdentifier part) ∧
      (∀ part ∈ ["Demo", "Point"], IsIdentifier part) ∧
      ¬(typeName (namespaceOf "Demo") (absoluteName ["Point"]) =
          typeName (namespaceOf "Demo") (absoluteName ["Demo", "Point"]) ↔
        absoluteName ["Point"] = absoluteName ["Demo", "Point"]) := by
  refine ⟨by decide, by decide, by decide, fun hiff => ?_⟩
  exact absurd (hiff.mp (by decide +kernel)) (by decide +kernel)

end Types

end Code

end SliceRecords
