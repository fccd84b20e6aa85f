import SliceRecords.Proofs.Code.Names
import SliceRecords.Proofs.Text.Calls

/-!
# Paths of identifiers

A scoped name that is a path of identifiers is cut into exactly these identifiers, with or without
colons in front, and the namespace of a module path has one identifier for each part of the path.
Main statements: `scopes_of_isPath` and `namespaceOf_of_isPath`.
-/

namespace SliceRecords.Code

/-- A name of letters, digits and underscores, all of seven bits, that begins with no digit. -/
structure IsIdentifier (name : String) : Prop where
  ne_empty : name ≠ ""
  word : ∀ c ∈ name.toList, Text.isWordChar c = true
  head_not_digit : ∀ c, name.toList.head? = some c → c.isDigit = false

/-- A name that is a path of identifiers with two colons between neighbours, and
perhaps two in front. -/
structure IsPath (name : String) (parts : List String) : Prop where
  ne_nil : parts ≠ []
  identifier : ∀ part ∈ parts, IsIdentifier part
  spelling : name = "::".intercalate parts ∨ name = "::" ++ "::".intercalate parts

/-- Identifiers, character by character. -/
theorem isIdentifier_iff {name : String} :
    IsIdentifier name ↔ name ≠ "" ∧ name.toList.all Text.isWordChar = true ∧
      name.toList.head?.any Char.isDigit = false := by
  have hhead : (∀ c, name.toList.head? = some c → c.isDigit = false) ↔
      name.toList.head?.any Char.isDigit = false := by
    cases name.toList.head? <;> simp
  rw [← hhead, List.all_eq_true]
  exact ⟨fun h => ⟨h.ne_empty, h.word, h.head_not_digit⟩, fun h => ⟨h.1, h.2.1, h.2.2⟩⟩

/-- Whether a name is an identifier can be decided. -/
instance (name : String) : Decidable (IsIdentifier name) :=
  decidable_of_iff' _ isIdentifier_iff

/-- Paths, part by part. -/
theorem isPath_iff {name : String} {parts : List String} :
    IsPath name parts ↔ parts ≠ [] ∧ (∀ part ∈ parts, IsIdentifier part) ∧
      (name = "::".intercalate parts ∨ name = "::" ++ "::".intercalate parts) :=
  ⟨fun h => ⟨h.ne_nil, h.identifier, h.spelling⟩, fun h => ⟨h.1, h.2.1, h.2.2⟩⟩

/-- Whether a name is a path of given parts can be decided. -/
instance (name : String) (parts : List String) : Decidable (IsPath name parts) :=
  decidable_of_iff' _ isPath_iff

/-- An identifier has a first character. -/
theorem IsIdentifier.toList_ne_nil {name : String} (h : IsIdentifier name) : name.toList ≠ [] := by
  rw [ne_eq, String.toList_eq_nil_iff]
  exact h.ne_empty

/-- An identifier has no colons, so it is a single part of a path. -/
theorem IsIdentifier.colon_notMem {name : String} (h : IsIdentifier name) : ':' ∉ name.toList := by
  intro hcolon
  exact absurd (h.word ':' hcolon) (by decide)

/-- An identifier has no dots, so it is a single part of a namespace. -/
theorem IsIdentifier.dot_notMem {name : String} (h : IsIdentifier name) : '.' ∉ name.toList := by
  intro hdot
  exact absurd (h.word '.' hdot) (by decide)

/-- Escaping a name adds an at sign at most. -/
theorem notMem_escapeIdentifier {name : String} {c : Char} (hc : c ≠ '@') (h : c ∉ name.toList) :
    c ∉ (escapeIdentifier name).toList := by
  unfold escapeIdentifier
  split
  · simp [hc, h]
  · exact h

/-- A character that is no colon belongs to the first part. -/
theorem splitScopes_cons {c : Char} (hc : c ≠ ':') {rest part : List Char}
    {parts : List (List Char)} (hrest : splitScopes rest = part :: parts) :
    splitScopes (c :: rest) = (c :: part) :: parts := by
  rw [splitScopes.eq_3 _ _ (by rintro _ rfl; exact absurd rfl hc), hrest]

/-- A text without colons is one part. -/
theorem splitScopes_of_notMem {text : List Char} (h : ':' ∉ text) : splitScopes text = [text] := by
  induction text with
  | nil => rfl
  | cons c rest ih =>
    rw [List.mem_cons, not_or] at h
    exact splitScopes_cons (Ne.symm h.1) (ih h.2)

/-- Two colons end the part in front of them. -/
theorem splitScopes_append {text : List Char} (h : ':' ∉ text) (rest : List Char) :
    splitScopes (text ++ ':' :: ':' :: rest) = text :: splitScopes rest := by
  induction text with
  | nil => rw [List.nil_append, splitScopes]
  | cons c text ih =>
    rw [List.mem_cons, not_or] at h
    exact splitScopes_cons (Ne.symm h.1) (ih h.2)

/-- Parts with two colons between neighbours are cut apart again. -/
theorem splitScopes_intercalate {parts : List (List Char)} (hne : parts ≠ [])
    (h : ∀ part ∈ parts, ':' ∉ part) : splitScopes ([':', ':'].intercalate parts) = parts := by
  induction parts with
  | nil => exact absurd rfl hne
  | cons part rest ih =>
    cases rest with
    | nil =>
      rw [List.intercalate_singleton]
      exact splitScopes_of_notMem (h part List.mem_cons_self)
    | cons next rest =>
      rw [List.intercalate_cons_cons, List.append_assoc, List.cons_append, List.cons_append,
        List.nil_append, splitScopes_append (h part List.mem_cons_self),
        ih (List.cons_ne_nil next rest) fun other hother =>
          h other (List.mem_cons_of_mem part hother)]

/-- A path of identifiers begins with a character of an identifier. -/
theorem exists_cons_intercalate {parts : List (List Char)} (hne : parts ≠ [])
    (h : ∀ part ∈ parts, part ≠ [] ∧ ':' ∉ part) :
    ∃ c rest, [':', ':'].intercalate parts = c :: rest ∧ c ≠ ':' := by
  obtain ⟨part, others, rfl⟩ := List.exists_cons_of_ne_nil hne
  obtain ⟨hpart, hcolon⟩ := h part List.mem_cons_self
  obtain ⟨c, rest, rfl⟩ := List.exists_cons_of_ne_nil hpart
  refine ⟨c, _, List.intercalate_cons_cons_left, ?_⟩
  rintro rfl
  exact hcolon List.mem_cons_self

/-- A path of identifiers ends with a character of an identifier. -/
theorem exists_concat_intercalate {parts : List (List Char)} (hne : parts ≠ [])
    (h : ∀ part ∈ parts, part ≠ [] ∧ ':' ∉ part) :
    ∃ front c, [':', ':'].intercalate parts = front ++ [c] ∧ c ≠ ':' := by
  induction parts with
  | nil => exact absurd rfl hne
  | cons part others ih =>
    cases others with
    | nil =>
      obtain ⟨hpart, hcolon⟩ := h part List.mem_cons_self
      refine ⟨part.dropLast, part.getLast hpart, ?_, ?_⟩
      · rw [List.intercalate_singleton, List.dropLast_append_getLast]
      · intro hlast
        exact hcolon (hlast ▸ List.getLast_mem hpart)
    | cons next others =>
      obtain ⟨front, c, hfront, hc⟩ := ih (List.cons_ne_nil next others) fun other hother =>
        h other (List.mem_cons_of_mem part hother)
      refine ⟨part ++ [':', ':'] ++ front, c, ?_, hc⟩
      rw [List.intercalate_cons_cons, hfront, List.append_assoc (part ++ [':', ':'])]

/-- Nothing is dropped behind a character that stays. -/
theorem dropTrailing_concat {p : Char → Bool} {c : Char} (hc : p c = false) (front : List Char) :
    Text.dropTrailing p (front ++ [c]) = front ++ [c] := by
  simp [Text.dropTrailing, hc]

/-- Colons in front of a path do not count. -/
theorem dropEnds_colons_append {parts : List (List Char)} (hne : parts ≠ [])
    (h : ∀ part ∈ parts, part ≠ [] ∧ ':' ∉ part) (colons : List Char)
    (hcolons : ∀ c ∈ colons, c = ':') :
    Text.dropEnds (· == ':') (colons ++ [':', ':'].intercalate parts) =
      [':', ':'].intercalate parts := by
  obtain ⟨first, rest, hfirst, hfirstNe⟩ := exists_cons_intercalate hne h
  obtain ⟨front, last, hlast, hlastNe⟩ := exists_concat_intercalate hne h
  have hdrop : (colons ++ [':', ':'].intercalate parts).dropWhile (· == ':') =
      [':', ':'].intercalate parts := by
    rw [List.dropWhile_append_of_pos fun c hc => beq_iff_eq.mpr (hcolons c hc), hfirst,
      List.dropWhile_cons_of_neg (by simpa using hfirstNe)]
  rw [Text.dropEnds, hdrop, hlast, dropTrailing_concat (by simpa using hlastNe)]

/-- A path of identifiers has these identifiers as its parts. -/
theorem scopes_of_isPath {name : String} {parts : List String} (h : IsPath name parts) :
    scopes name = parts := by
  have hne : parts.map String.toList ≠ [] := fun hnil => h.ne_nil (List.map_eq_nil_iff.mp hnil)
  have hparts : ∀ part ∈ parts.map String.toList, part ≠ [] ∧ ':' ∉ part := by
    intro part hpart
    obtain ⟨text, htext, rfl⟩ := List.mem_map.mp hpart
    exact ⟨(h.identifier text htext).toList_ne_nil, (h.identifier text htext).colon_notMem⟩
  have hinner :
      ("::".intercalate parts).toList = [':', ':'].intercalate (parts.map String.toList) := by
    rw [String.toList_intercalate]
    rfl
  have hdrop : Text.dropEnds (· == ':') name.toList =
      [':', ':'].intercalate (parts.map String.toList) := by
    rcases h.spelling with rfl | rfl
    · rw [hinner]
      exact dropEnds_colons_append hne hparts [] (by simp)
    · rw [String.toList_append, hinner]
      exact dropEnds_colons_append hne hparts _ (by simp)
  rw [scopes, hdrop, splitScopes_intercalate hne fun part hpart => (hparts part hpart).2]
  simp [Function.comp_def]

/-- The namespace of a module path has the identifiers of the path as its parts. -/
theorem namespaceOf_of_isPath {path : String} {parts : List String} (h : IsPath path parts) :
    namespaceOf path = ".".intercalate (parts.map escapeIdentifier) := by
  have hempty : path.isEmpty = false := by
    by_contra hempty
    rw [Bool.not_eq_false, String.isEmpty_iff] at hempty
    subst hempty
    have hparts : parts = [""] := by
      rw [← scopes_of_isPath h]
      decide +kernel
    exact (h.identifier "" (by simp [hparts])).ne_empty rfl
  rw [namespaceOf, hempty, scopes_of_isPath h]
  rfl

end SliceRecords.Code
