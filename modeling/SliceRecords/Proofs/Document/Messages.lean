import SliceRecords.Proofs.Code.OneLine
import SliceRecords.Proofs.Document.Checks

/-!
# Lines of a report

The line of a violation is one line, whatever texts the value holds: messages quote them, and a
place is made of the names that the grammar knows and of indexes. A check of a value finds nothing
above its place. Main statements: `Cause.isOneLine_message` and `staysBelow_checkDocument`.
-/

namespace SliceRecords

namespace Text

/-- Digits are no line feeds. -/
theorem newline_notMem_toDigits {base : Nat} (hbase : 1 < base) (hdigits : base ≤ 16) (n : Nat) :
    '\n' ∉ Nat.toDigits base n := by
  have hdigit : ∀ digit : Fin 16, '\n' ≠ Nat.digitChar digit := by decide
  induction n using Nat.strongRecOn with
  | ind n ih =>
    by_cases hsmall : n < base
    · rw [Nat.toDigits_of_lt_base hsmall, List.mem_singleton]
      exact hdigit ⟨n, by omega⟩
    · have hquotient : n / base < n := Nat.div_lt_self (by omega) hbase
      have hremainder : n % base < base := Nat.mod_lt n (by omega)
      rw [Nat.toDigits_of_base_le hbase (Nat.le_of_not_lt hsmall), List.mem_append, not_or,
        List.mem_singleton]
      exact ⟨ih (n / base) hquotient, hdigit ⟨n % base, by omega⟩⟩

/-- A number in base sixteen has no line feed. -/
theorem newline_notMem_hex (width n : Nat) : '\n' ∉ hex width n := by
  simp [hex, List.leftpad, newline_notMem_toDigits]

/-- Nor has one in base ten. -/
theorem isOneLine_toString (n : Nat) : IsOneLine (toString n) := by
  rw [IsOneLine, Nat.toString_eq_repr, Nat.repr, String.toList_ofList]
  exact newline_notMem_toDigits (by decide) (by decide) n

/-- What stands for a character of a quoted text is never a line feed. -/
theorem newline_notMem_quotedChar {mark : Char} (hmark : mark ≠ '\n') (c : Char) :
    '\n' ∉ quotedChar mark c := by
  have hbackslash : '\n' ≠ '\\' := by decide
  unfold quotedChar
  extract_lets n
  split
  · rename_i hescaped
    rcases hescaped with rfl | rfl
    · simp [hmark.symm]
    · simp
  split
  · decide
  split
  · decide
  split
  · decide
  split
  · rename_i hbreak _ _
    simpa [eq_comm] using hbreak
  split
  · simp [newline_notMem_hex]
  split <;> simp [newline_notMem_hex]

/-- A quoted text stands on one line, whatever the text. -/
theorem isOneLine_quoted (text : String) : IsOneLine (quoted text) := by
  have hmark : quotationMark text.toList ≠ '\n' := by
    unfold quotationMark
    split <;> decide
  have hbody : '\n' ∉ text.toList.flatMap (quotedChar (quotationMark text.toList)) := by
    intro hmem
    obtain ⟨c, _, hc⟩ := List.mem_flatMap.mp hmem
    exact newline_notMem_quotedChar hmark c hc
  rw [IsOneLine, quoted, String.toList_ofList]
  simp only [List.cons_append, List.mem_cons, List.mem_append, List.not_mem_nil, or_false, not_or]
  exact ⟨hmark.symm, hbody, hmark.symm⟩

end Text

open Text

namespace Json

/-- Parts on one line stay on one line between brackets. -/
theorem isOneLine_bracketed {opening closing : String} (hopening : IsOneLine opening)
    (hclosing : IsOneLine closing) {parts : List String} (h : ∀ part ∈ parts, IsOneLine part) :
    IsOneLine (bracketed opening closing parts) :=
  (isOneLine_intercalate (by decide) h).enclosed hopening hclosing

/-- A list of texts is shown on one line, as each of them is quoted. -/
theorem isOneLine_displayTexts (texts : List String) : IsOneLine (displayTexts texts) :=
  isOneLine_bracketed (by decide) (by decide)
    (List.forall_mem_map.mpr fun text _ => isOneLine_quoted text)

mutual

/-- A value is shown on one line. -/
theorem isOneLine_display : ∀ json : Json, IsOneLine json.display
  | null => by decide
  | bool value => by cases value <;> decide
  | number value => Code.isOneLine_numberText value
  | string value => isOneLine_quoted value
  | array items => isOneLine_bracketed (by decide) (by decide) (isOneLine_displayItems items)
  | object members => isOneLine_bracketed (by decide) (by decide) (isOneLine_displayMembers members)

/-- The items of an array are shown on one line each. -/
theorem isOneLine_displayItems : ∀ items : List Json, ∀ part ∈ displayItems items, IsOneLine part
  | [] => List.forall_mem_nil _
  | item :: rest => List.forall_mem_cons.mpr ⟨isOneLine_display item, isOneLine_displayItems rest⟩

/-- So are the members of an object, as their names are quoted. -/
theorem isOneLine_displayMembers :
    ∀ members : List (String × Json), ∀ part ∈ displayMembers members, IsOneLine part
  | [] => List.forall_mem_nil _
  | (name, value) :: rest =>
    have hmember : IsOneLine (quoted name ++ ": " ++ value.display) :=
      ((isOneLine_quoted name).append (by decide)).append (isOneLine_display value)
    List.forall_mem_cons.mpr ⟨hmember, isOneLine_displayMembers rest⟩

end

end Json

namespace Document

/-- What is wrong with a value is said on one line. -/
theorem Cause.isOneLine_message (cause : Cause) : IsOneLine cause.message := by
  cases cause with
  | wrongType value expected =>
    have htypes : IsOneLine (", ".intercalate (expected.map fun type => quoted type.name)) :=
      isOneLine_intercalate (by decide) (List.forall_mem_map.mpr fun _ _ => isOneLine_quoted _)
    exact (value.isOneLine_display.append (b := " is not of type ") (by decide)).append htypes
  | notOneOf value choices =>
    exact (value.isOneLine_display.append (b := " is not one of ") (by decide)).append
      (Json.isOneLine_displayTexts choices)
  | missing name =>
    exact (isOneLine_quoted name).append (b := " is a required property") (by decide +kernel)
  | unexpected names =>
    have hlisted : IsOneLine (", ".intercalate (names.map quoted)) :=
      isOneLine_intercalate (by decide) (List.forall_mem_map.mpr fun _ _ => isOneLine_quoted _)
    have hverb : IsOneLine (if names.length = 1 then "was" else "were") := by split <;> decide
    have hopening : IsOneLine "Additional properties are not allowed (" := by decide +kernel
    exact (((hopening.append hlisted).append (b := " ") (by decide)).append hverb).append
      (b := " unexpected)") (by decide)
  | empty value => exact value.isOneLine_display.append (b := " should be non-empty") (by decide)
  | belowZero value =>
    exact value.isOneLine_display.append (b := " is less than the minimum of 0") (by decide +kernel)
  | repeated value =>
    exact value.isOneLine_display.append (b := " has non-unique elements") (by decide +kernel)

/-- Everything that a check finds in a value is in the value or below it, by parts
of a place on one line. -/
def Check.StaysBelow (check : Check) (json : Json) : Prop :=
  ∀ path, ∀ violation ∈ check path json,
    ∃ below, violation.path = path ++ below ∧ ∀ part ∈ below, IsOneLine part

namespace Check

variable {check : Check} {json : Json}

/-- A check that speaks of the value itself. -/
theorem staysBelow_of_path_eq (h : ∀ path, ∀ violation ∈ check path json, violation.path = path) :
    check.StaysBelow json := fun path violation hviolation =>
  ⟨[], by rw [h path violation hviolation, List.append_nil], List.forall_mem_nil _⟩

/-- Checks that stay below a place do so one after the other. -/
theorem staysBelow_all {checks : List Check} (h : ∀ check ∈ checks, StaysBelow check json) :
    (all checks).StaysBelow json := by
  intro path violation hviolation
  obtain ⟨check, hcheck, hfound⟩ := List.mem_flatMap.mp hviolation
  exact h check hcheck path violation hfound

/-- A type check reports at its own place. -/
theorem staysBelow_type (expected : List ValueType) : (type expected).StaysBelow json := by
  apply staysBelow_of_path_eq
  intro path violation hviolation
  unfold type at hviolation
  grind

/-- So does a choice. -/
theorem staysBelow_oneOf (choices : List String) : (oneOf choices).StaysBelow json := by
  apply staysBelow_of_path_eq
  intro path violation hviolation
  unfold oneOf at hviolation
  grind

/-- So does a check for members that are missing. -/
theorem staysBelow_required (names : List String) : (required names).StaysBelow json := by
  apply staysBelow_of_path_eq
  intro path violation hviolation
  unfold required at hviolation
  split at hviolation
  · obtain ⟨name, _, rfl⟩ := List.mem_map.mp hviolation
    rfl
  · cases hviolation

/-- So does a check for members that are unknown. -/
theorem staysBelow_noOthers (names : List String) : (noOthers names).StaysBelow json := by
  apply staysBelow_of_path_eq
  intro path violation hviolation
  unfold noOthers at hviolation
  grind

/-- So does a check for empty texts. -/
theorem staysBelow_nonEmptyText : nonEmptyText.StaysBelow json := by
  apply staysBelow_of_path_eq
  intro path violation hviolation
  unfold nonEmptyText at hviolation
  grind

/-- So does a check for empty arrays. -/
theorem staysBelow_nonEmptyArray : nonEmptyArray.StaysBelow json := by
  apply staysBelow_of_path_eq
  intro path violation hviolation
  unfold nonEmptyArray at hviolation
  grind

/-- So does a check for negative numbers. -/
theorem staysBelow_notNegative : notNegative.StaysBelow json := by
  apply staysBelow_of_path_eq
  intro path violation hviolation
  unfold notNegative at hviolation
  grind

/-- So does a check for repetitions. -/
theorem staysBelow_unique : unique.StaysBelow json := by
  apply staysBelow_of_path_eq
  intro path violation hviolation
  unfold unique at hviolation
  grind

/-- The check that admits everything reports nowhere. -/
theorem staysBelow_anything : anything.StaysBelow json := by
  apply staysBelow_of_path_eq
  intro path violation hviolation
  unfold anything at hviolation
  grind

/-- A check of a member reports below the name of the member. -/
theorem staysBelow_member {name : String} (hname : IsOneLine name)
    (h : ∀ value, json.get? name = some value → check.StaysBelow value) :
    (member name check).StaysBelow json := by
  intro path violation hviolation
  unfold member at hviolation
  split at hviolation
  · rename_i value hvalue
    obtain ⟨below, hpath, hparts⟩ := h value hvalue _ _ hviolation
    exact ⟨name :: below, by rw [hpath, List.append_assoc]; rfl,
      List.forall_mem_cons.mpr ⟨hname, hparts⟩⟩
  · cases hviolation

/-- A check of items reports below their indexes. -/
theorem staysBelow_items (h : ∀ item ∈ json.items, check.StaysBelow item) :
    (items check).StaysBelow json := by
  intro path violation hviolation
  unfold items at hviolation
  generalize json.items = items, 0 = index at h hviolation
  induction items generalizing index with
  | nil => cases hviolation
  | cons item rest ih =>
    obtain ⟨hitem, hrest⟩ := List.forall_mem_cons.mp h
    rw [itemsFrom, List.mem_append] at hviolation
    rcases hviolation with hfound | hfound
    · obtain ⟨below, hpath, hparts⟩ := hitem _ _ hfound
      refine ⟨toString index :: below, by rw [hpath, List.append_assoc]; rfl, ?_⟩
      exact List.forall_mem_cons.mpr ⟨isOneLine_toString index, hparts⟩
    · exact ih (index + 1) hrest hfound

end Check

open Check

/-- A check for types of some kinds reports where the check itself does. -/
theorem staysBelow_whenKind {kinds : List TypeKind} {check : Check} {json : Json}
    (h : check.StaysBelow json) : (whenKind kinds check).StaysBelow json := by
  intro path violation hviolation
  unfold whenKind at hviolation
  split at hviolation
  · exact h path violation hviolation
  · cases hviolation

/-- The rules for the kinds of types stay below their place. -/
theorem staysBelow_kindRules (json : Json) : kindRules.StaysBelow json := by
  apply staysBelow_all
  simp only [List.forall_mem_cons]
  exact ⟨staysBelow_whenKind (staysBelow_required _), staysBelow_whenKind (staysBelow_required _),
    staysBelow_whenKind (staysBelow_required _),
    staysBelow_whenKind (staysBelow_member (by decide) fun _ _ => staysBelow_oneOf _),
    List.forall_mem_nil _⟩

/-- So does the check of what all types may have. -/
theorem staysBelow_typeAttributes (json : Json) : typeAttributes.StaysBelow json := by
  apply staysBelow_all
  simp only [List.forall_mem_cons]
  exact ⟨staysBelow_member (by decide) fun _ _ => staysBelow_oneOf _,
    staysBelow_member (by decide) fun _ _ => staysBelow_type _,
    staysBelow_member (by decide) fun _ _ => staysBelow_type _, List.forall_mem_nil _⟩

/-- The check of a type goes down to its parts, which are smaller. -/
theorem staysBelow_checkType (json : Json) : Check.StaysBelow checkType json := by
  have hpart (name : String) (hname : IsOneLine name) :
      (member name checkType).StaysBelow json :=
    staysBelow_member hname fun part hpart =>
      have := Json.sizeOf_lt_of_get? hpart
      staysBelow_checkType part
  intro path violation hviolation
  rw [checkType_eq] at hviolation
  refine staysBelow_all ?_ path violation hviolation
  simp only [List.forall_mem_cons]
  exact ⟨staysBelow_type _, staysBelow_typeAttributes json, hpart _ (by decide),
    hpart _ (by decide), hpart _ (by decide), staysBelow_required _, staysBelow_noOthers _,
    staysBelow_kindRules json, List.forall_mem_nil _⟩
termination_by sizeOf json

/-- The check of a name stays at its place. -/
theorem staysBelow_checkName (json : Json) : checkName.StaysBelow json := by
  apply staysBelow_all
  simp only [List.forall_mem_cons]
  exact ⟨staysBelow_type _, staysBelow_nonEmptyText, List.forall_mem_nil _⟩

/-- The check of a field stays below its place. -/
theorem staysBelow_checkField (json : Json) : checkField.StaysBelow json := by
  have htext {name : String} (hname : IsOneLine name) :
      (member name checkOptionalText).StaysBelow json :=
    staysBelow_member hname fun _ _ => staysBelow_type _
  have htag (value : Json) : (all [type [.integer, .null], notNegative]).StaysBelow value := by
    apply staysBelow_all
    simp only [List.forall_mem_cons]
    exact ⟨staysBelow_type _, staysBelow_notNegative, List.forall_mem_nil _⟩
  apply staysBelow_all
  simp only [List.forall_mem_cons]
  exact ⟨staysBelow_type _, staysBelow_member (by decide) fun value _ => staysBelow_checkName value,
    staysBelow_member (by decide) fun value _ => staysBelow_checkType value,
    staysBelow_member (by decide) fun value _ => htag value,
    staysBelow_member (by decide) fun _ _ => staysBelow_anything, htext (by decide),
    htext (by decide), staysBelow_member (by decide) fun _ _ => staysBelow_type _,
    staysBelow_required _, staysBelow_noOthers _, List.forall_mem_nil _⟩

/-- The check of encodings stays below its place. -/
theorem staysBelow_checkEncodings (json : Json) : checkEncodings.StaysBelow json := by
  apply staysBelow_all
  simp only [List.forall_mem_cons]
  exact ⟨staysBelow_type _, staysBelow_items fun _ _ => staysBelow_oneOf _,
    staysBelow_nonEmptyArray, staysBelow_unique, List.forall_mem_nil _⟩

/-- An array of values that satisfy a check. -/
theorem staysBelow_list {check : Check} (h : ∀ item, check.StaysBelow item) (json : Json) :
    (all [type [.array], items check]).StaysBelow json := by
  apply staysBelow_all
  simp only [List.forall_mem_cons]
  exact ⟨staysBelow_type _, staysBelow_items fun item _ => h item, List.forall_mem_nil _⟩

/-- The check of a struct stays below its place. -/
theorem staysBelow_checkStruct (json : Json) : checkStruct.StaysBelow json := by
  have hplain {name : String} (hname : IsOneLine name) (expected : List ValueType) :
      (member name (type expected)).StaysBelow json :=
    staysBelow_member hname fun _ _ => staysBelow_type _
  apply staysBelow_all
  simp only [List.forall_mem_cons]
  exact ⟨staysBelow_type _, staysBelow_member (by decide) fun value _ => staysBelow_checkName value,
    staysBelow_member (by decide) fun value _ => staysBelow_list staysBelow_checkField value,
    staysBelow_member (by decide) fun value _ => staysBelow_checkEncodings value,
    hplain (by decide) _, hplain (by decide) _, hplain (by decide) _, hplain (by decide) _,
    hplain (by decide) _, staysBelow_required _, staysBelow_noOthers _, List.forall_mem_nil _⟩

/-- The check of a module stays below its place. -/
theorem staysBelow_checkModule (json : Json) : checkModule.StaysBelow json := by
  apply staysBelow_all
  simp only [List.forall_mem_cons]
  exact ⟨staysBelow_type _, staysBelow_member (by decide) fun _ _ => staysBelow_type _,
    staysBelow_member (by decide) fun _ _ => staysBelow_type _,
    staysBelow_member (by decide) fun value _ => staysBelow_list staysBelow_checkStruct value,
    staysBelow_required _, staysBelow_noOthers _, List.forall_mem_nil _⟩

/-- All that is wrong with a value is at a place on one line. -/
theorem staysBelow_checkDocument (json : Json) : checkDocument.StaysBelow json := by
  apply staysBelow_all
  simp only [List.forall_mem_cons]
  exact ⟨staysBelow_type _,
    staysBelow_member (by decide) fun value _ => staysBelow_list staysBelow_checkModule value,
    staysBelow_required _, List.forall_mem_nil _⟩

/-- The line of a violation is one line. -/
theorem isOneLine_line {json : Json} {violation : Violation}
    (h : violation ∈ checkDocument [] json) : IsOneLine violation.line := by
  obtain ⟨below, hpath, hparts⟩ := staysBelow_checkDocument json [] violation h
  have hplace : IsOneLine ("/".intercalate violation.path) := by
    rw [hpath, List.nil_append]
    exact isOneLine_intercalate (by decide) hparts
  have hfront : IsOneLine "  at /" := by decide
  exact ((hfront.append hplace).append (b := ": ") (by decide)).append
    violation.cause.isOneLine_message

end Document

end SliceRecords
