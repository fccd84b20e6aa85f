import Mathlib.Data.String.Basic
import SliceRecords.Proofs.Document.Messages
import SliceRecords.Proofs.Sorting.Stability

/-!
# Reports on documents

A report has every violation once, in the order of their places, and those at one place in the order
in which they were found. What stands at the place of a struct has no part in what is reported
elsewhere: no rule on an enclosing level looks into a struct or shows it. Main statement:
`validate_isReport_and_local`.
-/

open scoped List

namespace SliceRecords.Document

open Text

namespace Path

/-- Places are ordered part by part as texts. -/
theorem atMost_iff {a b : Path} : a.atMost b = true ↔ a = b ∨ List.Lex (· < ·) a b := by
  induction a generalizing b with
  | nil => cases b <;> simp [atMost]
  | cons part a ih =>
    cases b with
    | nil => simp [atMost]
    | cons other b =>
      rw [atMost, List.cons_lex_cons_iff]
      by_cases hpart : part = other
      · simp only [hpart, if_true, ih, String.lt_irrefl, false_or, true_and, List.cons.injEq]
      · simp only [hpart, if_false, decide_eq_true_eq, false_and, or_false, List.cons.injEq,
          false_or]

/-- Places are compared as lists of texts are, part by part. -/
theorem atMost_iff_le {a b : Path} : a.atMost b = true ↔ a ≤ b := by
  rw [atMost_iff, le_iff_eq_or_lt]
  rfl

/-- Of two places one is at most the other. -/
theorem atMost_total (a b : Path) : a.atMost b = true ∨ b.atMost a = true := by
  rw [atMost_iff_le, atMost_iff_le]
  exact le_total a b

/-- The order of places is transitive. -/
theorem atMost_trans {a b c : Path} (hab : a.atMost b = true) (hbc : b.atMost c = true) :
    a.atMost c = true := by
  rw [atMost_iff_le] at *
  exact le_trans hab hbc

end Path

/-- The order of violations in a report. -/
def Violation.AtMost (a b : Violation) : Prop :=
  a.path.atMost b.path = true

/-- Whether one violation goes before another by its place can be decided. -/
instance : DecidableRel Violation.AtMost :=
  fun a b => inferInstanceAs (Decidable (a.path.atMost b.path = true))

/-- Violations are totally ordered by their places. -/
instance : Std.Total Violation.AtMost := ⟨fun a b => Path.atMost_total a.path b.path⟩

/-- The order of violations by their places is transitive. -/
instance : IsTrans Violation Violation.AtMost := ⟨fun _ _ _ => Path.atMost_trans⟩

/-- A report is sorted by places and keeps the order at each of them. -/
theorem report_eq (found : List Violation) :
    report found = found.mergeSort (Violation.AtMost · ·) := by
  have horder :
      (fun a b : Violation => a.path.atMost b.path) = fun a b => decide (Violation.AtMost a b) := by
    funext a b
    exact Bool.decide_eq_true.symm
  rw [report, horder]

/-- What a report says: each violation that was found once, by place, in the order of finding at
each place, and a line for each of them. -/
structure IsReport (found : List Violation) (error : ModelError) (reported : List Violation) :
    Prop where
  eq_mismatch : error = .mismatch reported
  ne_nil : reported ≠ []
  perm : reported ~ found
  ordered : reported.Pairwise fun a b => a.path = b.path ∨ List.Lex (· < ·) a.path b.path
  stable : ∀ place, (reported.filter fun v => v.path = place) = found.filter fun v => v.path = place
  lines_message :
    lines error.message = "Model does not match the expected schema:" :: reported.map Violation.line

/-- The message of a report is a heading and a line for each violation. -/
theorem message_mismatch (reported : List Violation) : (ModelError.mismatch reported).message =
    unlines ("Model does not match the expected schema:" :: reported.map Violation.line) :=
  rfl

/-- A value with violations fails validation. -/
theorem validate_of_ne_nil {json : Json} (h : violations json ≠ []) :
    validate json = .error (.mismatch (violations json)) := by
  unfold validate
  split
  · rename_i hnil
    exact (h hnil).elim
  · rfl

/-- A value that fails validation gets a complete report. -/
theorem isReport_of_validate {json : Json} {error : ModelError} (h : validate json = .error error) :
    IsReport (checkDocument [] json) error (violations json) := by
  have hsorted := List.pairwise_mergeSort' Violation.AtMost (checkDocument [] json)
  have hperm : violations json ~ checkDocument [] json := List.mergeSort_perm _ _
  have herror : error = .mismatch (violations json) := by
    unfold validate at h
    split at h
    · cases h
    · exact (Except.error.inj h).symm
  constructor
  · exact herror
  · intro hnil
    rw [validate, hnil] at h
    cases h
  · exact hperm
  · rw [violations, report_eq]
    exact hsorted.imp fun hatMost => Path.atMost_iff.mp hatMost
  · intro place
    rw [violations, report_eq]
    refine Sorting.filter_mergeSort fun a _ b _ ha hb => Path.atMost_iff.mpr (.inl ?_)
    rw [of_decide_eq_true ha, of_decide_eq_true hb]
  · have htitle : IsOneLine "Model does not match the expected schema:" := by decide +kernel
    have hlines : ∀ line ∈ (violations json).map Violation.line, IsOneLine line :=
      List.forall_mem_map.mpr fun violation hviolation => isOneLine_line (hperm.subset hviolation)
    rw [herror, message_mismatch]
    exact lines_unlines (List.cons_ne_nil _ _) (List.forall_mem_cons.mpr ⟨htitle, hlines⟩)

/-- A step down into a value: to a member of an object, or to an item of an array. -/
inductive Step where
  | member (name : String)
  | item (index : Nat)
  deriving DecidableEq, Repr

/-- The part of a place that a step is. -/
def Step.part : Step → String
  | member name => name
  | item index => toString index

/-- Two values that are equal but for what stands at the end of some steps. -/
inductive AgreeExcept : List Step → Json → Json → Prop where
  | here (a b : Json) : AgreeExcept [] a b
  | member {steps : List Step} {a b : Json} (name : String) (front back : Json.Members) :
    name ∉ front.names → AgreeExcept steps a b →
    AgreeExcept (.member name :: steps) (.object (front ++ (name, a) :: back))
      (.object (front ++ (name, b) :: back))
  | item {steps : List Step} {a b : Json} (front back : List Json) : AgreeExcept steps a b →
      AgreeExcept (.item front.length :: steps) (.array (front ++ a :: back))
        (.array (front ++ b :: back))

/-- The violations that are neither at a place nor below it. -/
def outside (place : Path) (found : List Violation) : List Violation :=
  found.filter fun v => ¬place <+: v.path

/-- What a check finds outside of a place does not depend on which of two values it is given. -/
def Check.IsLocal (check : Check) (place : Path) (a b : Json) : Prop :=
  ∀ path, outside (path ++ place) (check path a) = outside (path ++ place) (check path b)

/-- What is found outside of a place is found part by part. -/
theorem outside_append (place : Path) (found more : List Violation) :
    outside place (found ++ more) = outside place found ++ outside place more :=
  List.filter_append found more

namespace Check

variable {check : Check} {place : Path} {a b : Json}

/-- A check that finds the same in two values does not tell them apart anywhere. -/
theorem isLocal_of_eq (h : ∀ path, check path a = check path b) : check.IsLocal place a b := by
  intro path
  rw [h path]

/-- Nothing is found outside of the place of the value itself. -/
theorem isLocal_here (h : ∀ json, check.StaysBelow json) : check.IsLocal [] a b := by
  have hnone (json : Json) (path : Path) : outside (path ++ []) (check path json) = [] := by
    rw [outside, List.filter_eq_nil_iff]
    intro violation hviolation
    obtain ⟨below, hpath, _⟩ := h json path violation hviolation
    simp [hpath]
  intro path
  rw [hnone, hnone]

/-- Checks that differ at a place alone do so one after the other. -/
theorem isLocal_all {checks : List Check} (h : ∀ check ∈ checks, check.IsLocal place a b) :
    (all checks).IsLocal place a b := by
  intro path
  induction checks with
  | nil => rfl
  | cons check rest ih =>
    obtain ⟨hcheck, hrest⟩ := List.forall_mem_cons.mp h
    have hall (json : Json) :
        all (check :: rest) path json = check path json ++ all rest path json :=
      List.flatMap_cons
    rw [hall, hall, outside_append, outside_append, hcheck path, ih hrest]

/-- The items of an array are checked part by part, with their own indexes. -/
theorem itemsFrom_append (path : Path) (index : Nat) (front back : List Json) :
    itemsFrom check path index (front ++ back) =
      itemsFrom check path index front ++ itemsFrom check path (index + front.length) back := by
  induction front generalizing index with
  | nil => rfl
  | cons item front ih =>
    rw [List.cons_append, itemsFrom, ih, itemsFrom, List.append_assoc, List.length_cons,
      Nat.add_assoc, Nat.add_comm 1]

/-- The items beside one that differs are checked as they were. -/
theorem isLocal_items (front back : List Json) (h : check.IsLocal place a b) :
    (items check).IsLocal (toString front.length :: place) (.array (front ++ a :: back))
      (.array (front ++ b :: back)) := by
  intro path
  have hplace :
      path ++ toString front.length :: place = path ++ [toString front.length] ++ place := by simp
  have hitems (item : Json) : items check path (.array (front ++ item :: back)) =
      itemsFrom check path 0 front ++ (check (path ++ [toString front.length]) item ++
        itemsFrom check path (front.length + 1) back) := by
    rw [items, Json.items, itemsFrom_append, itemsFrom, Nat.zero_add]
  rw [hitems, hitems, hplace]
  simp only [outside_append, h (path ++ [toString front.length])]

/-- An array with another item is checked in the same way outside of this item. -/
theorem isLocal_list (front back : List Json) (h : check.IsLocal place a b) :
    (all [type [.array], items check]).IsLocal (toString front.length :: place)
      (.array (front ++ a :: back)) (.array (front ++ b :: back)) := by
  apply isLocal_all
  simp only [List.forall_mem_cons]
  exact ⟨isLocal_of_eq fun _ => rfl, isLocal_items front back h, List.forall_mem_nil _⟩

section Objects

variable {name : String} {front back : Json.Members}

/-- The other members of an object are the same ones. -/
theorem get?_object_of_ne {other : String} (h : other ≠ name) :
    (Json.object (front ++ (name, a) :: back)).get? other =
      (Json.object (front ++ (name, b) :: back)).get? other := by
  simp [Json.get?, Json.Members.get?, List.find?_append, h.symm]

/-- A check of another member does not notice the difference. -/
theorem isLocal_member_of_ne {other : String} (h : other ≠ name) :
    (member other check).IsLocal place (.object (front ++ (name, a) :: back))
      (.object (front ++ (name, b) :: back)) :=
  isLocal_of_eq fun path => by rw [member, member, get?_object_of_ne h]

/-- What is found in a member that differs is outside of a place in it exactly if it is so
for the member itself. -/
theorem isLocal_member (hname : name ∉ front.names) (h : check.IsLocal place a b) :
    (member name check).IsLocal (name :: place) (.object (front ++ (name, a) :: back))
      (.object (front ++ (name, b) :: back)) := by
  intro path
  have hmember (value : Json) : member name check path (.object (front ++ (name, value) :: back)) =
      check (path ++ [name]) value := by
    have hfront : front.find? (fun member => member.1 = name) = none := by
      rw [List.find?_eq_none]
      intro entry hentry
      simp only [decide_eq_true_eq]
      rintro rfl
      exact hname (List.mem_map_of_mem hentry)
    simp [member, Json.get?, Json.Members.get?, List.find?_append, hfront]
  have hplace : path ++ name :: place = path ++ [name] ++ place := by simp
  rw [hmember, hmember, hplace]
  exact h (path ++ [name])

/-- Nor does a check for members that are missing. -/
theorem isLocal_required (names : List String) :
    (required names).IsLocal place (.object (front ++ (name, a) :: back))
      (.object (front ++ (name, b) :: back)) := by
  have habsent (other : String) : (Json.Members.get? (front ++ (name, a) :: back) other).isNone =
      (Json.Members.get? (front ++ (name, b) :: back) other).isNone := by
    by_cases h : other = name
    · simp [Json.Members.get?, List.find?_append, h]
    · exact congrArg Option.isNone (get?_object_of_ne h)
  exact isLocal_of_eq fun path => by simp only [required, habsent]

/-- Nor does a check for members that are unknown. -/
theorem isLocal_noOthers (names : List String) :
    (noOthers names).IsLocal place (.object (front ++ (name, a) :: back))
      (.object (front ++ (name, b) :: back)) := by
  have hnames : Json.Members.names (front ++ (name, a) :: back) =
      Json.Members.names (front ++ (name, b) :: back) := by simp [Json.Members.names]
  exact isLocal_of_eq fun path => by simp only [noOthers, hnames]

end Objects

end Check

open Check

/-- The struct at an index of a module, by steps from the document. -/
def structSteps (moduleIndex structIndex : Nat) : List Step :=
  [.member "modules", .item moduleIndex, .member "structs", .item structIndex]

/-- A module with other structs is checked in the same way outside of these. -/
theorem isLocal_checkModule {place : Path} {a b : Json} {front back : Json.Members}
    (hname : "structs" ∉ front.names)
    (h : (all [type [.array], items checkStruct]).IsLocal place a b) :
    checkModule.IsLocal ("structs" :: place) (.object (front ++ ("structs", a) :: back))
      (.object (front ++ ("structs", b) :: back)) := by
  apply isLocal_all
  simp only [List.forall_mem_cons]
  exact ⟨isLocal_of_eq fun _ => rfl, isLocal_member_of_ne (by decide),
    isLocal_member_of_ne (by decide), isLocal_member hname h, isLocal_required _,
    isLocal_noOthers _, List.forall_mem_nil _⟩

/-- A document with other modules is checked in the same way outside of these. -/
theorem isLocal_checkDocument {place : Path} {a b : Json} {front back : Json.Members}
    (hname : "modules" ∉ front.names)
    (h : (all [type [.array], items checkModule]).IsLocal place a b) :
    checkDocument.IsLocal ("modules" :: place) (.object (front ++ ("modules", a) :: back))
      (.object (front ++ ("modules", b) :: back)) := by
  apply isLocal_all
  simp only [List.forall_mem_cons]
  exact ⟨isLocal_of_eq fun _ => rfl, isLocal_member hname h, isLocal_required _,
    List.forall_mem_nil _⟩

/-- Two values that differ in one struct have the same violations outside of the
struct, in the same order. -/
theorem outside_checkDocument {i j : Nat} {first second : Json}
    (h : AgreeExcept (structSteps i j) first second) :
    outside ((structSteps i j).map Step.part) (checkDocument [] first) =
      outside ((structSteps i j).map Step.part) (checkDocument [] second) := by
  rw [structSteps] at h
  cases h with
  | member _ front back hmodules h =>
    cases h with
    | item before after h =>
      cases h with
      | member _ front' back' hstructs h =>
        cases h with
        | item before' after' h =>
          exact isLocal_checkDocument hmodules (isLocal_list before after (isLocal_checkModule
            hstructs (isLocal_list before' after' (isLocal_here staysBelow_checkStruct)))) []

/-- What a document reports outside of a place is the report of what is found there. -/
theorem outside_violations (place : Path) (json : Json) :
    outside place (violations json) = report (outside place (checkDocument [] json)) := by
  rw [violations, report_eq, report_eq]
  exact (Sorting.mergeSort_filter _ _).symm

/-- A value that fails validation is reported with a line for each violation, in the order of
places, and in the order of the rules at one place. Two values that differ in one struct have
reports that agree outside of the struct: the same violations in the same order. -/
theorem validate_isReport_and_local :
    (∀ json error, validate json = .error error →
      IsReport (checkDocument [] json) error (violations json)) ∧
    ∀ i j first second, AgreeExcept (structSteps i j) first second →
      outside ((structSteps i j).map Step.part) (violations first) =
        outside ((structSteps i j).map Step.part) (violations second) := by
  refine ⟨fun json error h => isReport_of_validate h, fun i j first second h => ?_⟩
  rw [outside_violations, outside_violations, outside_checkDocument h]

/-- A document whose module has a number for a name and an empty object for its first struct. -/
def brokenDocument (secondStruct : Json) : Json :=
  .object [("modules", .array [.object
    [("name", .number (.integer 3)), ("structs", .array [.object [], secondStruct])]])]

/-- What is wrong with the name and the first struct is reported whatever the second struct is. -/
theorem validate_isReport_and_local_broken :
    (∃ error, validate (brokenDocument .null) = .error error ∧
       IsReport (checkDocument [] (brokenDocument .null)) error
         (violations (brokenDocument .null))) ∧
    (outside ((structSteps 0 1).map Step.part)
      (violations (brokenDocument (.object [("name", .string "")])))).map Violation.line =
      ["  at /modules/0/name: 3 is not of type 'string'",
       "  at /modules/0/structs/0: 'name' is a required property",
       "  at /modules/0/structs/0: 'fields' is a required property",
       "  at /modules/0/structs/0: 'encodings' is a required property"] := by
  have hagree : AgreeExcept (structSteps 0 1) (brokenDocument (.object [("name", .string "")]))
      (brokenDocument .null) :=
    .member "modules" [] [] List.not_mem_nil <| .item [] [] <|
      .member "structs" [("name", .number (.integer 3))] [] (by decide) <|
      .item [.object []] [] (.here _ _)
  have hfails : violations (brokenDocument .null) ≠ [] := by
    rw [ne_eq, violations_eq_nil_iff, ← List.isEmpty_iff]
    decide +kernel
  constructor
  · have herror := validate_of_ne_nil hfails
    exact ⟨_, herror, validate_isReport_and_local.1 _ _ herror⟩
  · have hsorted : (outside ((structSteps 0 1).map Step.part)
        (checkDocument [] (brokenDocument .null))).Pairwise (decide <| Violation.AtMost · ·) := by
      decide +kernel
    rw [validate_isReport_and_local.2 0 1 _ _ hagree, outside_violations, report_eq,
      List.mergeSort_of_pairwise hsorted]
    decide +kernel

end SliceRecords.Document
