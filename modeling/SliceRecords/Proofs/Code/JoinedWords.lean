import Mathlib.Data.List.Basic
import SliceRecords.Proofs.Code.Names

/-!
# Joined words, character by character

Where a name is cut into words matters less than it seems: a word that begins behind another word
begins with no small letter. So the words joined with a capital each are the letters and digits
of the name, with a capital at the start and behind every character that is left out. Main
statement: `pascalCase_eq`.
-/

namespace SliceRecords.Code

/-- All but the small letters are their own capitals. -/
theorem toUpper_eq_self_iff {c : Char} : c.toUpper = c ↔ c.isLower = false := by
  constructor
  · intro h
    rw [← h, Text.isLower_toUpper]
  · intro h
    exact Text.toUpper_of_not_isLower (by simp [h])

/-- A text that begins with no small letter. -/
def StartsHigh (text : List Char) : Prop :=
  ∀ c, text.head? = some c → c.isLower = false

/-- The empty text begins with no letter at all. -/
theorem startsHigh_nil : StartsHigh [] := by
  simp [StartsHigh]

/-- A text begins with no small letter exactly if its first character is none. -/
theorem startsHigh_cons {c : Char} {rest : List Char} :
    StartsHigh (c :: rest) ↔ c.isLower = false := by
  simp [StartsHigh]

/-- What remains behind the small letters and digits of a word begins with no small letter. -/
theorem startsHigh_dropWhile (name : List Char) : StartsHigh (name.dropWhile continuesWord) := by
  intro c hc
  have hhead := List.head?_dropWhile_not continuesWord name
  simp only [hc, continuesWord, Bool.or_eq_false_iff] at hhead
  exact hhead.1

/-- A word that begins with no small letter is as it should be. -/
theorem capitalize_eq_self {word : List Char} (h : StartsHigh word) : capitalize word = word := by
  cases word with
  | nil => rfl
  | cons c rest => rw [capitalize, toUpper_eq_self_iff.mpr (h c rfl)]

/-- The letters and digits of a text, where a small letter becomes a capital unless the character
directly before it is kept too. The flag says this of the first character. -/
def joined (kept : Bool) : List Char → List Char
  | [] => []
  | c :: rest =>
    if c.isAlphanum then (if kept then c else c.toUpper) :: joined true rest
    else joined false rest

/-- Behind a kept character, letters and digits stay as they are. -/
theorem joined_true_append {run : List Char} (h : ∀ c ∈ run, c.isAlphanum = true)
    (rest : List Char) : joined true (run ++ rest) = run ++ joined true rest := by
  induction run with
  | nil => rfl
  | cons c run ih =>
    obtain ⟨hc, hrun⟩ := List.forall_mem_cons.mp h
    rw [List.cons_append, joined, if_pos hc, if_pos rfl, ih hrun, List.cons_append]

/-- What begins with no small letter does not depend on what is before it. -/
theorem joined_true_of_startsHigh {rest : List Char} (h : StartsHigh rest) :
    joined true rest = joined false rest := by
  cases rest with
  | nil => rfl
  | cons c rest => simp [joined, toUpper_eq_self_iff.mpr (startsHigh_cons.mp h)]

/-- A word in front of what begins with no small letter gets its capital. -/
theorem joined_append {word rest : List Char} (hword : ∀ c ∈ word, c.isAlphanum = true)
    (hrest : StartsHigh rest) :
    joined false (word ++ rest) = capitalize word ++ joined false rest := by
  cases word with
  | nil => rfl
  | cons c run =>
    obtain ⟨hc, hrun⟩ := List.forall_mem_cons.mp hword
    rw [List.cons_append, joined, if_pos hc, if_neg Bool.false_ne_true, joined_true_append hrun,
      joined_true_of_startsHigh hrest, capitalize, List.cons_append]

/-- Of a run of capitals, the last one may begin a word of its own. -/
theorem joined_capitals_append {capitals : List Char} (hne : capitals ≠ [])
    (hupper : ∀ c ∈ capitals, c.isUpper = true) (after : List Char) :
    joined false (capitals ++ after) = capitalize capitals.dropLast ++
      (capitalize (capitals.getLast hne :: after.takeWhile continuesWord) ++
        joined false (after.dropWhile continuesWord)) := by
  have hlast := hupper _ (List.getLast_mem hne)
  have hfront : ∀ c ∈ capitals.dropLast, c.isAlphanum = true := fun c hc =>
    isAlphanum_of_isUpper (hupper c (List.dropLast_subset capitals hc))
  have hword : ∀ c ∈ capitals.getLast hne :: after.takeWhile continuesWord, c.isAlphanum = true :=
    List.forall_mem_cons.mpr ⟨isAlphanum_of_isUpper hlast, fun _ hc =>
      isAlphanum_of_continuesWord (List.mem_takeWhile_imp hc)⟩
  have hhigh : StartsHigh (capitals.getLast hne :: after.takeWhile continuesWord ++
      after.dropWhile continuesWord) :=
    startsHigh_cons.mpr (Text.isLower_eq_false_of_isUpper hlast)
  have hcut : capitals ++ after = capitals.dropLast ++
      (capitals.getLast hne :: after.takeWhile continuesWord ++ after.dropWhile continuesWord) := by
    rw [List.cons_append, List.takeWhile_append_dropWhile, ← List.singleton_append,
      ← List.append_assoc, List.dropLast_concat_getLast]
  rw [hcut, joined_append hfront hhigh, joined_append hword (startsHigh_dropWhile after)]

/-- The words of a name joined with a capital each. -/
theorem flatMap_capitalize_words (name : List Char) :
    (words name).flatMap capitalize = joined false name := by
  have hrun {run : Char → Bool} {c : Char} {rest : List Char} (hc : run c = true) :
      ∀ d ∈ c :: rest.takeWhile run, run d = true :=
    List.forall_mem_cons.mpr ⟨hc, fun _ hd => List.mem_takeWhile_imp hd⟩
  fun_induction words name with
  | case1 => rfl
  | case2 c rest hupper more after _ capitals word following hmore ih =>
    have hname : c :: rest = capitals ++ after :=
      congrArg (c :: ·) List.takeWhile_append_dropWhile.symm
    have hfront : capitals.dropLast = [] := by
      simp only [capitals, List.isEmpty_iff.mp hmore, List.dropLast_singleton]
    rw [hname, joined_capitals_append (List.cons_ne_nil c more) (hrun hupper), hfront,
      List.flatMap_cons, ih]
    rfl
  | case3 c rest hupper more after _ capitals word following _ ih =>
    have hname : c :: rest = capitals ++ after :=
      congrArg (c :: ·) List.takeWhile_append_dropWhile.symm
    rw [hname, joined_capitals_append (List.cons_ne_nil c more) (hrun hupper), List.flatMap_cons,
      List.flatMap_cons, ih]
  | case4 c rest hupper more after hafter ih =>
    have hname : c :: rest = c :: more ++ after :=
      congrArg (c :: ·) List.takeWhile_append_dropWhile.symm
    have hhigh : StartsHigh after := fun d hd => by simpa [hd] using hafter
    have hword : ∀ d ∈ c :: more, d.isAlphanum = true := fun d hd =>
      isAlphanum_of_isUpper (hrun hupper d hd)
    rw [hname, joined_append hword hhigh, List.flatMap_cons, ih]
  | case5 c rest _ hcontinues ih =>
    have hname : c :: rest = c :: rest.takeWhile continuesWord ++ rest.dropWhile continuesWord :=
      congrArg (c :: ·) List.takeWhile_append_dropWhile.symm
    have hword : ∀ d ∈ c :: rest.takeWhile continuesWord, d.isAlphanum = true := fun d hd =>
      isAlphanum_of_continuesWord (hrun hcontinues d hd)
    rw [hname, joined_append hword (startsHigh_dropWhile rest), List.flatMap_cons, ih]
  | case6 c rest hupper hcontinues ih =>
    rw [joined, if_neg (isAlphanum_of_not_continuesWord hupper hcontinues), ih]

/-- A letter or digit stays one as a capital. -/
theorem isAlphanum_toUpper {c : Char} (h : c.isAlphanum = true) : c.toUpper.isAlphanum = true := by
  by_cases hlower : c.isLower = true
  · have halpha : c.isAlpha = true := by rw [Text.isAlpha_eq, hlower, Bool.or_true]
    exact isAlphanum_of_isUpper (Text.isUpper_toUpper halpha)
  · rwa [Text.toUpper_of_not_isLower hlower]

/-- Only letters and digits are kept. -/
theorem isAlphanum_of_mem_joined {kept : Bool} {name : List Char} {d : Char}
    (h : d ∈ joined kept name) : d.isAlphanum = true := by
  induction name generalizing kept with
  | nil => cases h
  | cons c rest ih =>
    rw [joined] at h
    split at h
    · rename_i hc
      rcases List.mem_cons.mp h with rfl | hrest
      · split
        · exact hc
        · exact isAlphanum_toUpper hc
      · exact ih hrest
    · exact ih h

/-- The first letter that is kept is no small one. -/
theorem startsHigh_joined (name : List Char) : StartsHigh (joined false name) := by
  induction name with
  | nil => exact startsHigh_nil
  | cons c rest ih =>
    rw [joined]
    split
    · exact startsHigh_cons.mpr (Text.isLower_toUpper c)
    · exact ih

/-- Joined words are no longer than the name that they come from. -/
theorem length_joined_le (kept : Bool) (name : List Char) :
    (joined kept name).length ≤ name.length := by
  induction name generalizing kept with
  | nil => exact Nat.le_refl _
  | cons c rest ih =>
    rw [joined]
    split
    · exact Nat.succ_le_succ (ih true)
    · exact Nat.le_succ_of_le (ih false)

/-- Joining changes nothing in letters and digits that begin with no small
letter, and in nothing else. -/
theorem joined_eq_self_iff {name : List Char} :
    joined false name = name ↔ (∀ c ∈ name, c.isAlphanum = true) ∧ StartsHigh name := by
  constructor
  · intro h
    rw [← h]
    exact ⟨fun _ => isAlphanum_of_mem_joined, startsHigh_joined name⟩
  · rintro ⟨hname, hstart⟩
    have happend := joined_append hname startsHigh_nil
    rwa [capitalize_eq_self hstart, List.append_nil, joined, List.append_nil] at happend

/-- A name without words is kept as it is. -/
theorem pascalCase_eq_joined (name : String) :
    pascalCase name =
      if name.toList.any Char.isAlphanum then String.ofList (joined false name.toList)
      else name := by
  have hnone : words name.toList = [] ↔ ¬name.toList.any Char.isAlphanum = true := by
    simp [words_eq_nil_iff]
  unfold pascalCase
  split
  · rename_i hwords
    rw [if_neg (hnone.mp hwords)]
  · rename_i hwords
    rw [if_pos (not_not.mp (mt hnone.mpr hwords)), flatMap_capitalize_words]

/-- A name is in words with a capital each if it has only letters and digits and begins with no
small letter, or has none of them. -/
theorem pascalCase_eq_self_iff {name : String} :
    pascalCase name = name ↔
      ((∀ c ∈ name.toList, c.isAlphanum = true) ∧ StartsHigh name.toList) ∨
        ∀ c ∈ name.toList, c.isAlphanum = false := by
  have hnone : (∀ c ∈ name.toList, c.isAlphanum = false) ↔
      ¬name.toList.any Char.isAlphanum = true := by
    simp
  rw [pascalCase_eq_joined, hnone]
  by_cases hany : name.toList.any Char.isAlphanum = true
  · rw [if_pos hany, ← String.toList_inj, String.toList_ofList, joined_eq_self_iff,
      or_iff_left (not_not.mpr hany)]
  · rw [if_neg hany]
    exact iff_of_true rfl (.inr hany)

/-- A name that has letters or digits, of seven bits, is reduced to these, a small letter at the
start or directly behind a character that is left out as a capital; another name is kept as it is.
The words that the name is cut into have all its letters and digits, in order, and joining them
again changes nothing. -/
theorem pascalCase_eq (name : String) :
    (pascalCase name =
      if name.toList.any Char.isAlphanum then String.ofList (joined false name.toList) else name) ∧
    (words name.toList).flatten = name.toList.filter Char.isAlphanum ∧
    pascalCase (pascalCase name) = pascalCase name := by
  have hjoined := pascalCase_eq_joined name
  refine ⟨hjoined, flatten_words name.toList, ?_⟩
  by_cases hany : name.toList.any Char.isAlphanum = true
  · rw [if_pos hany] at hjoined
    rw [hjoined, pascalCase_eq_self_iff, String.toList_ofList]
    exact .inl ⟨fun _ => isAlphanum_of_mem_joined, startsHigh_joined name.toList⟩
  · rw [if_neg hany] at hjoined
    rw [hjoined, hjoined]

/-- An acronym, a digit within a word and two kinds of separators. -/
example : pascalCase "HTTPServer_port2x-Id" = "HTTPServerPort2xId" := by
  rw [pascalCase_eq_joined]
  decide +kernel

end SliceRecords.Code
