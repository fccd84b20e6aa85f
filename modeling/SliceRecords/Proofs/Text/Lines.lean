import Mathlib.Data.List.TakeWhile
import SliceRecords.Text.Trim

/-!
# Lines and ends of texts

What cutting a text into lines and trimming it keep: the lines put back together are the text,
and trimming takes nothing away but the elements it is asked to. Main statements:
`unlines_lines` and `flatMap_dropEnds`.
-/

namespace SliceRecords.Text

variable {α β : Type}

/-- Dropping at the end leaves a first part of the list and drops only elements that satisfy `p`. -/
theorem exists_dropTrailing_append (p : α → Bool) (items : List α) :
    ∃ dropped, dropTrailing p items ++ dropped = items ∧ ∀ item ∈ dropped, p item = true := by
  refine ⟨(items.reverse.takeWhile p).reverse, ?_, ?_⟩
  · rw [dropTrailing, ← List.reverse_append, List.takeWhile_append_dropWhile, List.reverse_reverse]
  · intro item hitem
    exact List.mem_takeWhile_imp (List.mem_reverse.mp hitem)

/-- Dropping at both ends leaves an inner part of the list and drops only
elements that satisfy `p`. -/
theorem exists_append_dropEnds_append (p : α → Bool) (items : List α) :
    ∃ first last, first ++ dropEnds p items ++ last = items ∧
      ∀ item ∈ first ++ last, p item = true := by
  obtain ⟨last, hlast, hdropped⟩ := exists_dropTrailing_append p (items.dropWhile p)
  refine ⟨items.takeWhile p, last, ?_, ?_⟩
  · rw [dropEnds, List.append_assoc, hlast, List.takeWhile_append_dropWhile]
  · exact List.forall_mem_append.mpr ⟨fun _ => List.mem_takeWhile_imp, hdropped⟩

/-- A function that has nothing to say about what is dropped at both ends says the
same of what is left. -/
theorem flatMap_dropEnds {p : α → Bool} {f : α → List β} (h : ∀ item, p item = true → f item = [])
    (items : List α) : (dropEnds p items).flatMap f = items.flatMap f := by
  obtain ⟨first, last, happend, hdropped⟩ := exists_append_dropEnds_append p items
  obtain ⟨hfirst, hlast⟩ := List.forall_mem_append.mp hdropped
  have hnil {dropped : List α} (hp : ∀ item ∈ dropped, p item = true) : dropped.flatMap f = [] :=
    List.flatMap_eq_nil_iff.mpr fun item hitem => h item (hp item hitem)
  calc (dropEnds p items).flatMap f
      = first.flatMap f ++ (dropEnds p items).flatMap f ++ last.flatMap f := by
        rw [hnil hfirst, hnil hlast, List.nil_append, List.append_nil]
    _ = items.flatMap f := by
        rw [← List.flatMap_append, ← List.flatMap_append, happend]

/-- The parts of a list with the separator between them again are the list. -/
theorem intercalate_split [DecidableEq α] (separator : α) (items : List α) :
    [separator].intercalate (split separator items) = items := by
  induction items with
  | nil => simp [split]
  | cons item rest ih =>
    rw [split]
    split
    · rename_i hseparator
      rw [List.intercalate_cons_of_ne_nil (split_ne_nil separator rest), ih, hseparator]
      rfl
    · cases hparts : split separator rest with
      | nil => exact absurd hparts (split_ne_nil separator rest)
      | cons part parts =>
        rw [hparts] at ih
        simp only [List.intercalate_cons_cons_left, ih]

/-- The characters of lines, with line feeds between them. -/
theorem toList_unlines (parts : List String) :
    (unlines parts).toList = ['\n'].intercalate (parts.map String.toList) := by
  rw [unlines, String.toList_intercalate]
  rfl

/-- The lines of a text are its characters, cut at line feeds. -/
theorem map_toList_lines (text : String) :
    (lines text).map String.toList = split '\n' text.toList := by
  simp [lines, splitAt, Function.comp_def]

/-- The lines of a text put back together are the text. -/
theorem unlines_lines (text : String) : unlines (lines text) = text := by
  rw [← String.toList_inj, toList_unlines, map_toList_lines, intercalate_split]

end SliceRecords.Text
