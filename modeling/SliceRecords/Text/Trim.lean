import SliceRecords.Text.Blank

/-!
# Trimming and splitting

Removing characters at the ends of a text, and cutting a text at a separator. Each operation is a
function on lists of characters with a version for strings beside it.
-/

namespace SliceRecords.Text

/-- The list without its longest final part of elements that satisfy `p`. -/
def dropTrailing {α : Type} (p : α → Bool) (items : List α) : List α :=
  (items.reverse.dropWhile p).reverse

/-- The list without its longest first and final parts of elements that satisfy `p`. -/
def dropEnds {α : Type} (p : α → Bool) (items : List α) : List α :=
  dropTrailing p (items.dropWhile p)

/-- A text without the characters of `p` at its start. -/
def trimStart (p : Char → Bool) (text : String) : String :=
  String.ofList (text.toList.dropWhile p)

/-- A text without the characters of `p` at its end. -/
def trimEnd (p : Char → Bool) (text : String) : String :=
  String.ofList (dropTrailing p text.toList)

/-- A text without the characters of `p` at both ends. -/
def trim (p : Char → Bool) (text : String) : String :=
  String.ofList (dropEnds p text.toList)

/-- Cuts a list at every separator; `n` separators give `n + 1` parts. -/
def split {α : Type} [DecidableEq α] (separator : α) : List α → List (List α)
  | [] => [[]]
  | c :: rest =>
    if c = separator then [] :: split separator rest
    else
      match split separator rest with
      | [] => [[c]]
      | part :: parts => (c :: part) :: parts

/-- The parts of a text between separators. -/
def splitAt (separator : Char) (text : String) : List String :=
  (split separator text.toList).map String.ofList

/-- The lines of a text: its parts between line feeds. -/
def lines (text : String) : List String :=
  splitAt '\n' text

/-- Lines put back into one text with a line feed between neighbours. -/
def unlines (parts : List String) : String :=
  "\n".intercalate parts

/-- What is left after dropping is no longer than what there was. -/
theorem length_dropWhile_le {α : Type} (p : α → Bool) (items : List α) :
    (items.dropWhile p).length ≤ items.length :=
  (List.dropWhile_sublist p).length_le

/-- Splitting never gives the empty list of parts. -/
theorem split_ne_nil {α : Type} [DecidableEq α] (separator : α) (items : List α) :
    split separator items ≠ [] := by
  induction items with
  | nil => simp [split]
  | cons c rest ih =>
    rw [split]
    split
    · simp
    · cases split separator rest <;> simp

end SliceRecords.Text
