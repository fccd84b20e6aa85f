import Mathlib.Data.List.TakeWhile
import SliceRecords.Code.ScopedName
import SliceRecords.Proofs.Text.Letters

/-!
# Parts of names

A scoped name has a last part, and no word of a name is empty, so an identifier can
always be made from them. The words are the letters and digits of a name, in order, and
nothing else: `flatten_words`.
-/

namespace SliceRecords.Code

/-- A scoped name has at least one part. -/
theorem scopes_ne_nil (name : String) : scopes name ≠ [] := by
  rw [scopes, ne_eq, List.map_eq_nil_iff]
  exact splitScopes_ne_nil _

/-- The local name of a scoped name is its last part. -/
theorem getLast?_scopes (name : String) : (scopes name).getLast? = some (localName name) := by
  obtain ⟨last, hlast⟩ :=
    List.getLast?_isSome.mpr (scopes_ne_nil name) |> Option.isSome_iff_exists.mp
  rw [localName, hlast, Option.getD_some]

/-- A word of a name has a first letter. -/
theorem ne_nil_of_mem_words {name word : List Char} (h : word ∈ words name) : word ≠ [] := by
  fun_induction words name with
  | case1 => cases h
  | case2 c rest _ more after _ capitals first following _ ih =>
    rcases List.mem_cons.mp h with rfl | hfollowing
    · exact List.cons_ne_nil _ _
    · exact ih hfollowing
  | case3 c rest _ more after _ capitals first following hmore ih =>
    rcases List.mem_cons.mp h with rfl | hlater
    · -- The capitals in front are more than one, so some are left without the last.
      obtain ⟨second, others, hcons⟩ := List.exists_cons_of_ne_nil (mt List.isEmpty_iff.mpr hmore)
      simp [capitals, hcons]
    · rcases List.mem_cons.mp hlater with rfl | hfollowing
      · exact List.cons_ne_nil _ _
      · exact ih hfollowing
  | case4 c rest _ more after _ ih =>
    rcases List.mem_cons.mp h with rfl | hfollowing
    · exact List.cons_ne_nil _ _
    · exact ih hfollowing
  | case5 c rest _ _ ih =>
    rcases List.mem_cons.mp h with rfl | hfollowing
    · exact List.cons_ne_nil _ _
    · exact ih hfollowing
  | case6 c rest _ _ ih => exact ih h

/-- A capital is a letter. -/
theorem isAlphanum_of_isUpper {c : Char} (h : c.isUpper = true) : c.isAlphanum = true := by
  simp [Text.isAlphanum_eq, h]

/-- What continues a word is a letter or a digit. -/
theorem isAlphanum_of_continuesWord {c : Char} (h : continuesWord c = true) :
    c.isAlphanum = true := by
  rw [continuesWord, Bool.or_eq_true] at h
  rcases h with hlower | hdigit
  · simp [Text.isAlphanum_eq, hlower]
  · simp [Text.isAlphanum_eq, hdigit]

/-- What neither begins nor continues a word separates words. -/
theorem isAlphanum_of_not_continuesWord {c : Char} (hupper : ¬c.isUpper = true)
    (hcontinues : ¬continuesWord c = true) : ¬c.isAlphanum = true := by
  simp only [continuesWord, Bool.or_eq_true, not_or, Bool.not_eq_true] at hcontinues hupper
  simp [Text.isAlphanum_eq, hupper, hcontinues]

/-- A run of letters or digits in front is kept as a whole. -/
theorem filter_isAlphanum_eq (run : Char → Bool) (h : ∀ {c}, run c = true → c.isAlphanum = true)
    (name : List Char) :
    name.filter Char.isAlphanum =
      name.takeWhile run ++ (name.dropWhile run).filter Char.isAlphanum := by
  have hrun : (name.takeWhile run).filter Char.isAlphanum = name.takeWhile run :=
    List.filter_eq_self.mpr fun _ hc => h (List.mem_takeWhile_imp hc)
  calc name.filter Char.isAlphanum
      = (name.takeWhile run ++ name.dropWhile run).filter Char.isAlphanum := by
        rw [List.takeWhile_append_dropWhile]
    _ = name.takeWhile run ++ (name.dropWhile run).filter Char.isAlphanum := by
        rw [List.filter_append, hrun]

/-- The words of a name are its letters and digits, of seven bits, in order. -/
theorem flatten_words (name : List Char) : (words name).flatten = name.filter Char.isAlphanum := by
  fun_induction words name with
  | case1 => rfl
  | case2 c rest hupper more after _ capitals word following hmore ih =>
    have hmoreNil : more = [] := List.isEmpty_iff.mp hmore
    have hword : word = c :: after.takeWhile continuesWord := by simp [word, capitals, hmoreNil]
    have hrest : rest.filter Char.isAlphanum = more ++ after.filter Char.isAlphanum :=
      filter_isAlphanum_eq Char.isUpper isAlphanum_of_isUpper rest
    rw [List.filter_cons_of_pos (isAlphanum_of_isUpper hupper), hrest, hmoreNil, List.nil_append,
      filter_isAlphanum_eq continuesWord isAlphanum_of_continuesWord, List.flatten_cons, hword, ih]
    rfl
  | case3 c rest hupper more after _ capitals word following _ ih =>
    have hcapitals : capitals.dropLast ++ [capitals.getLast (by simp [capitals])] = c :: more :=
      List.dropLast_concat_getLast _
    have hrest : rest.filter Char.isAlphanum = more ++ after.filter Char.isAlphanum :=
      filter_isAlphanum_eq Char.isUpper isAlphanum_of_isUpper rest
    rw [List.filter_cons_of_pos (isAlphanum_of_isUpper hupper), hrest, ← List.cons_append,
      ← hcapitals, filter_isAlphanum_eq continuesWord isAlphanum_of_continuesWord,
      List.flatten_cons, List.flatten_cons, ih]
    simp [word]
  | case4 c rest hupper more after _ ih =>
    rw [List.filter_cons_of_pos (isAlphanum_of_isUpper hupper),
      filter_isAlphanum_eq Char.isUpper isAlphanum_of_isUpper rest, List.flatten_cons, ih]
    rfl
  | case5 c rest _ hcontinues ih =>
    rw [List.filter_cons_of_pos (isAlphanum_of_continuesWord hcontinues),
      filter_isAlphanum_eq continuesWord isAlphanum_of_continuesWord rest, List.flatten_cons, ih]
    rfl
  | case6 c rest hupper hcontinues ih =>
    rw [List.filter_cons_of_neg (isAlphanum_of_not_continuesWord hupper hcontinues), ih]

/-- A word of a name has only letters and digits, of seven bits. -/
theorem isAlphanum_of_mem_words {name word : List Char} (h : word ∈ words name) :
    ∀ c ∈ word, c.isAlphanum = true := by
  intro c hc
  have hmem : c ∈ (words name).flatten := List.mem_flatten.mpr ⟨word, h, hc⟩
  rw [flatten_words] at hmem
  exact (List.mem_filter.mp hmem).2

/-- A name without words has neither letters nor digits of seven bits. -/
theorem words_eq_nil_iff {name : List Char} :
    words name = [] ↔ ∀ c ∈ name, c.isAlphanum = false := by
  have hwords := flatten_words name
  constructor
  · intro hnil
    rw [hnil, List.flatten_nil, eq_comm, List.filter_eq_nil_iff] at hwords
    simpa using hwords
  · intro hseparators
    rw [List.filter_eq_nil_iff.mpr (by simpa using hseparators)] at hwords
    by_contra hne
    obtain ⟨word, others, hcons⟩ := List.exists_cons_of_ne_nil hne
    have hempty := List.flatten_eq_nil_iff.mp hwords word (by simp [hcons])
    have hword : word ∈ words name := by simp [hcons]
    exact ne_nil_of_mem_words hword hempty

end SliceRecords.Code
