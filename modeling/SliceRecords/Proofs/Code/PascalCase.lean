import SliceRecords.Proofs.Code.JoinedWords
import SliceRecords.Proofs.Code.Path

/-!
# Names that stay as they are

The identifier of a declaration is its name in words with a capital each. That changes no letter of
a name exactly if the name has no separators and begins with no small letter, or has nothing but
separators. Main statement: `memberName_eq_escapeIdentifier_iff`.
-/

namespace SliceRecords.Code

/-- Words with a capital each are no longer than the name that they come from. -/
theorem length_pascalCase_le (name : String) : (pascalCase name).length ≤ name.length := by
  rw [pascalCase_eq_joined]
  split
  · rw [String.length_ofList, ← String.length_toList]
    exact length_joined_le false name.toList
  · exact Nat.le_refl _

/-- A name that declarations keep: a capital and then letters and digits, or
nothing but underscores. -/
def IsKept (name : String) : Prop :=
  (name.toList.head?.any Char.isUpper = true ∧ '_' ∉ name.toList) ∨ ∀ c ∈ name.toList, c = '_'

/-- Whether declarations keep a name can be decided. -/
instance (name : String) : Decidable (IsKept name) :=
  inferInstanceAs (Decidable (_ ∨ _))

/-- What is no letter or digit in an identifier is an underscore. -/
theorem IsIdentifier.isAlphanum_eq_false_iff {name : String} (h : IsIdentifier name) {c : Char}
    (hc : c ∈ name.toList) : c.isAlphanum = false ↔ c = '_' := by
  have hchar := h.word c hc
  rw [Text.isWordChar, Bool.or_eq_true, beq_iff_eq] at hchar
  constructor
  · intro hseparates
    exact hchar.resolve_left (by simp [hseparates])
  · rintro rfl
    decide

/-- Words with a capital each leave an identifier as it is exactly if declarations keep it. -/
theorem IsIdentifier.pascalCase_eq_iff_isKept {name : String} (h : IsIdentifier name) :
    pascalCase name = name ↔ IsKept name := by
  rw [pascalCase_eq_self_iff]
  refine or_congr ⟨?_, ?_⟩ (forall₂_congr fun c hc => h.isAlphanum_eq_false_iff hc)
  · rintro ⟨hname, hstart⟩
    obtain ⟨c, rest, hcons⟩ := List.exists_cons_of_ne_nil h.toList_ne_nil
    have hhead : name.toList.head? = some c := by rw [hcons, List.head?_cons]
    refine ⟨?_, fun hunderscore => absurd (hname '_' hunderscore) (by decide)⟩
    have halphanum := hname c (List.mem_of_head? hhead)
    rw [hhead, Option.any_some]
    simpa [Text.isAlphanum_eq, hstart c hhead, h.head_not_digit c hhead] using halphanum
  · rintro ⟨hcapital, hunderscore⟩
    constructor
    · intro d hd
      rw [← Bool.not_eq_false, h.isAlphanum_eq_false_iff hd]
      rintro rfl
      exact hunderscore hd
    · intro c hhead
      rw [hhead, Option.any_some] at hcapital
      exact Text.isLower_eq_false_of_isUpper hcapital

/-- Escaping keeps a name or puts an at sign in front. -/
theorem escapeIdentifier_eq_or (name : String) :
    escapeIdentifier name = name ∨ escapeIdentifier name = "@" ++ name := by
  unfold escapeIdentifier
  split
  · exact .inr rfl
  · exact .inl rfl

/-- Escaping tells the words of an identifier from the identifier if they differ. -/
theorem IsIdentifier.memberName_eq_escapeIdentifier_iff {name : String} (h : IsIdentifier name) :
    memberName name = escapeIdentifier name ↔ IsKept name := by
  rw [← h.pascalCase_eq_iff_isKept, memberName]
  refine ⟨fun heq => ?_, congrArg escapeIdentifier⟩
  rcases escapeIdentifier_eq_or (pascalCase name) with hwords | hwords <;>
    rcases escapeIdentifier_eq_or name with hname | hname <;> rw [hwords, hname] at heq
  · exact heq
  · -- The words would be longer than the name.
    have hlength := length_pascalCase_le name
    have hat : "@".length = 1 := rfl
    rw [heq, String.length_append] at hlength
    omega
  · -- The name would begin with an at sign.
    have hat : '@' ∈ ("@" ++ pascalCase name).toList := by simp
    rw [heq] at hat
    exact absurd (h.word '@' hat) (by decide)
  · exact (String.append_right_inj "@").mp heq

end SliceRecords.Code
