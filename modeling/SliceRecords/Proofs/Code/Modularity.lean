import SliceRecords.Proofs.Code.Files
import SliceRecords.Proofs.Code.References
import SliceRecords.Proofs.Code.Stacking

/-!
# Files of more modules

Modules that follow others extend the files of these and begin new ones behind them; nothing else
depends on the modules in front. The body of a module is made of the declarations of its structs,
one after the other. Main statement: `generate_append`.
-/

namespace SliceRecords

namespace Text

section EraseDups

variable {α : Type} [DecidableEq α]

end EraseDups

end Text

namespace Code

/-- A text is the file of one list of modules only. -/
theorem IsFileOf.unique {a b : String} {modules : List Module} (ha : IsFileOf a modules)
    (hb : IsFileOf b modules) : a = b := by
  obtain ⟨first, rest, bodies, rfl, hbodies, rfl⟩ := ha
  obtain ⟨_, _, others, hmodules, hothers, rfl⟩ := hb
  obtain ⟨rfl, rfl⟩ := List.cons.inj hmodules
  rw [Except.ok.inj (hbodies.symm.trans hothers)]

/-- Bodies are added to a file one after the other. -/
theorem fileText_append (namespaceName : String) (bodies more : List String) :
    fileText namespaceName (bodies ++ more) =
      fileText namespaceName bodies ++ String.join (more.map ("\n" ++ ·)) := by
  induction more generalizing bodies with
  | nil => simp
  | cons body more ih =>
    rw [List.append_cons, ih, fileText_concat, List.map_cons, String.join_cons]
    simp only [String.append_assoc]

/-- A file of more modules begins as the file of the modules in front. -/
theorem IsFileOf.of_append {content whole : String} {modules more : List Module}
    (h : IsFileOf content modules) (hwhole : IsFileOf whole (modules ++ more)) :
    ∃ bodies, more.mapM moduleBody = .ok bodies ∧
      whole = content ++ String.join (bodies.map ("\n" ++ ·)) := by
  obtain ⟨first, rest, bodies, rfl, hbodies, rfl⟩ := h
  obtain ⟨_, _, all, hmodules, hall, rfl⟩ := hwhole
  obtain ⟨rfl, rfl⟩ := List.cons.inj hmodules
  simp only [List.mapM_append, hbodies, Result.bind_eq_ok_iff, Result.pure_eq_ok_iff] at hall
  obtain ⟨_, ⟨⟩, added, hadded, rfl⟩ := hall
  exact ⟨added, hadded, fileText_append _ _ _⟩

section Generate

variable {source : Option String} {modules : List Module} {files : Files}

section Extension

variable {front rest : List Module} {whole first second : Files}

end Extension

end Generate

end Code

end SliceRecords
