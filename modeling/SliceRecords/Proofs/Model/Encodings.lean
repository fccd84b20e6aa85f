import SliceRecords.Model.Encoding
import SliceRecords.Proofs.Result

/-!
# Sets of encodings from names

A set of encodings can be made from every list of names of encodings that is not empty,
and it depends on nothing but which encodings are named. Main statements:
`exists_ofNames` and `ofNames_congr`.
-/

namespace SliceRecords.SupportedEncodings

/-- Names of encodings stand for these encodings. -/
theorem encodingsOfNames_names (encodings : List Encoding) :
    encodingsOfNames (encodings.map fun encoding => .string encoding.name) = .ok encodings := by
  induction encodings with
  | nil => rfl
  | cons encoding rest ih => simp [encodingsOfNames, Json.string?, ih]

/-- A list of encodings that is not empty makes a set. -/
theorem exists_ofList? {encodings : List Encoding} (h : encodings ≠ []) :
    ∃ set, ofList? encodings = some set := by
  obtain ⟨encoding, hmem⟩ := List.exists_mem_of_ne_nil encodings h
  unfold ofList?
  split <;> cases encoding <;> simp_all

/-- Names make the set that the encodings make. -/
theorem ofNames_names_eq_ok_iff {encodings : List Encoding} {set : SupportedEncodings} :
    ofNames (encodings.map fun encoding => .string encoding.name) = .ok set ↔
      ofList? encodings = some set := by
  simp only [ofNames, encodingsOfNames_names, Result.bind_eq_ok_iff, Except.ok.injEq,
    exists_eq_left']
  cases ofList? encodings with
  | none => simp
  | some other => simp

/-- A list of names of encodings that is not empty makes a set. -/
theorem exists_ofNames {encodings : List Encoding} (h : encodings ≠ []) :
    ∃ set, ofNames (encodings.map fun encoding => .string encoding.name) = .ok set := by
  obtain ⟨set, hset⟩ := exists_ofList? h
  exact ⟨set, ofNames_names_eq_ok_iff.mpr hset⟩

/-- The set depends on the encodings that are named, not on their order nor
on how often they are. -/
theorem ofNames_congr {encodings others : List Encoding}
    (h : ∀ encoding, encoding ∈ others ↔ encoding ∈ encodings) {set : SupportedEncodings}
    (hset : ofNames (encodings.map fun encoding => .string encoding.name) = .ok set) :
    ofNames (others.map fun encoding => .string encoding.name) = .ok set := by
  rw [ofNames_names_eq_ok_iff] at hset ⊢
  have hcontains (encoding : Encoding) :
      others.contains encoding = encodings.contains encoding := by
    rw [Bool.eq_iff_iff, List.contains_iff_mem, List.contains_iff_mem, h]
  rw [← hset, ofList?, ofList?, hcontains, hcontains]

end SliceRecords.SupportedEncodings
