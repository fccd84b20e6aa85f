import SliceRecords.Command.Plan
import SliceRecords.Proofs.Storage.Effects

/-!
# What performing a plan leaves behind

A plan that is performed without a failure of the file system has written its texts to the places
that their paths lead to, if these are different, has made directories where nothing was, and has
changed nothing else. Main statement: `perform_of_yields`.
-/

namespace SliceRecords.Command

open Storage FileSystem

namespace Action

/-- The files after an action, unless the action fails. -/
def apply (files : FileSystem) : Action → Except FileError FileSystem
  | print _ | warn _ => .ok files
  | makeDirectories path =>
    match files.makeDirectories path.toList with
    | (after, none) => .ok after
    | (_, some error) => .error error
  | write path text => files.write path text

/-- The path and the text that an action writes. -/
def writes : Action → List (String × String)
  | write path text => [(path, text)]
  | _ => []

end Action

/-- A plan that yields a value and writes texts to paths. -/
structure Plan.Yields {α : Type} (plan : Plan α) (value : α) (writes : List (String × String)) :
    Prop where
  result_eq : plan.result = .ok value
  writes_eq : plan.actions.flatMap Action.writes = writes

namespace Plan.Yields

variable {α β : Type}

/-- A plan of nothing yields its value and writes nothing. -/
theorem pure (value : α) : (Pure.pure value : Plan α).Yields value [] :=
  ⟨rfl, rfl⟩

/-- A plan that goes on after another one writes what each of them writes. -/
theorem bind {plan : Plan α} {value : α} {writes : List (String × String)}
    (h : plan.Yields value writes) {next : α → Plan β} {last : β} {more : List (String × String)}
    (hnext : (next value).Yields last more) : (plan >>= next).Yields last (writes ++ more) := by
  have hbind : plan >>= next = ⟨plan.actions ++ (next value).actions, (next value).result⟩ := by
    change Plan.bind plan next = _
    rw [Plan.bind, h.result_eq]
  constructor
  · rw [hbind]
    exact hnext.result_eq
  · rw [hbind, List.flatMap_append, h.writes_eq, hnext.writes_eq]

end Plan.Yields

variable {α : Type} {result : Except Failure α} {actions : List Action} {files : FileSystem}

/-- Actions that do not fail give the result behind them. -/
theorem performAll_of_foldlM {after : FileSystem}
    (h : actions.foldlM Action.apply files = .ok after) :
    (performAll result actions files).files = after ∧
    (performAll result actions files).result = result := by
  induction actions generalizing files with
  | nil =>
    rw [List.foldlM_nil, Result.pure_eq_ok_iff] at h
    exact ⟨h, rfl⟩
  | cons action rest ih =>
    rw [List.foldlM_cons, Result.bind_eq_ok_iff] at h
    obtain ⟨next, hnext, hrest⟩ := h
    cases action with
    | print text =>
      cases hnext
      exact ih hrest
    | warn text =>
      cases hnext
      exact ih hrest
    | makeDirectories path =>
      rw [Action.apply] at hnext
      rw [performAll]
      cases hmade : files.makeDirectories path.toList with
      | mk made error =>
        rw [hmade] at hnext
        cases error with
        | none =>
          cases hnext
          exact ih hrest
        | some error => cases hnext
    | write path text =>
      rw [Action.apply] at hnext
      rw [performAll, hnext]
      exact ih hrest

/-- If no failure of the file system is reported, no action has failed. -/
theorem exists_foldlM_of_performAll
    (h : ∀ error, (performAll result actions files).result ≠ .error (.file error)) :
    ∃ after, actions.foldlM Action.apply files = .ok after := by
  induction actions generalizing files with
  | nil => exact ⟨files, rfl⟩
  | cons action rest ih =>
    rw [List.foldlM_cons]
    cases action with
    | print text => exact ih h
    | warn text => exact ih h
    | makeDirectories path =>
      rw [performAll] at h
      rw [Action.apply]
      cases hmade : files.makeDirectories path.toList with
      | mk after failure =>
        rw [hmade] at h
        cases failure with
        | none => exact ih h
        | some error => exact absurd rfl (h error)
    | write path text =>
      rw [performAll] at h
      rw [Action.apply]
      cases hwritten : files.write path text with
      | ok after =>
        rw [hwritten] at h
        exact ih h
      | error error =>
        rw [hwritten] at h
        exact absurd rfl (h error)

/-- A path leads to a file that holds a text. -/
def HoldsText (files : FileSystem) (path text : String) : Prop :=
  ∃ location, files.resolve path = .ok ⟨location, false⟩ ∧
    (location.getLast?.any fun name => maxNameSize < name.utf8ByteSize) = false ∧
    files.get? location = some (.file text.toUTF8)

/-- What the paths and texts that are written make of the files: each path leads to a place, and if
these are different, each text stands at its place. Elsewhere there are new directories at most. -/
structure Effect (before after : FileSystem) (writes : List (String × String)) : Prop where
  keeps : Keeps before after
  placed : ∀ write ∈ writes, ∃ location, after.resolve write.1 = .ok ⟨location, false⟩
  holds : (writes.Pairwise fun a b => after.resolve a.1 ≠ after.resolve b.1) →
    ∀ write ∈ writes, HoldsText after write.1 write.2
  other : ∀ location, (∀ write ∈ writes, after.resolve write.1 ≠ .ok ⟨location, false⟩) →
    after.get? location = before.get? location ∨
      (before.get? location = none ∧ after.get? location = some .directory)

section Effect

variable {before mid after : FileSystem} {done : List (String × String)}

/-- Without writes the files stay as they are. -/
theorem Effect.refl (files : FileSystem) : Effect files files [] :=
  ⟨.refl files, by simp, by simp, fun _ _ => .inl rfl⟩

/-- Places stay what they are as long as directories do. -/
theorem Effect.resolve_eq (h : Effect before mid done) (hkeeps : Keeps mid after)
    {write : String × String} (hwrite : write ∈ done) :
    after.resolve write.1 = mid.resolve write.1 := by
  obtain ⟨location, hlocation⟩ := h.placed write hwrite
  rw [hlocation, resolve_of_keeps hkeeps hlocation]

/-- Different places were different before. -/
theorem Effect.pairwise_of_keeps (h : Effect before mid done) (hkeeps : Keeps mid after)
    (hdifferent : done.Pairwise fun a b => after.resolve a.1 ≠ after.resolve b.1) :
    done.Pairwise fun a b => mid.resolve a.1 ≠ mid.resolve b.1 := by
  refine hdifferent.imp_of_mem fun ha hb hne => ?_
  rwa [h.resolve_eq hkeeps ha, h.resolve_eq hkeeps hb] at hne

/-- Making directories leaves the effect as it is. -/
theorem Effect.makeDirectories (h : Effect before mid done) (hmade : OnlyDirectories mid after) :
    Effect before after done := by
  have hkeeps := hmade.keeps
  constructor
  · exact h.keeps.trans hkeeps
  · intro write hwrite
    obtain ⟨location, hlocation⟩ := h.placed write hwrite
    exact ⟨location, resolve_of_keeps hkeeps hlocation⟩
  · intro hdifferent write hwrite
    obtain ⟨location, hlocation, hshort, hfile⟩ :=
      h.holds (h.pairwise_of_keeps hkeeps hdifferent) write hwrite
    refine ⟨location, resolve_of_keeps hkeeps hlocation, hshort, ?_⟩
    rcases hmade.get?_eq location with heq | ⟨hnone, _⟩
    · rw [heq, hfile]
    · rw [hfile] at hnone
      cases hnone
  · intro location hfree
    have hold := h.other location fun write hwrite => by
      rw [← h.resolve_eq hkeeps hwrite]
      exact hfree write hwrite
    rcases hold with heq | ⟨hnone, hdirectory⟩
    · rw [← heq]
      exact hmade.get?_eq location
    · exact .inr ⟨hnone, hkeeps.directory location hdirectory⟩

/-- Writing a text adds it to the effect. -/
theorem Effect.write (h : Effect before mid done) {path text : String}
    (hwritten : mid.write path text = .ok after) :
    Effect before after (done ++ [(path, text)]) := by
  obtain ⟨place, hplace, hshort, hnone, rfl⟩ := write_eq_ok_iff.mp hwritten
  have hkeeps := keeps_set hnone (.file text.toUTF8)
  have hplaced := resolve_of_keeps hkeeps hplace
  constructor
  · exact h.keeps.trans hkeeps
  · rw [List.forall_mem_append, List.forall_mem_singleton]
    refine ⟨fun write hwrite => ?_, ⟨place, hplaced⟩⟩
    rw [h.resolve_eq hkeeps hwrite]
    exact h.placed write hwrite
  · intro hdifferent
    rw [List.pairwise_append] at hdifferent
    obtain ⟨hold, _, hnew⟩ := hdifferent
    rw [List.forall_mem_append, List.forall_mem_singleton]
    refine ⟨fun write hwrite => ?_, ⟨place, hplaced, hshort, get?_set_self hnone _⟩⟩
    obtain ⟨location, hlocation, hfileShort, hfile⟩ :=
      h.holds (h.pairwise_of_keeps hkeeps hold) write hwrite
    refine ⟨location, resolve_of_keeps hkeeps hlocation, hfileShort, ?_⟩
    have hne : location ≠ place := by
      rintro rfl
      refine hnew write hwrite (path, text) List.mem_cons_self ?_
      rw [hplaced, resolve_of_keeps hkeeps hlocation]
    rw [get?_set_of_ne hne, hfile]
  · intro location hfree
    rw [List.forall_mem_append, List.forall_mem_singleton, hplaced] at hfree
    obtain ⟨hdone, hother⟩ := hfree
    have hne : location ≠ place := by
      rintro rfl
      exact hother rfl
    rw [get?_set_of_ne hne]
    refine h.other location fun write hwrite => ?_
    rw [← h.resolve_eq hkeeps hwrite]
    exact hdone write hwrite

/-- An action adds what it writes to the effect. -/
theorem Effect.apply (h : Effect before mid done) {action : Action}
    (hafter : action.apply mid = .ok after) : Effect before after (done ++ action.writes) := by
  cases action with
  | print text =>
    cases hafter
    simpa [Action.writes] using h
  | warn text =>
    cases hafter
    simpa [Action.writes] using h
  | makeDirectories path =>
    have hmade := onlyDirectories_makeDirectories mid path.toList
    rw [Action.apply] at hafter
    split at hafter
    · rename_i heq
      cases hafter
      rw [heq] at hmade
      simpa [Action.writes] using h.makeDirectories hmade
    · cases hafter
  | write path text => exact h.write hafter

/-- A run of actions adds what each of them writes to the effect. -/
theorem Effect.foldlM (h : Effect before mid done) {actions : List Action}
    (hafter : actions.foldlM Action.apply mid = .ok after) :
    Effect before after (done ++ actions.flatMap Action.writes) := by
  induction actions generalizing mid done with
  | nil =>
    rw [List.foldlM_nil, Result.pure_eq_ok_iff] at hafter
    subst hafter
    simpa using h
  | cons action rest ih =>
    rw [List.foldlM_cons, Result.bind_eq_ok_iff] at hafter
    obtain ⟨next, hnext, hrest⟩ := hafter
    rw [List.flatMap_cons, ← List.append_assoc]
    exact ih (h.apply hnext) hrest

end Effect

/-- A plan that does not fail on a file yields its value and leaves behind what it writes. -/
theorem perform_of_yields {plan : Plan α} {value : α} {writes : List (String × String)}
    (h : plan.Yields value writes) (files : FileSystem)
    (hsucceeds : ∀ error, (plan.perform files).result ≠ .error (.file error)) :
    (plan.perform files).result = .ok value ∧ Effect files (plan.perform files).files writes := by
  obtain ⟨after, hafter⟩ := exists_foldlM_of_performAll hsucceeds
  have hperformed : (plan.perform files).files = after ∧
      (plan.perform files).result = plan.result :=
    performAll_of_foldlM hafter
  obtain ⟨hfiles, hresult⟩ := hperformed
  have heffect := (Effect.refl files).foldlM hafter
  rw [List.nil_append, h.writes_eq] at heffect
  rw [hfiles, hresult]
  exact ⟨h.result_eq, heffect⟩

end SliceRecords.Command
