import SliceRecords.Proofs.Result
import SliceRecords.Proofs.Text.NormalLines
import SliceRecords.Storage.FileSystem

/-!
# Effects on a file system

What writing a file and making directories change, and what they leave as it is. Directories are
never lost, so a path that led to a place leads there ever after, and the files that are written
into one directory under different names do not meet. Main statements: `resolve_of_keeps`,
`onlyDirectories_makeDirectories` and `exists_location_of_resolve_join`.
-/

namespace SliceRecords.Storage.FileSystem

open Text

variable {files before after : FileSystem} {location : Location} {path : String}

/-- Setting an entry changes what is found at its own place alone. -/
theorem find?_setEntry (entry : Entry) (entries : List (Location × Entry)) (other : Location) :
    (setEntry location entry entries).find? (fun listed => listed.1 = other) =
      if location = other then some (location, entry)
      else entries.find? fun listed => listed.1 = other := by
  induction entries with
  | nil => by_cases h : location = other <;> simp [setEntry, h]
  | cons listed rest ih =>
    obtain ⟨place, old⟩ := listed
    rw [setEntry]
    split
    · rename_i hplace
      by_cases h : location = other <;> simp [h, hplace]
    · rename_i hplace
      by_cases h : place = other
      · have hne : location ≠ other := fun heq => hplace (h.trans heq.symm)
        simp [h, hne]
      · simp [h, ih]

/-- The root stays a directory whatever is put there. -/
theorem get?_set (files : FileSystem) (location other : Location) (entry : Entry) :
    (files.set location entry).get? other =
      if other = [] then some .directory
      else if location = other then some entry else files.get? other := by
  unfold get? set
  split
  · rfl
  · dsimp only
    rw [find?_setEntry]
    split <;> rfl

/-- A place can be looked at exactly if its last part is not too long. -/
theorem find_eq_ok_iff {entry : Option Entry} :
    files.find location = .ok entry ↔
      (location.getLast?.any fun name => maxNameSize < name.utf8ByteSize) = false ∧
        files.get? location = entry := by
  unfold find
  split
  · simp_all
  · simp_all

/-- Every directory is one still, and relative paths start at the same place. -/
structure Keeps (before after : FileSystem) : Prop where
  workingDirectory_eq : after.workingDirectory = before.workingDirectory
  directory : ∀ location, before.get? location = some .directory →
      after.get? location = some .directory

/-- Unchanged files are kept. -/
theorem Keeps.refl (files : FileSystem) : Keeps files files :=
  ⟨rfl, fun _ h => h⟩

/-- What is kept twice is kept. -/
theorem Keeps.trans {last : FileSystem} (h : Keeps before after) (hlast : Keeps after last) :
    Keeps before last :=
  ⟨hlast.workingDirectory_eq.trans h.workingDirectory_eq,
    fun location hdirectory => hlast.directory location (h.directory location hdirectory)⟩

/-- Following a path looks at directories only, so it leads to the same place
as long as these stay. -/
theorem follow_of_keeps (h : Keeps before after) {here : Location} {parts : List String}
    {target : Target} (hfollow : before.follow here parts = .ok target) :
    after.follow here parts = .ok target := by
  induction parts generalizing here with
  | nil => exact hfollow
  | cons part rest ih =>
    rw [follow] at hfollow ⊢
    split
    · rename_i hpart
      rw [if_pos hpart] at hfollow
      exact ih hfollow
    rename_i hpart
    rw [if_neg hpart] at hfollow
    split
    · rename_i hup
      rw [if_pos hup] at hfollow
      exact ih hfollow
    rename_i hup
    rw [if_neg hup] at hfollow
    dsimp only at hfollow ⊢
    split
    · rename_i hrest
      rwa [if_pos hrest] at hfollow
    rename_i hrest
    rw [if_neg hrest] at hfollow
    split at hfollow
    · rename_i hfind
      obtain ⟨hshort, hdirectory⟩ := find_eq_ok_iff.mp hfind
      rw [find_eq_ok_iff.mpr ⟨hshort, h.directory _ hdirectory⟩]
      exact ih hfollow
    · cases hfollow
    · cases hfollow
    · cases hfollow

/-- A path leads to the same place as long as directories stay. -/
theorem resolve_of_keeps (h : Keeps before after) {target : Target}
    (hresolve : before.resolve path = .ok target) : after.resolve path = .ok target := by
  unfold resolve at hresolve ⊢
  split at hresolve
  · cases hresolve
  rename_i hnull
  split at hresolve
  · cases hresolve
  rename_i hempty
  split at hresolve
  · cases hresolve
  rename_i hlong
  rw [if_neg hnull, if_neg hempty, if_neg hlong, h.workingDirectory_eq]
  exact follow_of_keeps h hresolve

/-- Nothing is changed but that there may be directories where nothing was. -/
structure OnlyDirectories (before after : FileSystem) : Prop where
  workingDirectory_eq : after.workingDirectory = before.workingDirectory
  get?_eq : ∀ location, after.get? location = before.get? location ∨
    (before.get? location = none ∧ after.get? location = some .directory)

/-- Unchanged files differ by new directories at most. -/
theorem OnlyDirectories.refl (files : FileSystem) : OnlyDirectories files files :=
  ⟨rfl, fun _ => .inl rfl⟩

/-- New directories twice are new directories. -/
theorem OnlyDirectories.trans {last : FileSystem} (h : OnlyDirectories before after)
    (hlast : OnlyDirectories after last) : OnlyDirectories before last := by
  refine ⟨hlast.workingDirectory_eq.trans h.workingDirectory_eq, fun location => ?_⟩
  rcases h.get?_eq location with heq | ⟨hnone, hmade⟩
  · rw [← heq]
    exact hlast.get?_eq location
  · rcases hlast.get?_eq location with heq | ⟨hnone', _⟩
    · exact .inr ⟨hnone, heq.trans hmade⟩
    · rw [hmade] at hnone'
      cases hnone'

/-- New directories keep what was there. -/
theorem OnlyDirectories.keeps (h : OnlyDirectories before after) : Keeps before after := by
  refine ⟨h.workingDirectory_eq, fun location hdirectory => ?_⟩
  rcases h.get?_eq location with heq | ⟨hnone, _⟩
  · rw [heq, hdirectory]
  · rw [hdirectory] at hnone
    cases hnone

/-- Making a directory adds one and nothing else. -/
theorem onlyDirectories_makeDirectory (h : before.makeDirectory path = .ok after) :
    OnlyDirectories before after := by
  simp only [makeDirectory, Result.bind_eq_ok_iff] at h
  obtain ⟨target, _, entry, hfind, h⟩ := h
  cases entry with
  | some entry => cases h
  | none =>
    rw [Result.pure_eq_ok_iff] at h
    subst h
    have hnone := (find_eq_ok_iff.mp hfind).2
    refine ⟨rfl, fun location => ?_⟩
    rw [get?_set]
    split
    · rename_i hroot
      subst hroot
      exact .inl rfl
    · split
      · rename_i hlocation
        subst hlocation
        exact .inr ⟨hnone, rfl⟩
      · exact .inl rfl

/-- Making a directory with all those above it adds directories only, also where it fails. -/
theorem onlyDirectories_ensureDirectory (files : FileSystem) (path : List Char) :
    OnlyDirectories files (files.ensureDirectory path).1 := by
  unfold ensureDirectory
  split
  · rename_i hmade
    exact onlyDirectories_makeDirectory hmade
  · exact .refl files
  · split
    · exact .refl files
    · exact .refl files

/-- Making directories changes nothing else, even where it fails. -/
theorem onlyDirectories_makeDirectories (files : FileSystem) (path : List Char) :
    OnlyDirectories files (files.makeDirectories path).1 := by
  fun_induction makeDirectories files path with
  | case1 path _ => exact onlyDirectories_ensureDirectory files path
  | case2 path _ _ _ => exact onlyDirectories_ensureDirectory files path
  | case3 path _ _ _ after hparent _ ih =>
    rw [hparent] at ih
    exact ih
  | case4 path _ _ _ after hparent _ ih =>
    rw [hparent] at ih
    exact ih.trans (onlyDirectories_ensureDirectory after path)
  | case5 path _ _ _ after hparent _ ih =>
    rw [hparent] at ih
    exact ih
  | case6 path _ _ _ after hparent _ ih =>
    rw [hparent] at ih
    exact ih.trans (onlyDirectories_ensureDirectory after path)
  | case7 path _ _ _ _ _ ih => exact ih

/-- A file that is written stands where its path leads, in place of a file or of nothing. -/
theorem write_eq_ok_iff {text : String} :
    before.write path text = .ok after ↔ ∃ location, before.resolve path = .ok ⟨location, false⟩ ∧
      (location.getLast?.any fun name => maxNameSize < name.utf8ByteSize) = false ∧
      before.get? location ≠ some .directory ∧ after = before.set location (.file text.toUTF8) := by
  unfold write
  rw [Result.bind_eq_ok_iff]
  constructor
  · rintro ⟨⟨location, directoryOnly⟩, hresolve, h⟩
    cases directoryOnly with
    | true => cases h
    | false =>
      obtain ⟨entry, hfind, h⟩ := Result.bind_eq_ok_iff.mp h
      obtain ⟨hshort, rfl⟩ := find_eq_ok_iff.mp hfind
      split at h
      · cases h
      · rename_i hother
        rw [Result.pure_eq_ok_iff] at h
        exact ⟨location, hresolve, hshort, hother, h.symm⟩
  · rintro ⟨location, hresolve, hshort, hother, rfl⟩
    have hfind : before.find location = .ok (before.get? location) :=
      find_eq_ok_iff.mpr ⟨hshort, rfl⟩
    refine ⟨_, hresolve, ?_⟩
    rw [if_neg Bool.false_ne_true, hfind]
    cases hentry : before.get? location with
    | none => rfl
    | some entry =>
      cases entry with
      | file bytes => rfl
      | directory => exact absurd hentry hother

/-- Writing a file changes nothing elsewhere. -/
theorem get?_set_of_ne {other : Location} (h : other ≠ location) (entry : Entry) :
    (files.set location entry).get? other = files.get? other := by
  rw [get?_set, if_neg (Ne.symm h)]
  split
  · rename_i hroot
    subst hroot
    rfl
  · rfl

/-- A file that is written takes the place of no directory. -/
theorem keeps_set (h : files.get? location ≠ some .directory) (entry : Entry) :
    Keeps files (files.set location entry) := by
  refine ⟨rfl, fun other hdirectory => ?_⟩
  rw [get?_set_of_ne (by rintro rfl; exact h hdirectory), hdirectory]

/-- An entry that is set is there, unless a directory is in its place. -/
theorem get?_set_self (h : files.get? location ≠ some .directory) (entry : Entry) :
    (files.set location entry).get? location = some entry := by
  have hroot : location ≠ [] := by
    rintro rfl
    exact h rfl
  rw [get?_set, if_neg hroot, if_pos rfl]

/-- A path that leads to a file reads its bytes. -/
theorem read_of_resolve {bytes : ByteArray} (hresolve : files.resolve path = .ok ⟨location, false⟩)
    (hshort : (location.getLast?.any fun name => maxNameSize < name.utf8ByteSize) = false)
    (hfile : files.get? location = some (.file bytes)) : files.read path = .ok bytes := by
  have hfind : files.find location = .ok (some (.file bytes)) := find_eq_ok_iff.mpr ⟨hshort, hfile⟩
  have hlookup : files.lookup path = .ok (⟨location, false⟩, some (.file bytes)) := by
    rw [lookup, hresolve]
    change (files.find location >>= fun entry => _) = _
    rw [hfind]
    rfl
  rw [read, hlookup]
  rfl

/-- A name that can stand for a file in a directory: a single part of a path, and no dots. -/
structure IsFileName (name : String) : Prop where
  ne_empty : name ≠ ""
  ne_dot : name ≠ "."
  ne_dots : name ≠ ".."
  slash_notMem : '/' ∉ name.toList

/-- Names behind the same parts of a path lead into the same directory. -/
theorem exists_location_of_follow (files : FileSystem) (here : Location) (parts : List String) :
    ∃ directory : Location, ∀ {name : String}, IsFileName name → ∀ {target : Target},
      files.follow here (parts ++ [name]) = .ok target → target = ⟨directory ++ [name], false⟩ := by
  induction parts generalizing here with
  | nil =>
    refine ⟨here, fun hname target htarget => ?_⟩
    rw [List.nil_append, follow, if_neg (by simp [hname.ne_empty, hname.ne_dot]),
      if_neg hname.ne_dots] at htarget
    exact (Except.ok.inj htarget).symm
  | cons part rest ih =>
    by_cases hpart : part = "" ∨ part = "."
    · obtain ⟨directory, hdirectory⟩ := ih here
      refine ⟨directory, fun hname target htarget => hdirectory hname ?_⟩
      rwa [List.cons_append, follow, if_pos hpart] at htarget
    by_cases hup : part = ".."
    · obtain ⟨directory, hdirectory⟩ := ih here.dropLast
      refine ⟨directory, fun hname target htarget => hdirectory hname ?_⟩
      rwa [List.cons_append, follow, if_neg hpart, if_pos hup] at htarget
    · obtain ⟨directory, hdirectory⟩ := ih (here ++ [part])
      refine ⟨directory, fun {name} hname target htarget => hdirectory hname ?_⟩
      have hrest : ¬(rest ++ [name]).all (· = "") = true := by simp [hname.ne_empty]
      rw [List.cons_append, follow, if_neg hpart, if_neg hup] at htarget
      dsimp only at htarget
      rw [if_neg hrest] at htarget
      split at htarget
      · exact htarget
      · cases htarget
      · cases htarget
      · cases htarget

/-- A file name is no absolute path. -/
theorem IsFileName.isAbsolute_eq_false {name : String} (h : IsFileName name) :
    Path.isAbsolute name = false := by
  rw [Path.isAbsolute, beq_eq_false_iff_ne]
  exact fun hhead => h.slash_notMem (List.mem_of_mem_head? hhead)

/-- The path of a name in a directory ends with the name as a part of its own, and it is absolute
exactly if the directory is. -/
theorem exists_splitAt_join (directory : String) :
    ∃ parts, ∀ {name : String}, IsFileName name →
      splitAt '/' (Path.join directory name) = parts ++ [name] ∧
        Path.isAbsolute (Path.join directory name) = Path.isAbsolute directory := by
  have hslash (front : String) {name : String} (hname : IsFileName name) :
      splitAt '/' (front ++ "/" ++ name) = splitAt '/' front ++ [name] := by
    have hlist : (front ++ "/" ++ name).toList = front.toList ++ '/' :: name.toList := by simp
    rw [splitAt, hlist, split_append_cons, List.map_append, split_of_notMem hname.slash_notMem,
      List.map_singleton, String.ofList_toList]
    rfl
  have hhead {front : String} (hfront : front ≠ "") (rest : String) :
      Path.isAbsolute (front ++ rest) = Path.isAbsolute front := by
    rw [Path.isAbsolute, Path.isAbsolute, String.toList_append,
      List.head?_append_of_ne_nil _ (by simpa using hfront)]
  by_cases hempty : directory = ""
  · refine ⟨[], fun {name} hname => ?_⟩
    have hjoin : Path.join directory name = name := by
      rw [Path.join, hname.isAbsolute_eq_false, hempty]
      exact String.empty_append
    rw [hjoin, hempty, hname.isAbsolute_eq_false, splitAt, split_of_notMem hname.slash_notMem]
    simp [Path.isAbsolute]
  by_cases hends : directory.toList.getLast? = some '/'
  · obtain ⟨front, hfront⟩ := List.getLast?_eq_some_iff.mp hends
    have hdirectory : directory = String.ofList front ++ "/" := by
      rw [← String.toList_inj, hfront]
      simp
    refine ⟨splitAt '/' (String.ofList front), fun {name} hname => ?_⟩
    have hjoin : Path.join directory name = directory ++ name := by
      simp [Path.join, hname.isAbsolute_eq_false, hends]
    rw [hjoin, hhead hempty]
    exact ⟨hdirectory ▸ hslash _ hname, rfl⟩
  · refine ⟨splitAt '/' directory, fun {name} hname => ?_⟩
    have hjoin : Path.join directory name = directory ++ "/" ++ name := by
      simp [Path.join, hname.isAbsolute_eq_false, hends, hempty]
    rw [hjoin, String.append_assoc, hhead hempty, ← String.append_assoc]
    exact ⟨hslash directory hname, rfl⟩

/-- The names in a directory lead to places in one location. -/
theorem exists_location_of_resolve_join (files : FileSystem) (directory : String) :
    ∃ place : Location, ∀ {name : String}, IsFileName name → ∀ {target : Target},
          files.resolve (Path.join directory name) = .ok target →
          target = ⟨place ++ [name], false⟩ := by
  obtain ⟨parts, hparts⟩ := exists_splitAt_join directory
  obtain ⟨place, hplace⟩ := exists_location_of_follow files
    (if Path.isAbsolute directory then [] else files.workingDirectory) parts
  refine ⟨place, fun hname target htarget => hplace hname ?_⟩
  obtain ⟨hsplit, habsolute⟩ := hparts hname
  unfold resolve at htarget
  split at htarget
  · cases htarget
  split at htarget
  · cases htarget
  split at htarget
  · cases htarget
  · rwa [hsplit, habsolute] at htarget

end SliceRecords.Storage.FileSystem
