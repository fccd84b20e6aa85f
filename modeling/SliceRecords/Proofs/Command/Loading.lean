import SliceRecords.Command.Run
import SliceRecords.Proofs.Command.Performing

/-!
# Failures of loading

Which failures of loading are reported to the user and which stop the run. Whatever stands at a
path, a failure is reported, unless the path cannot be a path at all or the file is not UTF-8; a run
that reports exits with one and leaves all files as they are. Main statement: `loadsOrReports_iff`.
-/

namespace SliceRecords

namespace Storage.FileSystem

/-- Looking for an entry never finds a path malformed. -/
theorem find_ne_malformed (files : FileSystem) (location : Location) :
    files.find location ≠ .error .malformed := by
  unfold find
  split
  · simp
  · simp

/-- Following the parts of a path never finds it malformed. -/
theorem follow_ne_malformed (files : FileSystem) (here : Location) (parts : List String) :
    files.follow here parts ≠ .error .malformed := by
  induction parts generalizing here with
  | nil => simp [follow]
  | cons part rest ih =>
    rw [follow]
    split
    · exact ih here
    split
    · exact ih here.dropLast
    dsimp only
    split
    · simp
    split
    · exact ih _
    · simp
    · simp
    · rename_i error hfind
      rintro h
      cases h
      exact find_ne_malformed files _ hfind

/-- Only a null character makes a path none at all. -/
theorem resolve_eq_malformed_iff {files : FileSystem} {path : String} :
    files.resolve path = .error .malformed ↔ '\x00' ∈ path.toList := by
  unfold resolve
  split
  · simp_all
  split
  · simp_all
  split
  · simp_all
  · rename_i hnull _ _
    exact ⟨fun h => absurd h (follow_ne_malformed _ _ _), fun h => absurd h hnull⟩

/-- A path is malformed exactly if it holds a null character. -/
theorem lookup_eq_malformed_iff {files : FileSystem} {path : String} :
    files.lookup path = .error .malformed ↔ '\x00' ∈ path.toList := by
  rw [← resolve_eq_malformed_iff, lookup, Result.bind_eq_error_iff]
  refine ⟨?_, .inl⟩
  rintro (hresolve | ⟨target, _, h⟩)
  · exact hresolve
  rcases Result.bind_eq_error_iff.mp h with hfind | ⟨entry, _, h⟩
  · exact absurd hfind (find_ne_malformed files _)
  · split at h
    · cases h
    · cases h

/-- So a file cannot be read for that reason exactly if its path holds one. -/
theorem read_eq_malformed_iff {files : FileSystem} {path : String} :
    files.read path = .error .malformed ↔ '\x00' ∈ path.toList := by
  rw [← lookup_eq_malformed_iff, read, Result.bind_eq_error_iff]
  refine ⟨?_, .inl⟩
  rintro (hlookup | ⟨⟨target, entry⟩, _, h⟩)
  · exact hlookup
  · split at h
    · cases h
    · cases h
    · cases h

end Storage.FileSystem

namespace Document

open Storage

/-- Bytes have a text exactly if they are valid UTF-8. -/
theorem decode?_isSome_iff {bytes : ByteArray} : (decode? bytes).isSome ↔ bytes.IsValidUTF8 := by
  rw [decode?, Option.isSome_map]
  unfold String.fromUTF8?
  split
  · rename_i h
    simpa using h
  · rename_i h
    simpa using h

/-- All errors of loading are reported but two: bytes that are no text, and a malformed path. -/
theorem LoadError.isReported_eq_false_iff {error : LoadError} :
    error.isReported = false ↔
    error = .undecodable ∨ ∃ path, error = .unreadable path .malformed := by
  unfold isReported
  split <;> simp_all

/-- A failure that is not reported is one of the path or one of the bytes. -/
theorem loadContents_of_not_reported {workingPath path : String}
    {contents : Except FileError ByteArray} {error : LoadError}
    (h : loadContents workingPath path contents = .error error)
    (hreported : error.isReported = false) :
    (error = .unreadable path .malformed ∧ contents = .error .malformed) ∨
    (error = .undecodable ∧ ∃ bytes, contents = .ok bytes ∧ ¬bytes.IsValidUTF8) := by
  rcases Result.bind_eq_error_iff.mp h with hcontents | ⟨bytes, hcontents, h⟩
  · obtain ⟨cause, hcause, rfl⟩ := Result.mapError_eq_error_iff.mp hcontents
    obtain h | ⟨_, h⟩ := LoadError.isReported_eq_false_iff.mp hreported
    · cases h
    · cases h
      exact .inl ⟨rfl, hcause⟩
  · rw [Result.mapError_eq_ok_iff] at hcontents
    cases hdecode : decode? bytes with
    | none =>
      rw [hdecode] at h
      cases h
      refine .inr ⟨rfl, bytes, hcontents, ?_⟩
      rw [← decode?_isSome_iff, hdecode]
      simp
    | some text =>
      rw [hdecode] at h
      rcases Result.bind_eq_error_iff.mp h with h | ⟨json, _, h⟩
      · obtain ⟨cause, _, rfl⟩ := Result.mapError_eq_error_iff.mp h
        cases hreported
      · obtain ⟨cause, _, rfl⟩ := Result.mapError_eq_error_iff.mp h
        cases hreported

/-- Contents that could not be read for their path are that error. -/
theorem loadContents_malformed (workingPath path : String) :
    loadContents workingPath path (.error .malformed) = .error (.unreadable path .malformed) := rfl

/-- Bytes that are not valid UTF-8 are no text. -/
theorem loadContents_undecodable (workingPath path : String) {bytes : ByteArray}
    (h : ¬bytes.IsValidUTF8) : loadContents workingPath path (.ok bytes) = .error .undecodable := by
  have hdecode : decode? bytes = none := by
    rwa [← Option.not_isSome_iff_eq_none, decode?_isSome_iff]
  refine Result.bind_eq_error_iff.mpr (.inr ⟨bytes, rfl, ?_⟩)
  rw [hdecode]
  rfl

/-- Every failure to load a file is reported exactly if its path can be one and the bytes that are
read, if there are any, are UTF-8. -/
theorem forall_isReported_iff (files : FileSystem) (path : String) :
    (∀ error, loadFile files path = .error error → error.isReported = true) ↔
      '\x00' ∉ path.toList ∧ ∀ bytes, files.read path = .ok bytes → bytes.IsValidUTF8 := by
  constructor
  · intro h
    refine ⟨fun hnull => ?_, fun bytes hread => ?_⟩
    · have hread : files.read path = .error .malformed := FileSystem.read_eq_malformed_iff.mpr hnull
      have := h (.unreadable path .malformed) (by rw [loadFile, hread, loadContents_malformed])
      cases this
    · by_contra hbytes
      have := h .undecodable (by rw [loadFile, hread, loadContents_undecodable _ _ hbytes])
      cases this
  · rintro ⟨hnull, hbytes⟩ error h
    by_contra hreported
    rcases loadContents_of_not_reported h (Bool.eq_false_iff.mpr hreported) with
      ⟨_, hread⟩ | ⟨_, bytes, hread, hinvalid⟩
    · exact hnull (FileSystem.read_eq_malformed_iff.mp hread)
    · exact hinvalid (hbytes bytes hread)

end Document

namespace Command

open Storage Document

variable {arguments : List String} {environment : Environment} {request : Request}
  {files : FileSystem} {error : LoadError}

/-- A run with good arguments performs the plan of the request for the contents of its input. -/
theorem run_of_parse (h : Request.parse arguments environment = .ok request) (files : FileSystem) :
    run arguments environment files =
      (request.plan files.workingPath (files.read request.input)).perform files := by
  rw [run, h]

/-- The session of a request, before anything is loaded. -/
def Request.session (request : Request) : Session where
  inputFile := request.input
  outputDirectory := request.output
  outputName := request.outputName
  verbose := request.verbose

/-- A reported error is one line of warning, and the session goes on without a model. -/
theorem Session.load_of_reported (session : Session) {workingPath : String}
    {contents : Except FileError ByteArray}
    (h : loadContents workingPath session.inputFile contents = .error error)
    (hreported : error.isReported = true) :
    session.load workingPath contents =
      ⟨[.warn s!"Error: {error.message}\n"], .ok (session, false)⟩ := by
  rw [load, h]
  split
  · rename_i heq
    cases heq
  · rename_i heq
    cases heq
    cases hreported
  · rename_i heq
    cases heq
    cases hreported
  · rename_i heq
    cases heq
    rfl

/-- Any other error breaks off without a word. -/
theorem Session.load_of_not_reported (session : Session) {workingPath : String}
    {contents : Except FileError ByteArray}
    (h : loadContents workingPath session.inputFile contents = .error error)
    (hreported : error.isReported = false) :
    ∃ failure, session.load workingPath contents = ⟨[], .error failure⟩ := by
  rcases loadContents_of_not_reported h hreported with ⟨rfl, _⟩ | ⟨rfl, _⟩
  · exact ⟨.file .malformed, by rw [load, h]; rfl⟩
  · exact ⟨.undecodable, by rw [load, h]; rfl⟩

/-- A run whose input fails with a report does nothing but report, and exits with one. -/
theorem run_of_reported (hrequest : Request.parse arguments environment = .ok request)
    (h : loadFile files request.input = .error error) (hreported : error.isReported = true) :
    run arguments environment files = ⟨files, "", s!"Error: {error.message}\n", .ok 1⟩ := by
  have hload := Session.load_of_reported request.session h hreported
  have hplan : request.plan files.workingPath (files.read request.input) =
      ⟨[.warn s!"Error: {error.message}\n"], .ok 1⟩ := by
    change request.session.load _ _ >>= _ = _
    rw [hload]
    rfl
  rw [run_of_parse hrequest, hplan]
  simp [Plan.perform, performAll]

/-- A run whose input fails in any other way is broken off and does nothing. -/
theorem run_of_not_reported (hrequest : Request.parse arguments environment = .ok request)
    (h : loadFile files request.input = .error error) (hreported : error.isReported = false) :
    ∃ failure, run arguments environment files = ⟨files, "", "", .error failure⟩ := by
  obtain ⟨failure, hload⟩ := Session.load_of_not_reported request.session h hreported
  have hplan :
      request.plan files.workingPath (files.read request.input) = ⟨[], .error failure⟩ := by
    change request.session.load _ _ >>= _ = _
    rw [hload]
    rfl
  refine ⟨failure, ?_⟩
  rw [run_of_parse hrequest, hplan]
  rfl

/-- Loading the file at a path gives a model or a failure that is reported. -/
def LoadsOrReports (files : FileSystem) (path : String) : Prop :=
  (∃ model, loadFile files path = .ok model) ∨
    ∃ error, loadFile files path = .error error ∧ error.isReported = true

/-- Whatever stands at a path, loading it gives a model or a failure that is reported, exactly if
the path has no null character and the bytes that are read, if there are any, are UTF-8. Of a
failure that is reported the run prints the message and exits with one; any other failure breaks the
run off. In both cases it leaves the files as they are. -/
theorem loadsOrReports_iff (files : FileSystem) (path : String) :
    (LoadsOrReports files path ↔
      '\x00' ∉ path.toList ∧ ∀ bytes, files.read path = .ok bytes → bytes.IsValidUTF8) ∧
      ∀ {arguments environment request}, Request.parse arguments environment = .ok request →
        request.input = path → ∀ error, loadFile files path = .error error →
          (error.isReported = true →
            run arguments environment files = ⟨files, "", s!"Error: {error.message}\n", .ok 1⟩) ∧
          (error.isReported = false →
            ∃ failure, run arguments environment files = ⟨files, "", "", .error failure⟩) := by
  constructor
  · rw [← forall_isReported_iff]
    constructor
    · rintro (⟨model, hmodel⟩ | ⟨error, herror, hreported⟩) other hother
      · rw [hmodel] at hother
        cases hother
      · rw [herror] at hother
        cases hother
        exact hreported
    · intro h
      cases hload : loadFile files path with
      | ok model => exact .inl ⟨model, hload⟩
      | error error => exact .inr ⟨error, hload, h error hload⟩
  · rintro arguments environment request hrequest rfl error herror
    exact ⟨run_of_reported hrequest herror, run_of_not_reported hrequest herror⟩

/-- A working directory with a single file. -/
def singleFile (name : String) (bytes : ByteArray) : FileSystem where
  workingDirectory := ["work"]
  entries := [(["work"], .directory), (["work", name], .file bytes)]

/-- A file that ends in the middle of an object is reported, and the run exits with one. -/
theorem loadsOrReports_iff_unfinished :
    LoadsOrReports (singleFile "m.json" "\x7b".toUTF8) "m.json" ∧
      ∃ message, run ["-i", "m.json", "-o", "out"] [] (singleFile "m.json" "\x7b".toUTF8) =
        ⟨singleFile "m.json" "\x7b".toUTF8, "", message, .ok 1⟩ := by
  obtain ⟨hiff, hrun⟩ := loadsOrReports_iff (singleFile "m.json" "\x7b".toUTF8) "m.json"
  have hread :
      FileSystem.read (singleFile "m.json" "\x7b".toUTF8) "m.json" = .ok "\x7b".toUTF8 := by
    decide +kernel
  have hreports : LoadsOrReports (singleFile "m.json" "\x7b".toUTF8) "m.json" := by
    refine hiff.mpr ⟨by decide, fun bytes hbytes => ?_⟩
    rw [hread] at hbytes
    cases hbytes
    exact String.isValidUTF8 _
  refine ⟨hreports, ?_⟩
  have hfails : (loadFile (singleFile "m.json" "\x7b".toUTF8) "m.json").toOption.isNone := by
    decide +kernel
  rcases hreports with ⟨model, hmodel⟩ | ⟨error, herror, hreported⟩
  · rw [hmodel] at hfails
    cases hfails
  · have hrequest : Request.parse ["-i", "m.json", "-o", "out"] [] =
        .ok ⟨"m.json", "out", none, false, false⟩ := by decide +kernel
    exact ⟨_, (hrun hrequest rfl error herror).1 hreported⟩

/-- A file of sixteen-bit units, with a byte order mark, that holds a document. -/
def wideFile : ByteArray :=
  ⟨#[0xff, 0xfe] ++ ("\x7b\"modules\":[]\x7d".toUTF8.toList.flatMap fun byte => [byte, 0]).toArray⟩

/-- Such a file is neither loaded nor reported: the run is broken off. -/
theorem not_loadsOrReports_wideFile :
    ¬LoadsOrReports (singleFile "m.json" wideFile) "m.json" ∧
      (run ["-i", "m.json", "-o", "out"] [] (singleFile "m.json" wideFile)).result =
        .error .undecodable := by
  have hread : FileSystem.read (singleFile "m.json" wideFile) "m.json" = .ok wideFile := by
    decide +kernel
  have hload : loadFile (singleFile "m.json" wideFile) "m.json" = .error .undecodable := by
    rw [loadFile, hread, loadContents_undecodable _ _ (by decide +kernel)]
  refine ⟨?_, by decide +kernel⟩
  rintro (⟨model, hmodel⟩ | ⟨error, herror, hreported⟩)
  · rw [hload] at hmodel
    cases hmodel
  · rw [hload] at herror
    cases herror
    cases hreported

end Command

end SliceRecords
