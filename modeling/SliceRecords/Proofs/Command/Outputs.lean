import SliceRecords.Proofs.Code.Declarations
import SliceRecords.Proofs.Code.Files
import SliceRecords.Proofs.Command.Loading
import SliceRecords.Proofs.Document.Soundness
import SliceRecords.Proofs.Model.Outline

/-!
# What a run leaves behind

A run whose input cannot be loaded leaves all files as they are. A run whose input is loaded leaves
each generated file in the output directory, and the dump if it was asked for; other files stay as
they are. Main statement: `run_delivers`.
-/

namespace SliceRecords.Command

open Storage FileSystem Document

/-- Whether an action prints and does nothing else. -/
def Action.IsPrint (action : Action) : Prop :=
  ∃ text, action = .print text

/-- Printing writes no file. -/
theorem Action.IsPrint.writes_eq_nil {action : Action} (h : action.IsPrint) :
    action.writes = [] := by
  obtain ⟨text, rfl⟩ := h
  rfl

/-- So actions that print write no files. -/
theorem flatMap_writes_of_isPrint {actions : List Action} (h : ∀ action ∈ actions, action.IsPrint) :
    actions.flatMap Action.writes = [] :=
  List.flatMap_eq_nil_iff.mpr fun action haction => (h action haction).writes_eq_nil

/-- A line that is printed yields nothing to write. -/
theorem yields_printLine (line : String) : (Plan.act (.printLine line)).Yields () [] :=
  ⟨rfl, rfl⟩

/-- Performing a plan that prints lines prints them and leaves the files as they are. -/
theorem performAll_map_printLine {α : Type} (result : Except Failure α) (lines : List String)
    (files : FileSystem) :
    performAll result (lines.map Action.printLine) files =
      ⟨files, String.join (lines.map (· ++ "\n")), "", result⟩ := by
  induction lines with
  | nil => rfl
  | cons line rest ih =>
    rw [List.map_cons, Action.printLine, performAll, ih, List.map_cons, String.join_cons]

namespace Session

variable {session : Session} {model : Model} {generated : Code.Files}

/-- A session that loads a model prints at most and has the model. -/
theorem load_of_ok (session : Session) {workingPath : String}
    {contents : Except FileError ByteArray}
    (h : loadContents workingPath session.inputFile contents = .ok model)
    (houtline : ∃ text, model.outline? = some text) :
    ∃ prints, (∀ action ∈ prints, action.IsPrint) ∧
      session.load workingPath contents =
        ⟨prints, .ok ({ session with model := some model }, true)⟩ := by
  obtain ⟨text, htext⟩ := houtline
  unfold load
  rw [h]
  dsimp only
  rw [htext]
  split
  · exact ⟨[.printLine s!"[DEBUG] Loaded model:\n{text}"],
      List.forall_mem_singleton.mpr ⟨_, rfl⟩, rfl⟩
  · exact ⟨[], List.forall_mem_nil _, rfl⟩

/-- Without a model nothing is generated. -/
theorem generate_of_none (h : session.model = none) : session.generate = ⟨[], .error .noModel⟩ := by
  rw [generate, h]
  rfl

/-- A session whose files cannot be generated prints its report and does nothing else. -/
theorem generate_of_error (hmodel : session.model = some model) {error : Code.GenerationError}
    (h : Code.generate model session.outputName = .error error) :
    session.generate =
      ⟨(session.report model).map Action.printLine, .error (.generation error)⟩ := by
  unfold generate
  rw [hmodel]
  dsimp only
  rw [h]
  change (⟨_ ++ [], _⟩ : Plan _) = _
  rw [List.append_nil]
  rfl

/-- Once all files are generated, the session makes the output directory and writes one
file after the other. -/
theorem generate_of_ok (hmodel : session.model = some model)
    (h : Code.generate model session.outputName = .ok generated) :
    ∃ prints, (∀ action ∈ prints, action.IsPrint) ∧
      session.generate = ⟨prints ++ .makeDirectories session.outputDirectory ::
        generated.flatMap session.writeFile,
        .ok (generated.map fun file => (file.1, Path.join session.outputDirectory file.1))⟩ := by
  refine ⟨(session.report model).map Action.printLine, ?_, ?_⟩
  · intro action haction
    obtain ⟨line, _, rfl⟩ := List.mem_map.mp haction
    exact ⟨_, rfl⟩
  · unfold generate
    rw [hmodel]
    dsimp only
    rw [h]
    change (⟨_ ++ ([_] ++ (_ ++ [])), _⟩ : Plan _) = _
    rw [List.append_nil]
    rfl

/-- Loading a model with an outline yields the session with this model and writes nothing. -/
theorem yields_load (session : Session) {workingPath : String}
    {contents : Except FileError ByteArray}
    (h : loadContents workingPath session.inputFile contents = .ok model)
    (houtline : ∃ text, model.outline? = some text) :
    (session.load workingPath contents).Yields ({ session with model := some model }, true) [] := by
  obtain ⟨prints, hprints, hload⟩ := session.load_of_ok h houtline
  rw [hload]
  exact ⟨rfl, flatMap_writes_of_isPrint hprints⟩

/-- A dump yields its path and writes the text of the model there. -/
theorem yields_dump (session : Session) :
    session.dump.Yields (Path.join session.outputDirectory dumpName)
      [(Path.join session.outputDirectory dumpName, Model.dump session.model)] :=
  ⟨rfl, rfl⟩

/-- Writing a generated file writes it into the output directory. -/
theorem writes_writeFile (session : Session) (file : String × String) :
    (session.writeFile file).flatMap Action.writes =
      [(Path.join session.outputDirectory file.1, file.2)] := by
  unfold writeFile
  split
  · rfl
  · rfl

/-- Generating yields the paths of the files and writes each of them, in order. -/
theorem yields_generate (hmodel : session.model = some model)
    (h : Code.generate model session.outputName = .ok generated) :
    session.generate.Yields
      (generated.map fun file => (file.1, Path.join session.outputDirectory file.1))
      (generated.map fun file => (Path.join session.outputDirectory file.1, file.2)) := by
  obtain ⟨prints, hprints, hgenerate⟩ := generate_of_ok hmodel h
  have hwrites : (generated.flatMap session.writeFile).flatMap Action.writes =
      generated.map fun file => (Path.join session.outputDirectory file.1, file.2) := by
    rw [List.flatMap_assoc, List.map_eq_flatMap]
    exact List.flatMap_congr fun file _ => session.writes_writeFile file
  constructor
  · rw [hgenerate]
  · rw [hgenerate, List.flatMap_append, flatMap_writes_of_isPrint hprints, List.flatMap_cons,
      hwrites]
    rfl

end Session

/-- What a run with a model puts into the output directory: the dump, if it is asked for,
and the generated files. -/
def Request.outputs (request : Request) (model : Model) (generated : Code.Files) : Code.Files :=
  (if request.dumpModel then [(dumpName, Model.dump (some model))] else []) ++ generated

/-- The paths and texts that put files into a directory. -/
def placements (directory : String) (outputs : Code.Files) : List (String × String) :=
  outputs.map fun output => (Path.join directory output.1, output.2)

/-- A run whose input gives a model plans to write its outputs and to exit with zero. -/
theorem yields_plan {request : Request} {workingPath : String}
    {contents : Except FileError ByteArray} {model : Model} {generated : Code.Files}
    (hload : loadContents workingPath request.input contents = .ok model)
    (houtline : ∃ text, model.outline? = some text)
    (hgenerate : Code.generate model request.outputName = .ok generated) :
    (request.plan workingPath contents).Yields 0
      (placements request.output (request.outputs model generated)) := by
  have hloaded := Session.yields_load request.session hload houtline
  let session : Session := { request.session with model := some model }
  have hmodel : session.model = some model := rfl
  have hclosing (line : String) :
      (do Plan.act (.printLine line); return 0 : Plan Nat).Yields 0 [] :=
    (yields_printLine line).bind (.pure 0)
  have hgenerated := Session.yields_generate hmodel hgenerate
  rw [← List.nil_append (placements _ _)]
  refine hloaded.bind ?_
  dsimp only
  rw [if_pos rfl, Request.outputs, placements, List.map_append, ← List.append_nil (generated.map _)]
  cases hdump : request.dumpModel with
  | false => exact hgenerated.bind (hclosing _)
  | true => exact session.yields_dump.bind (hgenerated.bind (hclosing _))

/-- The file names of a model all end alike. -/
theorem exists_append_of_generate {model : Model} {outputName : Option String}
    {generated : Code.Files} (h : Code.generate model outputName = .ok generated)
    {file : String × String} (hfile : file ∈ generated) : ∃ base, file.1 = base ++ ".cs" := by
  have hmem := List.mem_map_of_mem hfile (f := Prod.fst)
  obtain ⟨module, _, hname⟩ := ((Code.holdByName_of_generate h).mem_iff file.1).mp hmem
  rw [← hname]
  unfold Code.fileName
  split
  · split
    · exact ⟨_, rfl⟩
    · exact ⟨_, rfl⟩
  · exact ⟨_, rfl⟩

/-- The name of a generated file is a file name if it has no slash. -/
theorem isFileName_append {base : String} (h : '/' ∉ (base ++ ".cs").toList) :
    IsFileName (base ++ ".cs") := by
  have hlength (other : String) (hother : other.length < 3) : base ++ ".cs" ≠ other := by
    rintro rfl
    rw [String.length_append] at hother
    have : (".cs" : String).length = 3 := by decide
    omega
  exact ⟨hlength "" (by decide), hlength "." (by decide), hlength ".." (by decide), h⟩

/-- No generated file has the name of the dump. -/
theorem append_ne_dumpName (base : String) : base ++ ".cs" ≠ dumpName := by
  intro h
  have hsuffix : ".cs".toList <:+ dumpName.toList := by
    rw [← h, String.toList_append]
    exact List.suffix_append _ _
  exact absurd hsuffix (by decide)

/-- The names of the outputs are different. -/
theorem nodup_outputs {request : Request} {model : Model} {generated : Code.Files}
    (h : Code.generate model request.outputName = .ok generated) :
    ((request.outputs model generated).map Prod.fst).Nodup := by
  have hnodup := (Code.holdByName_of_generate h).nodup
  rw [Request.outputs]
  cases request.dumpModel with
  | false => exact hnodup
  | true =>
    refine List.nodup_cons.mpr ⟨fun hmem => ?_, hnodup⟩
    obtain ⟨file, hfile, hname⟩ := List.mem_map.mp hmem
    obtain ⟨base, hbase⟩ := exists_append_of_generate h hfile
    exact append_ne_dumpName base (hbase.symm.trans hname)

/-- The names of the outputs are names of files, if no generated one has a slash. -/
theorem isFileName_of_mem_outputs {request : Request} {model : Model} {generated : Code.Files}
    (h : Code.generate model request.outputName = .ok generated)
    (hslash : ∀ file ∈ generated, '/' ∉ file.1.toList) :
    ∀ output ∈ request.outputs model generated, IsFileName output.1 := by
  have hgenerated : ∀ file ∈ generated, IsFileName file.1 := fun file hfile => by
    obtain ⟨base, hbase⟩ := exists_append_of_generate h hfile
    rw [hbase]
    exact isFileName_append (hbase ▸ hslash file hfile)
  have hdump : IsFileName dumpName := ⟨by decide, by decide, by decide, by decide⟩
  rw [Request.outputs]
  cases request.dumpModel with
  | false => exact hgenerated
  | true => exact List.forall_mem_cons.mpr ⟨hdump, hgenerated⟩

/-- Outputs have been put into a directory, which stands at a place, and nothing else has
changed but that there may be directories where nothing was. Names in the directory lead to
places below its own. -/
structure Delivered (before after : FileSystem) (directory : String) (outputs : Code.Files)
    (place : Location) : Prop where
  leads : ∀ {name}, IsFileName name → ∀ {target},
    after.resolve (Path.join directory name) = .ok target → target = ⟨place ++ [name], false⟩
  written : ∀ output ∈ outputs, after.get? (place ++ [output.1]) = some (.file output.2.toUTF8) ∧
    after.read (Path.join directory output.1) = .ok output.2.toUTF8
  other : ∀ location, (∀ output ∈ outputs, location ≠ place ++ [output.1]) →
    after.get? location = before.get? location ∨
      (before.get? location = none ∧ after.get? location = some .directory)

/-- Writing files of different names into a directory delivers them. -/
theorem exists_delivered {before after : FileSystem} {directory : String} {outputs : Code.Files}
    (hnodup : (outputs.map Prod.fst).Nodup) (hnames : ∀ output ∈ outputs, IsFileName output.1)
    (h : Effect before after (placements directory outputs)) :
    ∃ place, Delivered before after directory outputs place := by
  obtain ⟨place, hplace⟩ := exists_location_of_resolve_join after directory
  have hmem {output : String × String} (houtput : output ∈ outputs) :
      (Path.join directory output.1, output.2) ∈ placements directory outputs :=
    List.mem_map_of_mem houtput
  have hleads {output : String × String} (houtput : output ∈ outputs) :
      after.resolve (Path.join directory output.1) = .ok ⟨place ++ [output.1], false⟩ := by
    obtain ⟨location, hlocation⟩ := h.placed _ (hmem houtput)
    rw [hlocation, hplace (hnames output houtput) hlocation]
  have hdifferent : (placements directory outputs).Pairwise fun a b =>
      after.resolve a.1 ≠ after.resolve b.1 := by
    refine List.pairwise_map.mpr
      ((List.pairwise_map.mp hnodup).imp_of_mem fun ha hb hne heq => hne ?_)
    rw [hleads ha, hleads hb] at heq
    simpa using heq
  refine ⟨place, hplace, fun output houtput => ?_, fun location hfree => ?_⟩
  · obtain ⟨location, hlocation, hshort, hfile⟩ := h.holds hdifferent _ (hmem houtput)
    refine ⟨?_, read_of_resolve hlocation hshort hfile⟩
    rw [hleads houtput] at hlocation
    cases hlocation
    exact hfile
  · refine h.other location (List.forall_mem_map.mpr fun output houtput heq => ?_)
    rw [hleads houtput] at heq
    cases heq
    exact hfree output houtput rfl

/-- The field types of a model in a file are well-formed. -/
theorem wellFormed_of_loadFile {files : FileSystem} {path : String} {model : Model}
    (h : loadFile files path = .ok model) :
    ∀ module ∈ model.modules, ∀ struct ∈ module.structs, ∀ field ∈ struct.fields,
      field.type.WellFormed := by
  obtain ⟨bytes, _, h⟩ := Result.bind_eq_ok_iff.mp h
  split at h
  · cases h
  · obtain ⟨json, _, h⟩ := Result.bind_eq_ok_iff.mp h
    have hsound := isSound_of_load (Result.mapError_eq_ok_iff.mp h)
    exact fun module hmodule struct hstruct field hfield =>
      (hsound module hmodule struct hstruct field hfield).wellFormed

/-- There is a dump after a run that delivers exactly if it was asked for or was there before. -/
theorem Delivered.dump_iff {before after : FileSystem} {request : Request} {model : Model}
    {generated : Code.Files} {place : Location}
    (h : Delivered before after request.output (request.outputs model generated) place)
    (hgenerate : Code.generate model request.outputName = .ok generated) :
    (∃ bytes, after.get? (place ++ [dumpName]) = some (.file bytes)) ↔
    request.dumpModel = true ∨ ∃ bytes, before.get? (place ++ [dumpName]) = some (.file bytes) := by
  cases hasked : request.dumpModel with
  | true =>
    have hmem : (dumpName, Model.dump (some model)) ∈ request.outputs model generated := by
      rw [Request.outputs, if_pos hasked]
      exact List.mem_append_left _ List.mem_cons_self
    exact ⟨fun _ => .inl rfl, fun _ => ⟨_, (h.written _ hmem).1⟩⟩
  | false =>
    have hfree :
        ∀ output ∈ request.outputs model generated, place ++ [dumpName] ≠ place ++ [output.1] := by
      intro output houtput heq
      rw [Request.outputs, hasked] at houtput
      obtain ⟨base, hbase⟩ := exists_append_of_generate hgenerate houtput
      exact append_ne_dumpName base (by simpa [hbase] using heq.symm)
    rcases h.other _ hfree with hsame | ⟨hnone, hdirectory⟩
    · rw [hsame]
      simp
    · rw [hnone, hdirectory]
      simp

/-- A run whose input cannot be loaded leaves all files as they are, and exits with one if the
failure is reported. A run whose input gives a model generates all files, and unless it fails on
a file, or a name has a slash, it exits with zero and its outputs are in the output directory;
there is a dump exactly if it was asked for or was there before, and no other file has changed.
In every session all files are generated before the first of them is written, and none is
written without a model. -/
theorem run_delivers {arguments : List String} {environment : Environment} {request : Request}
    (hrequest : Request.parse arguments environment = .ok request) (files : FileSystem) :
    (∀ error, loadFile files request.input = .error error →
      (run arguments environment files).files = files ∧
        (error.isReported = true →
          run arguments environment files = ⟨files, "", s!"Error: {error.message}\n", .ok 1⟩)) ∧
      (∀ model, loadFile files request.input = .ok model →
        ∃ generated, Code.generate model request.outputName = .ok generated ∧
          ((∀ file ∈ generated, '/' ∉ file.1.toList) →
            (∀ error, (run arguments environment files).result ≠ .error (.file error)) →
              (run arguments environment files).result = .ok 0 ∧
                ∃ place,
                  Delivered files (run arguments environment files).files request.output
                    (request.outputs model generated) place ∧
                  ((∃ bytes, (run arguments environment files).files.get? (place ++ [dumpName]) =
                      some (.file bytes)) ↔
                    request.dumpModel = true ∨
                      ∃ bytes, files.get? (place ++ [dumpName]) = some (.file bytes)))) ∧
      ∀ session : Session,
        (session.model = none →
          ∀ files, session.generate.perform files = ⟨files, "", "", .error .noModel⟩) ∧
        ∀ model, session.model = some model →
          (∀ error, Code.generate model session.outputName = .error error →
            ∀ files, session.generate.perform files =
              ⟨files, String.join ((session.report model).map (· ++ "\n")), "",
                .error (.generation error)⟩) ∧
          ∀ generated, Code.generate model session.outputName = .ok generated →
            ∃ prints, (∀ action ∈ prints, action.IsPrint) ∧
              session.generate.actions =
                prints ++ .makeDirectories session.outputDirectory ::
                  generated.flatMap session.writeFile := by
  refine ⟨fun error herror => ?_, fun model hmodel => ?_, fun session => ⟨fun hnone => ?_, ?_⟩⟩
  · refine ⟨?_, run_of_reported hrequest herror⟩
    cases hreported : error.isReported with
    | true => rw [run_of_reported hrequest herror hreported]
    | false =>
      obtain ⟨failure, hrun⟩ := run_of_not_reported hrequest herror hreported
      rw [hrun]
  · have htypes := wellFormed_of_loadFile hmodel
    obtain ⟨generated, hgenerate⟩ := Code.exists_generate htypes request.outputName
    refine ⟨generated, hgenerate, fun hslash hsucceeds => ?_⟩
    have hplan := yields_plan hmodel (Model.exists_outline htypes) hgenerate
    rw [run_of_parse hrequest] at hsucceeds ⊢
    obtain ⟨hresult, heffect⟩ := perform_of_yields hplan files hsucceeds
    obtain ⟨place, hplace⟩ := exists_delivered (nodup_outputs hgenerate)
      (isFileName_of_mem_outputs hgenerate hslash) heffect
    exact ⟨hresult, place, hplace, hplace.dump_iff hgenerate⟩
  · rw [session.generate_of_none hnone]
    exact fun files => rfl
  · refine fun model hmodel => ⟨fun error herror files => ?_, fun generated hgenerate => ?_⟩
    · rw [Session.generate_of_error hmodel herror]
      exact performAll_map_printLine _ _ files
    · obtain ⟨prints, hprints, hplan⟩ := Session.generate_of_ok hmodel hgenerate
      exact ⟨prints, hprints, by rw [hplan]⟩

/-- A file with a document of one module. -/
def demoFiles : FileSystem :=
  singleFile "m.json" "\x7b\"modules\": [\x7b\"name\": \"Demo\", \"structs\": []\x7d]\x7d".toUTF8

/-- Arguments that ask for a dump. -/
def dumpArguments : List String := ["-i", "m.json", "-o", "out", "--dump-model"]

/-- A run over a small document exits with zero, and the dump and the generated file are there. -/
theorem run_delivers_demo :
    (run dumpArguments [] demoFiles).result = .ok 0 ∧
      ∃ model generated place, generated.map Prod.fst = ["Demo.cs"] ∧
        Delivered demoFiles (run dumpArguments [] demoFiles).files "out"
          ((dumpName, Model.dump (some model)) :: generated) place := by
  have hrequest : Request.parse dumpArguments [] = .ok ⟨"m.json", "out", none, true, false⟩ := by
    decide +kernel
  have hresult : (run dumpArguments [] demoFiles).result = .ok 0 := by decide +kernel
  have hnames : (loadFile demoFiles "m.json" >>= fun model =>
      (Code.generate model none).mapError fun _ => .undecodable).toOption.map
        (fun generated => generated.map Prod.fst) = some ["Demo.cs"] := by decide +kernel
  obtain ⟨generated, hgenerated, hgeneratedNames⟩ := Result.exists_of_toOption_map hnames
  obtain ⟨model, hmodel, hgenerate⟩ := Result.bind_eq_ok_iff.mp hgenerated
  rw [Result.mapError_eq_ok_iff] at hgenerate
  obtain ⟨_, hdelivers, _⟩ := run_delivers hrequest demoFiles
  obtain ⟨other, hother, hdelivers⟩ := hdelivers model hmodel
  rw [hgenerate] at hother
  cases hother
  have hslash : ∀ file ∈ generated, '/' ∉ file.1.toList := by
    have hall : ∀ name ∈ generated.map Prod.fst, '/' ∉ name.toList := by
      rw [hgeneratedNames]
      decide
    exact fun file hfile => hall _ (List.mem_map_of_mem hfile)
  have hsucceeds : ∀ error, (run dumpArguments [] demoFiles).result ≠ .error (.file error) := by
    simp [hresult]
  obtain ⟨hexit, place, hplace, _⟩ := hdelivers hslash hsucceeds
  exact ⟨hexit, model, generated, place, hgeneratedNames, hplace⟩

end SliceRecords.Command
