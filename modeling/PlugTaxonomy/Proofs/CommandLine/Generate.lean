import PlugTaxonomy.CommandLine.Run
import PlugTaxonomy.Proofs.Files.Clearing

/-!
# Generation, all or nothing

The command that generates files looks before it writes.  What it is to write is known when the
environment, the schema and the format have been looked at, and until then nothing changes.  Then a
transaction writes all files or none.

* `EnvironmentFile.looks_load`, `Artifacts.load_disk` — what is looked at stays as it is;
* `Format.fileNames` — the names of the files, which do not get in the way of one another;
* `Command.planned` — what a command is to write, or why there is nothing to write;
* `generateFiles_planned`, `run_generate` — the command does what is planned;
* `generate_all_or_nothing` — all files are in their places, or nothing has changed.
-/

namespace PlugTaxonomy

open Transaction

/-! ### What is looked at -/

namespace Volume

variable {α β : Type}

/-- An activity leaves the volume as it is. -/
def Looks (activity : StateM Volume α) : Prop :=
  ∀ volume, (activity volume).2 = volume

theorem Looks.pure (a : α) : Looks (pure a) :=
  fun _ => rfl

theorem Looks.bind {activity : StateM Volume α} {next : α → StateM Volume β}
    (h : Looks activity) (hnext : ∀ a, Looks (next a)) : Looks (activity >>= next) := by
  intro volume
  rw [run_bind, h volume]
  exact hnext _ volume

theorem looks_look (operation : Volume → Except FileError α) : Looks (look operation) :=
  fun _ => rfl

end Volume

namespace EnvironmentFile

open Volume (Looks looks_look)

theorem looks_find? (directories : List String) : Looks (find? Volume.disk directories) := by
  induction directories with
  | nil => exact .pure none
  | cons directory directories ih =>
    refine (looks_look _).bind fun kind => ?_
    split
    · exact .pure _
    · exact ih
    · exact ih
    · exact .pure none

/-- The environment is completed without a change of the volume. -/
theorem looks_load (environment : Environment) : Looks (load Volume.disk environment) := by
  have hcurrent : Looks Volume.disk.current := fun _ => rfl
  refine hcurrent.bind fun current => (looks_find? _).bind fun found => ?_
  split
  · exact .pure _
  · refine (looks_look _).bind fun contents => ?_
    split
    · exact .pure _
    · exact .pure _

/-- The environment completed from a file. -/
def completed (volume : Volume) (environment : Environment) : Environment :=
  (load Volume.disk environment volume).1.1

end EnvironmentFile

/-- The text of a file on a volume. -/
def Volume.readText (volume : Volume) (path : String) : Except FileError String := do
  match String.fromUTF8? (← volume.readFile path) with
  | some text => return text
  | none => throw .notText

theorem Volume.readText_disk (path : String) (volume : Volume) :
    disk.readText path volume = (volume.readText path, volume) := by
  rw [Disk.readText, run_bind, readText]
  have hread : disk.readFile path volume = (volume.readFile path, volume) := rfl
  rw [hread]
  cases volume.readFile path with
  | error error => rfl
  | ok contents =>
    simp only [bind, Except.bind]
    cases String.fromUTF8? contents with
    | none => rfl
    | some text => rfl

/-- The schema of a file on a volume, or the reference schema where none is named. -/
def Schema.selected (volume : Volume) : Option String → Except SchemaError Schema
  | none => .ok Reference.schema
  | some path =>
    match volume.readText path with
    | .error error => .error (.unreadable path error)
    | .ok text => (Schema.read text).mapError .unparsable

/-- The schema of a file is the one that its text is read as. -/
theorem Schema.selected_of_readFile {volume : Volume} {path text : String} {schema : Schema}
    (hfile : volume.readFile path = .ok text.toUTF8) (hread : Schema.read text = .ok schema) :
    selected volume (some path) = .ok schema := by
  have htext : String.fromUTF8? text.toUTF8 = some text := dif_pos text.isValidUTF8
  rw [selected, Volume.readText, hfile]
  simp only [bind, Except.bind, htext, pure, Except.pure, hread]
  rfl

theorem Schema.load_disk (path : Option String) (volume : Volume) :
    ∃ log, load Volume.disk path volume = ((selected volume path, log), volume) := by
  cases path with
  | none => exact ⟨_, rfl⟩
  | some path =>
    rw [load, run_bind, Volume.readText_disk, selected]
    cases volume.readText path with
    | error error => exact ⟨_, rfl⟩
    | ok text => exact ⟨_, rfl⟩

/-- The artifacts of the schema that is selected. -/
def Artifacts.selected (volume : Volume) (path : Option String) : Except LoadError Artifacts := do
  let schema ← (Schema.selected volume path).mapError .schema
  (compile schema).mapError .allocation

theorem Artifacts.load_disk (path : Option String) (volume : Volume) :
    ∃ log, load Volume.disk path volume = ((selected volume path, log), volume) := by
  obtain ⟨log, hload⟩ := Schema.load_disk path volume
  rw [load, run_bind, hload, selected]
  cases Schema.selected volume path with
  | error error => exact ⟨_, rfl⟩
  | ok schema => exact ⟨_, rfl⟩

/-! ### What is written -/

/-- The names of the files of a format. -/
def Format.fileNames : Format → List String
  | cpp => ["PlugType.generated.hpp", "Usage.generated.hpp", "functions.generated.cpp"]
  | json => ["plug_types.json"]

theorem Artifacts.names_of_render {artifacts : Artifacts} {format : Format}
    {files : List OutputFile} (h : artifacts.render format = .ok files) :
    files.map (·.name) = format.fileNames := by
  cases format with
  | json =>
    cases h
    rfl
  | cpp =>
    rw [render, cppFiles] at h
    split at h
    · cases h
    · cases h
      rfl

theorem Format.isEntryName_fileNames (format : Format) :
    ∀ name ∈ format.fileNames, IsEntryName name := by
  cases format <;> decide

theorem Format.apart_fileNames (format : Format) : Apart format.fileNames := by
  rw [Apart]
  cases format <;> decide

theorem Format.fileNames_ne_nil (format : Format) : format.fileNames ≠ [] := by
  cases format <;> decide

namespace Command

/-- What a command is to write in an environment, and the directory that it is written to, or why
there is nothing to write. -/
def planned (volume : Volume) (environment : Environment)
    (schema directory format : Option String) : Except Failure (String × List OutputFile) := do
  let format ← (Format.read (format.getD environment.formatName)).mapError
    fun error => ⟨error.message, none⟩
  let artifacts ← (Artifacts.selected volume (schema <|> environment.schemaFile?)).mapError .ofLoad
  let files ← (artifacts.render format).mapError fun error => ⟨error.message, none⟩
  return (directory.getD environment.outputDirectory, files)

section Planned

variable {volume after : Volume} {environment : Environment}
  {schema directory format : Option String} {destination : String} {files : List OutputFile}

/-- What is planned has the artifacts of the schema rendered in a format. -/
theorem rendered_of_planned
    (h : planned volume environment schema directory format = .ok (destination, files)) :
    ∃ kind artifacts, Format.read (format.getD environment.formatName) = .ok kind ∧
      Artifacts.selected volume (schema <|> environment.schemaFile?) = .ok artifacts ∧
      artifacts.render kind = .ok files ∧
      destination = directory.getD environment.outputDirectory := by
  rw [planned] at h
  cases hformat : Format.read (format.getD environment.formatName) with
  | error error =>
    rw [hformat] at h
    cases h
  | ok kind =>
    rw [hformat] at h
    cases hartifacts : Artifacts.selected volume (schema <|> environment.schemaFile?) with
    | error error =>
      rw [hartifacts] at h
      cases h
    | ok artifacts =>
      rw [hartifacts] at h
      cases hfiles : artifacts.render kind with
      | error error =>
        simp only [Except.mapError, hfiles, bind, Except.bind] at h
        cases h
      | ok rendered =>
        simp only [Except.mapError, hfiles, bind, Except.bind] at h
        cases h
        exact ⟨kind, artifacts, rfl, rfl, hfiles, rfl⟩

/-- Where there is nothing to write, nothing changes, not even a directory is made. -/
theorem generateFiles_of_error {failure : Failure}
    (h : planned volume environment schema directory format = .error failure) :
    ∃ log, generateFiles Volume.disk environment schema directory format volume =
      (.failed log failure, volume) := by
  rw [planned] at h
  rw [generateFiles]
  cases hformat : Format.read (format.getD environment.formatName) with
  | error error =>
    rw [hformat] at h
    cases h
    exact ⟨[], rfl⟩
  | ok kind =>
    obtain ⟨log, hload⟩ := Artifacts.load_disk (schema <|> environment.schemaFile?) volume
    rw [hformat] at h
    simp only [run_bind, hload]
    cases hartifacts : Artifacts.selected volume (schema <|> environment.schemaFile?) with
    | error error =>
      rw [hartifacts] at h
      cases h
      exact ⟨log, rfl⟩
    | ok artifacts =>
      rw [hartifacts] at h
      cases hfiles : artifacts.render kind with
      | error error =>
        simp only [Except.mapError, hfiles, bind, Except.bind] at h
        cases h
        simp only [hfiles]
        exact ⟨log, rfl⟩
      | ok rendered =>
        simp only [Except.mapError, hfiles, bind, Except.bind] at h
        cases h

/-- Where there is something to write, it is written in a transaction, and the command fails if
that fails. -/
theorem generateFiles_of_ok
    (h : planned volume environment schema directory format = .ok (destination, files))
    {result : Except WriteError (List String)} {log : List LogEntry}
    (hwrite : writeAll Volume.disk destination files volume = ((result, log), after)) :
    ∃ report, generateFiles Volume.disk environment schema directory format volume =
        (report, after) ∧
      (∀ paths, result = .ok paths → report.failure = none ∧ report.output = paths) ∧
      ∀ error, result = .error error → report.failure = some (.ofWrite error) := by
  obtain ⟨kind, artifacts, hformat, hartifacts, hfiles, rfl⟩ := rendered_of_planned h
  obtain ⟨first, hload⟩ := Artifacts.load_disk (schema <|> environment.schemaFile?) volume
  rw [generateFiles, hformat]
  simp only [run_bind, hload, hartifacts, hfiles, hwrite]
  cases result with
  | ok paths =>
    refine ⟨_, rfl, ?_, fun error herror => (nomatch herror)⟩
    rintro _ ⟨⟩
    exact ⟨rfl, rfl⟩
  | error error =>
    refine ⟨_, rfl, fun paths hpaths => (nomatch hpaths), ?_⟩
    rintro _ ⟨⟩
    rfl

end Planned

end Command

/-! ### The whole command line -/

section Whole

variable {volume after : Volume} {environment : Environment} {arguments : List String}
  {schema directory format : Option String} {outcome : Outcome}

/-- A command line to generate files does that in the environment completed from a file. -/
theorem run_generate {report : Report}
    (hread : Command.read arguments = .ok (.generate schema directory format))
    (hgenerate : Command.generateFiles Volume.disk (EnvironmentFile.completed volume environment)
      schema directory format volume = (report, after)) :
    ∃ outcome, run Volume.disk environment arguments volume = (outcome, after) ∧
      outcome.failure = report.failure ∧ outcome.output = report.output := by
  have hlooks := EnvironmentFile.looks_load environment volume
  rw [EnvironmentFile.completed] at hgenerate
  rcases hload : EnvironmentFile.load Volume.disk environment volume with ⟨⟨found, file⟩, same⟩
  rw [hload] at hlooks hgenerate
  cases hlooks
  rw [run, run_bind, hload]
  simp only [hread, run_bind, Command.perform, hgenerate]
  exact ⟨_, rfl, rfl, rfl⟩

/-- A command line to generate files fails before anything is written, and then nothing changes, or
all that it writes is known.  If there are no hidden files in the way, and no target is a link, it
ends with all files in their places, or it fails, and then nothing has changed but for directories
that were made for the output directory. -/
theorem generate_all_or_nothing (htree : volume.IsTree)
    (hread : Command.read arguments = .ok (.generate schema directory format))
    (hrun : run Volume.disk environment arguments volume = (outcome, after)) :
    (∀ failure,
      Command.planned volume (EnvironmentFile.completed volume environment) schema directory
          format = .error failure →
        outcome.status = 1 ∧ outcome.failure = some failure ∧ after = volume) ∧
    ∀ destination files,
      Command.planned volume (EnvironmentFile.completed volume environment) schema directory
          format = .ok (destination, files) →
      (∀ location,
        IsHiddenPlace (Volume.disk.made destination volume) destination files location →
          volume.entry? location = none) →
      (∀ location,
        IsTargetPlace (Volume.disk.made destination volume) destination files location →
          ∀ link, volume.entry? location ≠ some (.link link)) →
      (outcome.status = 0 ∧
        ∃ place, Volume.Opens (Volume.disk.made destination volume) destination place ∧
          Delivered volume (Volume.disk.made destination volume) destination place files
            after) ∨
      outcome.status = 1 ∧ ∀ location,
        UnchangedAt volume (Volume.disk.made destination volume) after location := by
  refine ⟨fun failure hplanned => ?_, fun destination files hplanned hhidden htargets => ?_⟩
  · obtain ⟨log, hgenerate⟩ := Command.generateFiles_of_error hplanned
    obtain ⟨outcome', hrun', hfailure, -⟩ := run_generate hread hgenerate
    cases hrun.symm.trans hrun'
    have hfailed : outcome.failure = some failure := hfailure
    refine ⟨?_, hfailed, rfl⟩
    rw [Outcome.status, hfailed]
    rfl
  · obtain ⟨kind, artifacts, -, -, hfiles, -⟩ := Command.rendered_of_planned hplanned
    have hnames := Artifacts.names_of_render hfiles
    have hentries : ∀ file ∈ files, IsEntryName file.name := fun file hfile =>
      kind.isEntryName_fileNames _ (hnames ▸ List.mem_map_of_mem hfile)
    have hapart : Apart (files.map (·.name)) := hnames ▸ kind.apart_fileNames
    rcases hwrite : writeAll Volume.disk destination files volume with ⟨⟨result, log⟩, written⟩
    obtain ⟨report, hgenerate, hok, herror⟩ := Command.generateFiles_of_ok hplanned hwrite
    obtain ⟨outcome', hrun', hfailure, -⟩ := run_generate hread hgenerate
    cases hrun.symm.trans hrun'
    cases result with
    | ok paths =>
      refine Or.inl ⟨?_, writeAll_delivered htree hentries hapart hhidden htargets ?_ hwrite⟩
      · rw [Outcome.status, hfailure, (hok paths rfl).1]
        rfl
      · rintro rfl
        exact kind.fileNames_ne_nil hnames.symm
    | error error =>
      refine Or.inr ⟨?_, writeAll_unchanged htree hentries hapart hhidden htargets hwrite⟩
      rw [Outcome.status, hfailure, herror error rfl]
      rfl

/-- A schema file, and an output directory with an old file. -/
def oldTypes : Volume where
  entries := [(["types.json"], .file ("\x7b\"type_bits\": 13, \"bit_count\": 1, \"types\": " ++
      "[\x7b\"name\": \"A\", \"flags\": \"\", \"label\": \"a\"\x7d]\x7d").toUTF8),
    (["out"], .directory), (["out", "plug_types.json"], .file "old".toUTF8)]
  current := []

/-- A command line that generates the JSON file of that schema. -/
def toJson : List String :=
  ["generate", "--schema", "types.json", "--out", "out", "--format", "json"]

theorem old_types_replaced :
    (run Volume.disk [] toJson oldTypes).1.status = 0 ∧
      ∃ files, Command.planned oldTypes (EnvironmentFile.completed oldTypes [])
          (some "types.json") (some "out") (some "json") = .ok ("out", files) ∧
        ∃ place, Volume.Opens (Volume.disk.made "out" oldTypes) "out" place ∧
          Delivered oldTypes (Volume.disk.made "out" oldTypes) "out" place files
            (run Volume.disk [] toJson oldTypes).2 := by
  have hread : Command.read toJson =
      .ok (.generate (some "types.json") (some "out") (some "json")) := by
    decide +kernel
  have hstatus : (run Volume.disk [] toJson oldTypes).1.status = 0 := by decide +kernel
  have hdone : ¬(run Volume.disk [] toJson oldTypes).1.status = 1 := by
    rw [hstatus]
    decide
  obtain ⟨herror, hok⟩ :=
    generate_all_or_nothing (Volume.isTree_of_entries (by decide +kernel)) hread
      (Prod.eta (run Volume.disk [] toJson oldTypes)).symm
  cases hplanned : Command.planned oldTypes (EnvironmentFile.completed oldTypes [])
      (some "types.json") (some "out") (some "json") with
  | error failure => exact absurd (herror failure hplanned).1 hdone
  | ok planned =>
    obtain ⟨destination, files⟩ := planned
    obtain ⟨kind, artifacts, hkind, -, hfiles, rfl⟩ := Command.rendered_of_planned hplanned
    have hjson : Format.read "json" = .ok .json := by decide +kernel
    cases hkind.symm.trans hjson
    have hname : ∀ file ∈ files, file.name ∈ Format.json.fileNames := fun file hfile =>
      Artifacts.names_of_render hfiles ▸ List.mem_map_of_mem hfile
    have hopens : Volume.Opens (Volume.disk.made "out" oldTypes) "out" ["out"] :=
      ⟨by decide +kernel, by decide +kernel⟩
    have hnone : ∀ name ∈ Format.json.fileNames,
        (oldTypes.entry? (["out"] ++ [hiddenName name "tmp"])).isNone ∧
          (oldTypes.entry? (["out"] ++ [hiddenName name "bak"])).isNone := by
      decide +kernel
    have hplain : ∀ name ∈ Format.json.fileNames,
        (oldTypes.entry? (["out"] ++ [name])).map Volume.kind ≠ some .link := by
      decide +kernel
    have htargets : ∀ location, IsTargetPlace (Volume.disk.made "out" oldTypes) "out" files
        location → ∀ link, oldTypes.entry? location ≠ some (.link link) := by
      intro location hplace link hlink
      obtain ⟨file, hfile, rfl⟩ := (isTargetPlace_iff hopens location).mp hplace
      exact hplain _ (hname file hfile) (congrArg (Option.map Volume.kind) hlink)
    rcases hok "out" files hplanned (entry?_of_isHiddenPlace hopens fun file hfile =>
      hnone _ (hname file hfile)) htargets with ⟨-, hdelivered⟩ | ⟨hfailed, -⟩
    · exact ⟨hstatus, files, rfl, hdelivered⟩
    · exact absurd hfailed hdone

end Whole

end PlugTaxonomy
