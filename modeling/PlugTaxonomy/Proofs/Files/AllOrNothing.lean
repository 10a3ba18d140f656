import PlugTaxonomy.Proofs.Files.Returning

/-!
# All or nothing

Output that fails leaves everything as it was, on whichever operation it fails, as long as the
files that are in their places already can be taken back (`unchanged_of_writeAll_error`).  They can
if no fault strikes what takes them back (`restored_of_spared`).  Three things are not undone:

* the directories that were made for the output directory stay;
* a link that was replaced before the failure is gone, since only regular files get backups
  (`target_of_rename_error`, `replaced_link_lost`);
* the temporary file of a write that was cut short stays (`cut_short_of_hidden`, `temporary_left`).
-/

namespace PlugTaxonomy

/-- A volume is a tree if each of its entries lies in a directory. -/
theorem Volume.isTree_of_entries {v : Volume}
    (h : ∀ found ∈ v.entries, v.isDirectoryAt found.1.dropLast = true) : v.IsTree := by
  intro location name hentry
  rw [entry?_of_ne_nil (by simp)] at hentry
  obtain ⟨entry, hentry⟩ := Option.isSome_iff_exists.mp hentry
  obtain ⟨front, back, hsplit, -⟩ := List.lookup_eq_some_iff.mp hentry
  have hfound := h (location ++ [name], entry) (by rw [hsplit]; simp)
  rwa [List.dropLast_concat] at hfound

namespace Transaction

/-! ### Places of files -/

/-- The paths of files and of their hidden siblings. -/
def siblingPaths (directory : String) (files : List OutputFile) : List String :=
  files.flatMap fun file =>
    [hidden directory file.name "tmp", hidden directory file.name "bak",
      Path.join directory file.name]

theorem siblingPaths_eq_map (directory : String) (files : List OutputFile) :
    siblingPaths directory files =
      ((files.map (·.name)).flatMap siblingNames).map (Path.join directory) := by
  rw [List.flatMap_map, List.map_flatMap]
  rfl

theorem apart_of_siblingPaths {directory : String} {files : List OutputFile}
    (h : (siblingPaths directory files).Nodup) : Apart (files.map (·.name)) :=
  List.Nodup.of_map (Path.join directory) (siblingPaths_eq_map directory files ▸ h)

theorem nodup_siblingPaths {directory : String} {files : List OutputFile}
    (hentries : ∀ file ∈ files, IsEntryName file.name) (h : Apart (files.map (·.name))) :
    (siblingPaths directory files).Nodup := by
  have hsibling : ∀ sibling ∈ (files.map (·.name)).flatMap siblingNames, IsEntryName sibling := by
    intro sibling hsibling
    obtain ⟨name, hname, hsibling⟩ := List.mem_flatMap.mp hsibling
    exact isEntryName_of_mem_siblingNames (names_of_entries hentries name hname) hsibling
  rw [siblingPaths_eq_map]
  exact List.Nodup.map_on (fun name hname other hother heq =>
    Path.join_injective (hsibling name hname) (hsibling other hother) heq) h

/-- A place of a hidden file beside one of some files, in the directory that opens. -/
def IsHiddenPlace (v : Volume) (directory : String) (files : List OutputFile)
    (location : Location) : Prop :=
  ∃ place, v.Opens directory place ∧ ∃ file ∈ files,
    location = place ++ [hiddenName file.name "tmp"] ∨
      location = place ++ [hiddenName file.name "bak"]

/-- A place of one of some files, in the directory that opens. -/
def IsTargetPlace (v : Volume) (directory : String) (files : List OutputFile)
    (location : Location) : Prop :=
  ∃ place, v.Opens directory place ∧ ∃ file ∈ files, location = place ++ [file.name]

theorem isHiddenPlace_iff {v : Volume} {directory : String} {place : Location}
    {files : List OutputFile} (hopens : v.Opens directory place) (location : Location) :
    IsHiddenPlace v directory files location ↔ ∃ file ∈ files,
      location = place ++ [hiddenName file.name "tmp"] ∨
        location = place ++ [hiddenName file.name "bak"] := by
  constructor
  · rintro ⟨place', hopens', hfile⟩
    cases hopens.unique hopens'
    exact hfile
  · exact fun hfile => ⟨place, hopens, hfile⟩

theorem isTargetPlace_iff {v : Volume} {directory : String} {place : Location}
    {files : List OutputFile} (hopens : v.Opens directory place) (location : Location) :
    IsTargetPlace v directory files location ↔ ∃ file ∈ files, location = place ++ [file.name] := by
  constructor
  · rintro ⟨place', hopens', hfile⟩
    cases hopens.unique hopens'
    exact hfile
  · exact fun hfile => ⟨place, hopens, hfile⟩

/-- Whether there are hidden files is seen at the names of the files. -/
theorem entry?_of_isHiddenPlace {v w : Volume} {directory : String} {place : Location}
    {files : List OutputFile} (hopens : w.Opens directory place)
    (hnone : ∀ file ∈ files, (v.entry? (place ++ [hiddenName file.name "tmp"])).isNone ∧
      (v.entry? (place ++ [hiddenName file.name "bak"])).isNone)
    (location : Location) (hlocation : IsHiddenPlace w directory files location) :
    v.entry? location = none := by
  obtain ⟨file, hfile, rfl | rfl⟩ := (isHiddenPlace_iff hopens location).mp hlocation
  · exact Option.isNone_iff_eq_none.mp (hnone file hfile).1
  · exact Option.isNone_iff_eq_none.mp (hnone file hfile).2

section Places

variable {base v w : Volume} {directory : String} {place : Location} {files : List OutputFile}
  {replaced swept : String → Prop}

/-- Where there is no hidden file, and directories come to places where nothing was, there is no
hidden file that is a link. -/
theorem ne_link_of_grown (hgrown : Volume.Grown v w)
    (hhidden : ∀ location, IsHiddenPlace w directory files location → v.entry? location = none)
    {location : Location} (hlocation : IsHiddenPlace w directory files location) (link : String) :
    w.entry? location ≠ some (.link link) :=
  hgrown.ne_link (fun _ hlink => nomatch (hhidden location hlocation).symm.trans hlink) link

theorem temporary_ne_link_of_grown (hgrown : Volume.Grown v w)
    (hhidden : ∀ location, IsHiddenPlace w directory files location → v.entry? location = none)
    (place : Location) (hopens : w.Opens directory place) (name : String)
    (hname : name ∈ files.map (·.name)) (link : String) :
    (w.siblings place name).temporary ≠ some (.link link) := by
  obtain ⟨file, hfile, rfl⟩ := List.mem_map.mp hname
  exact ne_link_of_grown hgrown hhidden ⟨place, hopens, file, hfile, Or.inl rfl⟩ link

/-- Where there is no hidden file, and no link that is replaced, neither is when directories have
come to places where nothing was. -/
theorem sibling_ne_link_of_grown (hgrown : Volume.Grown v w)
    (hhidden : ∀ location, IsHiddenPlace w directory files location → v.entry? location = none)
    (htargets : ∀ location, IsTargetPlace w directory files location →
      ∀ link, v.entry? location ≠ some (.link link))
    (hopens : w.Opens directory place) (name : String) (hname : name ∈ files.map (·.name))
    (sibling : String) (hsibling : sibling ∈ siblingNames name) (link : String) :
    w.entry? (place ++ [sibling]) ≠ some (.link link) := by
  obtain ⟨file, hfile, rfl⟩ := List.mem_map.mp hname
  simp only [siblingNames, List.mem_cons, List.not_mem_nil, or_false] at hsibling
  rcases hsibling with rfl | rfl | rfl
  · exact ne_link_of_grown hgrown hhidden ⟨place, hopens, file, hfile, Or.inl rfl⟩ link
  · exact ne_link_of_grown hgrown hhidden ⟨place, hopens, file, hfile, Or.inr rfl⟩ link
  · exact hgrown.ne_link (htargets _ ⟨place, hopens, file, hfile, rfl⟩) link

/-- When output has failed, what is not hidden is as it was unless it was a link. -/
theorem entry?_of_leaving (hopens : base.Opens directory place)
    (h : Midway base place (files.map (·.name)) (Leaving base place replaced swept) v)
    (hlinks : ∀ location, IsTargetPlace base directory files location →
      ∀ link, base.entry? location ≠ some (.link link))
    {location : Location} (hhidden : ¬IsHiddenPlace base directory files location) :
    v.entry? location = base.entry? location := by
  by_cases htarget : IsTargetPlace base directory files location
  · obtain ⟨place', hopens', file, hfile, rfl⟩ := htarget
    cases hopens.unique hopens'
    have hleft := h.each file.name (List.mem_map_of_mem hfile)
    by_cases hreplaced : replaced file.name
    · have hlink := hlinks _ ⟨place, hopens, file, hfile, rfl⟩
      exact (hleft.restored hreplaced).trans (withoutLink_of_ne_link hlink)
    · exact hleft.kept hreplaced
  · refine h.elsewhere location fun name hname sibling hsibling heq => ?_
    obtain ⟨file, hfile, rfl⟩ := List.mem_map.mp hname
    simp only [siblingNames, List.mem_cons, List.not_mem_nil, or_false] at hsibling
    rcases hsibling with rfl | rfl | rfl
    · exact hhidden ⟨place, hopens, file, hfile, Or.inl heq⟩
    · exact hhidden ⟨place, hopens, file, hfile, Or.inr heq⟩
    · exact htarget ⟨place, hopens, file, hfile, heq⟩

end Places

/-! ### Files that are replaced -/

section Failure

variable {faults : Faults} {directory : String} {files : List OutputFile} {trial trial' : Trial}
  {error : WriteError} {log : List LogEntry}

/-- When output fails, whichever operations fail, all files that were in their places are taken
back, unless one that would take them back is itself struck by a fault. -/
theorem restored_of_spared (htree : trial.volume.IsTree)
    (hentries : ∀ file ∈ files, IsEntryName file.name)
    (hpaths : (siblingPaths directory files).Nodup)
    (hhidden : ∀ location,
      IsHiddenPlace (faults.disk.made directory trial).volume directory files location →
        trial.volume.entry? location = none)
    (htargets : ∀ location,
      IsTargetPlace (faults.disk.made directory trial).volume directory files location →
        ∀ link, trial.volume.entry? location ≠ some (.link link))
    (hspared : ∀ file ∈ files, ∀ attempts,
      faults attempts (.move (hidden directory file.name "bak") (Path.join directory file.name)) =
          none ∧
        faults attempts (.remove (Path.join directory file.name)) = none)
    (hrun : writeAll faults.disk directory files trial = ((.error error, log), trial')) :
    Restored log := by
  have hgrown := faults.keeps_disk.grown_made directory trial
  refine restored_writeAll faults.keeps_disk hentries (fun file hfile => faults.spares_disk
    (fun attempts => (hspared file hfile attempts).1)
    fun attempts => (hspared file hfile attempts).2) rfl (hgrown.isTree htree)
    (apart_of_siblingPaths hpaths) (temporary_ne_link_of_grown hgrown hhidden) ?_ hrun
  intro place hopens _ cause _
  exact (staysOpen_of_ne_link hopens
    (sibling_ne_link_of_grown hgrown hhidden htargets hopens)).opensAt cause

-- A target must not be a link: this one is on the way to its own directory, which is gone then.
example :
    (writeAll Volume.disk "out/a" [⟨"a", "A"⟩, ⟨"b", "B"⟩]
        ⟨[(["out"], .directory), (["out", "a"], .link ".")], []⟩).1 =
      (.error (.rename "out/a/b" .notDirectory),
        [⟨.warn, .writer, "Could not remove out/a/.b.tmp: Not a directory (os error 20)"⟩,
          ⟨.warn, .writer, "Could not restore out/a/a: Not a directory (os error 20)"⟩]) := by
  decide +kernel

/-- When output fails, whichever operations fail, every entry is as it was before, if the files
that were in their places could be taken back: but for the temporary files and the backups, and for
the directories that were made for the output directory. -/
theorem unchanged_of_writeAll_error (htree : trial.volume.IsTree)
    (hentries : ∀ file ∈ files, IsEntryName file.name)
    (hpaths : (siblingPaths directory files).Nodup)
    (hhidden : ∀ location,
      IsHiddenPlace (faults.disk.made directory trial).volume directory files location →
        trial.volume.entry? location = none)
    (htargets : ∀ location,
      IsTargetPlace (faults.disk.made directory trial).volume directory files location →
        ∀ link, trial.volume.entry? location ≠ some (.link link))
    (hrun : writeAll faults.disk directory files trial = ((.error error, log), trial'))
    (hrestored : Restored log) (location : Location)
    (hlocation :
      ¬IsHiddenPlace (faults.disk.made directory trial).volume directory files location) :
    trial'.volume.entry? location = trial.volume.entry? location ∨
      trial.volume.entry? location = none ∧
        (faults.disk.made directory trial).volume.entry? location = some .directory ∧
        trial'.volume.entry? location = some .directory := by
  have hgrown := faults.keeps_disk.grown_made directory trial
  have hlinks : ∀ location,
      IsTargetPlace (faults.disk.made directory trial).volume directory files location →
        ∀ link, (faults.disk.made directory trial).volume.entry? location ≠ some (.link link) :=
    fun location hplace => hgrown.ne_link (htargets location hplace)
  have hsame : trial'.volume.entry? location =
      (faults.disk.made directory trial).volume.entry? location := by
    rcases writeAll_error faults.keeps_disk hentries rfl (hgrown.isTree htree)
      (apart_of_siblingPaths hpaths) (temporary_ne_link_of_grown hgrown hhidden) hrun hrestored with
      ⟨hmade, -⟩ | ⟨place, front, name, back, cause, hopens, -, ⟨-, hleft⟩ | ⟨-, hleft⟩⟩
    · rw [hmade]
    · exact entry?_of_leaving hopens hleft hlinks hlocation
    · exact entry?_of_leaving hopens hleft hlinks hlocation
  rcases hgrown.entries location with hold | ⟨hnone, hdirectory⟩
  · exact Or.inl (hsame.trans hold)
  · exact Or.inr ⟨hnone, hdirectory, hsame.trans hdirectory⟩

/-- An output directory with an old file. -/
def oldOutput : Volume where
  entries := [(["out"], .directory), (["out", "a"], .file "old".toUTF8)]
  current := []

/-- One file for the old one, and two that are new. -/
def newOutput : List OutputFile :=
  [⟨"a", "A"⟩, ⟨"b", "B"⟩, ⟨"c", "C"⟩]

/-- The last file cannot be moved to its target. -/
def busyTarget : Faults
  | _, .move _ target => if target = "out/c" then some ⟨.busy, none⟩ else none
  | _, _ => none

theorem old_file_of_busy_target :
    (writeAll busyTarget.disk "out" newOutput ⟨oldOutput, 0⟩).1 =
        (.error (.rename "out/c" .busy), []) ∧
      (writeAll busyTarget.disk "out" newOutput ⟨oldOutput, 0⟩).2.volume.entry? ["out", "a"] =
        some (.file "old".toUTF8) := by
  have hrun : (writeAll busyTarget.disk "out" newOutput ⟨oldOutput, 0⟩).1 =
      (.error (.rename "out/c" .busy), []) := by
    decide +kernel
  have hopens : (busyTarget.disk.made "out" ⟨oldOutput, 0⟩).volume.Opens "out" ["out"] :=
    ⟨by decide +kernel, by decide +kernel⟩
  have hhidden : ∀ location, IsHiddenPlace (busyTarget.disk.made "out" ⟨oldOutput, 0⟩).volume "out"
      newOutput location → oldOutput.entry? location = none :=
    entry?_of_isHiddenPlace hopens (by decide +kernel)
  have htargets : ∀ location, IsTargetPlace (busyTarget.disk.made "out" ⟨oldOutput, 0⟩).volume "out"
      newOutput location → ∀ link, oldOutput.entry? location ≠ some (.link link) := by
    have hkinds : ∀ file ∈ newOutput,
        (oldOutput.entry? ["out", file.name]).map Volume.kind ≠ some .link := by
      decide +kernel
    intro location hplace link hlink
    obtain ⟨file, hfile, rfl⟩ := (isTargetPlace_iff hopens location).mp hplace
    exact hkinds file hfile (congrArg (Option.map Volume.kind) hlink)
  have hshown : ¬IsHiddenPlace (busyTarget.disk.made "out" ⟨oldOutput, 0⟩).volume "out" newOutput
      ["out", "a"] := by
    rw [isHiddenPlace_iff hopens]
    decide +kernel
  refine ⟨hrun, ?_⟩
  rcases unchanged_of_writeAll_error (Volume.isTree_of_entries (by decide +kernel))
    (by decide +kernel) (by decide +kernel) hhidden htargets (Prod.ext hrun rfl) restored_nil _
    hshown with hsame | ⟨hnone, -⟩
  · exact hsame
  · cases hnone

/-- When output fails and everything that is to be cleaned up can be, a hidden file that is left is
a temporary one, and a fault has cut its write short. -/
theorem cut_short_of_hidden (htree : trial.volume.IsTree)
    (hentries : ∀ file ∈ files, IsEntryName file.name)
    (hpaths : (siblingPaths directory files).Nodup)
    (hhidden : ∀ location,
      IsHiddenPlace (faults.disk.made directory trial).volume directory files location →
        (faults.disk.made directory trial).volume.entry? location = none)
    (hrun : writeAll faults.disk directory files trial = ((.error error, []), trial'))
    {location : Location}
    (hlocation : IsHiddenPlace (faults.disk.made directory trial).volume directory files location)
    (hfound : trial'.volume.entry? location ≠ none) :
    ∃ place, (faults.disk.made directory trial).volume.Opens directory place ∧
      ∃ file ∈ files, location = place ++ [hiddenName file.name "tmp"] ∧
        (∃ cause, error = .write (hidden directory file.name "tmp") cause) ∧
        ∃ attempts fault, faults attempts (.write (hidden directory file.name "tmp")) = some fault ∧
          fault.written ≠ none := by
  obtain ⟨place, hopens, file, hfile, hplace⟩ := hlocation
  have hgrown := faults.keeps_disk.grown_made directory trial
  have hbackup := hhidden _ ⟨place, hopens, file, hfile, Or.inr rfl⟩
  have htemporary := hhidden _ ⟨place, hopens, file, hfile, Or.inl rfl⟩
  -- Cleaned up, neither hidden file of a name is left.
  have hcleaned : ∀ {replaced swept : String → Prop},
      Midway (faults.disk.made directory trial).volume place (files.map (·.name))
        (Leaving (faults.disk.made directory trial).volume place replaced swept) trial'.volume →
      location = place ++ [hiddenName file.name "tmp"] ∧ ¬swept file.name := by
    intro replaced swept hleaving
    have hleft := hleaving.each file.name (List.mem_map_of_mem hfile)
    rcases hplace with rfl | rfl
    · exact ⟨rfl, fun hswept => hfound (hleft.temporary hswept htemporary)⟩
    · exact absurd (hleft.backup hbackup) hfound
  have hplain := temporary_ne_link_of_grown (.refl _) hhidden
  rcases writeAll_error faults.keeps_disk hentries rfl (hgrown.isTree htree)
    (apart_of_siblingPaths hpaths) hplain hrun restored_nil with
    ⟨hmade, -⟩ | ⟨place', front, name, back, cause, hopens', -, ⟨herror, hleft⟩ | ⟨-, hleft⟩⟩
  · rw [hmade] at hfound
    rcases hplace with rfl | rfl
    · exact absurd htemporary hfound
    · exact absurd hbackup hfound
  · cases hopens.unique hopens'
    obtain ⟨rfl, hunswept⟩ := hcleaned hleft
    rw [not_and, Classical.not_imp] at hunswept
    obtain ⟨rfl, hcut⟩ := hunswept rfl
    refine ⟨place, hopens, file, hfile, rfl, ⟨cause, herror⟩, ?_⟩
    by_contra hnone
    refine hcut (faults.writesWhole_disk fun attempts fault hfault => ?_)
    by_contra hwritten
    exact hnone ⟨attempts, fault, hfault, hwritten⟩
  · cases hopens.unique hopens'
    exact absurd rfl (hcleaned hleft).2

/-- The disk is full when the second temporary file is created. -/
def fullDisk : Faults
  | _, .write path =>
    if path = "out/.b.tmp" then some ⟨.other "No space left on device (os error 28)", some 0⟩
    else none
  | _, _ => none

theorem cut_short_on_full_disk :
    (writeAll fullDisk.disk "out" newOutput ⟨oldOutput, 0⟩).2.volume.entry? ["out", ".b.tmp"] ≠
        none ∧
      ∃ place, (fullDisk.disk.made "out" ⟨oldOutput, 0⟩).volume.Opens "out" place ∧
        ∃ file ∈ newOutput, ["out", ".b.tmp"] = place ++ [hiddenName file.name "tmp"] ∧
          (∃ cause, WriteError.write "out/.b.tmp" (.other "No space left on device (os error 28)") =
            .write (hidden "out" file.name "tmp") cause) ∧
          ∃ attempts fault, fullDisk attempts (.write (hidden "out" file.name "tmp")) = some fault ∧
            fault.written ≠ none := by
  have hrun : (writeAll fullDisk.disk "out" newOutput ⟨oldOutput, 0⟩).1 =
      (.error (.write "out/.b.tmp" (.other "No space left on device (os error 28)")), []) := by
    decide +kernel
  have hopens : (fullDisk.disk.made "out" ⟨oldOutput, 0⟩).volume.Opens "out" ["out"] :=
    ⟨by decide +kernel, by decide +kernel⟩
  have hlocation : IsHiddenPlace (fullDisk.disk.made "out" ⟨oldOutput, 0⟩).volume "out" newOutput
      ["out", ".b.tmp"] :=
    (isHiddenPlace_iff hopens _).mpr (by decide +kernel)
  have hfound : (writeAll fullDisk.disk "out" newOutput ⟨oldOutput, 0⟩).2.volume.entry?
      ["out", ".b.tmp"] ≠ none := by
    rw [← Option.isSome_iff_ne_none]
    decide +kernel
  exact ⟨hfound, cut_short_of_hidden (Volume.isTree_of_entries (by decide +kernel))
    (by decide +kernel) (by decide +kernel) (entry?_of_isHiddenPlace hopens (by decide +kernel))
    (Prod.ext hrun rfl) hlocation hfound⟩

/-- No hidden file was there, output fails, everything that is cleaned up can be, and a hidden file
is there: the one that was created when the disk was full, or, if the output directory is named in
that way, one that was made on the way to it. -/
theorem temporary_left :
    (oldOutput.IsTree ∧ (∀ file ∈ newOutput, IsEntryName file.name) ∧
        (siblingPaths "out" newOutput).Nodup ∧
        (∀ file ∈ newOutput, oldOutput.entry? ["out", hiddenName file.name "tmp"] = none ∧
          oldOutput.entry? ["out", hiddenName file.name "bak"] = none) ∧
        (writeAll fullDisk.disk "out" newOutput ⟨oldOutput, 0⟩).1 =
          (.error (.write "out/.b.tmp" (.other "No space left on device (os error 28)")), []) ∧
        (writeAll fullDisk.disk "out" newOutput ⟨oldOutput, 0⟩).2.volume.entry? ["out", ".b.tmp"] ≠
          none) ∧
      (siblingPaths "out/.a.tmp/.." [⟨"a", "A"⟩]).Nodup ∧
        (writeAll Volume.disk "out/.a.tmp/.." [⟨"a", "A"⟩] ⟨[], []⟩).1 =
          (.error (.write "out/.a.tmp/../.a.tmp" .isDirectory), []) ∧
        Volume.entry? (writeAll Volume.disk "out/.a.tmp/.." [⟨"a", "A"⟩] ⟨[], []⟩).2
            ["out", ".a.tmp"] ≠ none := by
  refine ⟨⟨Volume.isTree_of_entries (by decide +kernel), by decide +kernel, by decide +kernel,
    by decide +kernel, by decide +kernel, ?_⟩, by decide +kernel, by decide +kernel, ?_⟩
  · rw [← Option.isSome_iff_ne_none]
    decide +kernel
  · rw [← Option.isSome_iff_ne_none]
    decide +kernel

end Failure

/-! ### Links that are replaced -/

/-- When a file cannot be moved to its target because of a directory, all targets are what they
were, but that a link is gone if it was replaced before. -/
theorem target_of_rename_error {volume after : Volume} {directory path : String}
    {files : List OutputFile} {log : List LogEntry} (htree : volume.IsTree)
    (hentries : ∀ file ∈ files, IsEntryName file.name)
    (hpaths : (siblingPaths directory files).Nodup)
    (hhidden : ∀ location,
      IsHiddenPlace (Volume.disk.made directory volume) directory files location →
        volume.entry? location = none)
    (hrun : writeAll Volume.disk directory files volume =
      ((.error (.rename path .isDirectory), log), after)) :
    ∃ place front name back, (Volume.disk.made directory volume).Opens directory place ∧
      files.map (·.name) = front ++ name :: back ∧ path = Path.join directory name ∧
      ∀ other ∈ files.map (·.name), ∀ entry, volume.entry? (place ++ [other]) = some entry →
        after.entry? (place ++ [other]) =
          if other ∈ front then withoutLink (some entry) else some entry := by
  have hgrown := Volume.keeps_disk.grown_made directory volume
  have hapart := apart_of_siblingPaths hpaths
  have hplain := temporary_ne_link_of_grown hgrown hhidden
  have hrestored : Restored log := by
    refine restored_writeAll Volume.keeps_disk hentries (fun _ _ => Volume.spares_disk _) rfl
      (hgrown.isTree htree) hapart hplain ?_ hrun
    rintro place hopens path cause ⟨⟩
    exact opensAt_isDirectory hopens (names_of_entries hentries)
  rcases writeAll_error Volume.keeps_disk hentries rfl (hgrown.isTree htree) hapart hplain hrun
    hrestored with
    ⟨-, hrename⟩ | ⟨place, front, name, back, cause', hopens, hsplit, ⟨herror, -⟩ | ⟨herror, hleft⟩⟩
  · exact absurd rfl (hrename path _)
  · cases herror
  · cases herror
    refine ⟨place, front, name, back, hopens, hsplit, rfl, fun other hother entry hentry => ?_⟩
    have hmade :
        Volume.entry? (Volume.disk.made directory volume) (place ++ [other]) = some entry := by
      rcases hgrown.entries (place ++ [other]) with hsame | ⟨hnone, -⟩
      · exact hsame.trans hentry
      · rw [id, hentry] at hnone
        cases hnone
    by_cases hfront : other ∈ front
    · rw [if_pos hfront, ← hmade]
      exact (hleft.each other hother).restored hfront
    · rw [if_neg hfront, ← hmade]
      exact (hleft.each other hother).kept hfront

/-- An output directory with a link, and a directory in the way. -/
def linkedOutput : Volume where
  entries := [(["out"], .directory), (["out", "a"], .link "elsewhere"), (["out", "b"], .directory)]
  current := []

theorem targets_beside_directory :
    ∃ place front name back, (Volume.disk.made "out" linkedOutput).Opens "out" place ∧
      [("a" : String), "b"] = front ++ name :: back ∧ "out/b" = Path.join "out" name ∧
      ∀ other ∈ [("a" : String), "b"], ∀ entry,
        linkedOutput.entry? (place ++ [other]) = some entry →
          Volume.entry? (writeAll Volume.disk "out" [⟨"a", "A"⟩, ⟨"b", "B"⟩] linkedOutput).2
              (place ++ [other]) =
            if other ∈ front then withoutLink (some entry) else some entry := by
  have hrun : (writeAll Volume.disk "out" [⟨"a", "A"⟩, ⟨"b", "B"⟩] linkedOutput).1 =
      (.error (.rename "out/b" .isDirectory), []) := by
    decide +kernel
  have hopens : (Volume.disk.made "out" linkedOutput).Opens "out" ["out"] :=
    ⟨by decide +kernel, by decide +kernel⟩
  exact target_of_rename_error (Volume.isTree_of_entries (by decide +kernel)) (by decide +kernel)
    (by decide +kernel) (entry?_of_isHiddenPlace hopens (by decide +kernel)) (Prod.ext hrun rfl)

/-- A link was there, output fails since a later target is a directory, everything that is taken
back can be, and nothing is there. -/
theorem replaced_link_lost :
    linkedOutput.IsTree ∧ (∀ name ∈ [("a" : String), "b"], IsEntryName name) ∧
      (siblingPaths "out" [⟨"a", "A"⟩, ⟨"b", "B"⟩]).Nodup ∧
      (∀ name ∈ [("a" : String), "b"],
        linkedOutput.entry? ["out", hiddenName name "tmp"] = none ∧
          linkedOutput.entry? ["out", hiddenName name "bak"] = none) ∧
      (writeAll Volume.disk "out" [⟨"a", "A"⟩, ⟨"b", "B"⟩] linkedOutput).1 =
        (.error (.rename "out/b" .isDirectory), []) ∧
      linkedOutput.entry? ["out", "a"] = some (.link "elsewhere") ∧
      Volume.entry? (writeAll Volume.disk "out" [⟨"a", "A"⟩, ⟨"b", "B"⟩] linkedOutput).2
        ["out", "a"] = none :=
  ⟨Volume.isTree_of_entries (by decide +kernel), by decide +kernel, by decide +kernel,
    by decide +kernel, by decide +kernel, rfl, by decide +kernel⟩

end Transaction

end PlugTaxonomy
