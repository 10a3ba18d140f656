import PlugTaxonomy.Proofs.Files.AllOrNothing

/-!
# What a transaction that succeeds leaves

A transaction that succeeds takes every file through the same states: its temporary file holds
what it is to contain, then the file is in its place, and in the end its backup is gone.

* `Written`, `Placing`, `Settling` — the states of the files while the three loops run;
* `midway_stage_ok`, `midway_commit_ok`, `midway_settle` — the loops;
* `writeAll_ok`, `delivered_of_settled` — what the volume is like when output has succeeded.
-/

namespace PlugTaxonomy

/-! ### Files that are done -/

namespace Siblings

/-- The file is in its place, and its hidden siblings are gone, but for a backup that has nothing to
do with it. -/
structure Settled (old : Siblings) (contents : ByteArray) (new : Siblings) : Prop where
  temporary : new.temporary = none
  target : new.target = some (.file contents)
  backup : new.backup = none ∨ new.backup = old.backup

/-- No file gets to the place of a directory. -/
theorem Committed.target_ne_directory {old new : Siblings} {hasBackup : Bool}
    (h : old.Committed new hasBackup) : old.target ≠ some .directory := by
  intro hdirectory
  cases h with
  | replaced before after htarget =>
    rw [hdirectory] at htarget
    cases htarget
  | fresh after htarget =>
    rw [hdirectory] at htarget
    cases htarget

/-- A file in its place without a backup is done. -/
theorem Committed.settled_fresh {old new : Siblings} {contents : ByteArray}
    (h : old.Committed new false) (htarget : new.target = some (.file contents)) :
    old.Settled contents new := by
  cases h with
  | fresh after _ => exact ⟨rfl, htarget, Or.inr rfl⟩

/-- A file in its place is done when its backup is gone. -/
theorem Committed.settled_replaced {old new : Siblings} {contents : ByteArray}
    (h : old.Committed new true) (htarget : new.target = some (.file contents)) :
    old.Settled contents { new with backup := none } :=
  ⟨h.temporary, htarget, Or.inl rfl⟩

theorem Committed.backup_of_true {old new : Siblings} (h : old.Committed new true) :
    ∃ before, new.backup = some (.file before) := by
  cases h with
  | replaced before after _ => exact ⟨before, rfl⟩

end Siblings

namespace Transaction

/-! ### Contents -/

/-- What the file with a name is to contain. -/
def contentsOf (files : List OutputFile) (name : String) : ByteArray :=
  ((files.find? fun file => file.name = name).map fun file => file.contents.toUTF8).getD .empty

theorem contentsOf_name {files : List OutputFile} (hnodup : (files.map (·.name)).Nodup)
    {file : OutputFile} (hfile : file ∈ files) :
    contentsOf files file.name = file.contents.toUTF8 := by
  have hfound : files.find? (fun other => other.name = file.name) = some file := by
    induction files with
    | nil => cases hfile
    | cons first files ih =>
      obtain ⟨hfresh, hnodup⟩ := List.nodup_cons.mp hnodup
      rcases List.mem_cons.mp hfile with rfl | hmem
      · exact List.find?_cons_of_pos (decide_eq_true rfl)
      · have hne : first.name ≠ file.name := by
          intro heq
          exact hfresh (List.mem_map.mpr ⟨file, hmem, heq.symm⟩)
        rw [List.find?_cons_of_neg (by simpa using hne)]
        exact ih hnodup hmem
  rw [contentsOf, hfound]
  rfl

/-! ### States -/

/-- A directory that was there is there still. -/
theorem Midway.directory_kept {base v : Volume} {place : Location} {names : List String}
    {holds : String → Siblings → Prop} (h : Midway base place names holds v) {location : Location}
    (hdirectory : base.entry? location = some .directory) :
    v.entry? location = some .directory := by
  rw [← Volume.isDirectoryAt_iff, h.stands.ground.directory location, Volume.isDirectoryAt_iff]
  exact hdirectory

/-- The states of files while temporary files are written, with what they contain. -/
def Written (base : Volume) (place : Location) (content : String → ByteArray) (done : List String)
    (name : String) (siblings : Siblings) : Prop :=
  (name ∈ done →
    siblings = { base.siblings place name with temporary := some (.file (content name)) }) ∧
  (name ∉ done → siblings = base.siblings place name)

/-- The states of files while temporary files are moved to their targets, with what they contain. -/
def Placing (base : Volume) (place : Location) (content : String → ByteArray)
    (done : List (String × Bool)) (rest : List String) (name : String) (siblings : Siblings) :
    Prop :=
  (∀ hasBackup, (name, hasBackup) ∈ done →
    (base.siblings place name).Committed siblings hasBackup ∧
      siblings.target = some (.file (content name))) ∧
  (name ∈ rest → (base.siblings place name).Staged siblings ∧
    siblings.temporary = some (.file (content name)))

/-- The states of files while backups are removed. -/
def Settling (base : Volume) (place : Location) (content : String → ByteArray)
    (left : List (String × Bool)) (name : String) (siblings : Siblings) : Prop :=
  (∀ hasBackup, (name, hasBackup) ∈ left →
    (base.siblings place name).Committed siblings hasBackup ∧
      siblings.target = some (.file (content name))) ∧
  (name ∉ left.map (·.1) → (base.siblings place name).Settled (content name) siblings)

/-- The first of some temporary files gets to its target where all of them do. -/
theorem commit_ok_cases {σ : Type} {disk : Disk (StateM σ)} {done committed : List Committed}
    {file : StagedFile} {files : List StagedFile} {log : List LogEntry} {s s' : σ}
    (hrun : commit disk done (file :: files) s = ((.ok committed, log), s')) :
    ∃ hasBackup first t more, replace disk file s = ((.ok hasBackup, first), t) ∧
      commit disk ((file, hasBackup) :: done) files t = ((.ok committed, more), s') ∧
      log = first ++ more := by
  rcases hreplace : replace disk file s with ⟨⟨outcome, first⟩, t⟩
  rw [commit, run_bind, hreplace] at hrun
  cases outcome with
  | ok hasBackup =>
    rcases hrest : commit disk ((file, hasBackup) :: done) files t with ⟨⟨result, more⟩, t'⟩
    simp only [run_bind, hrest] at hrun
    cases hrun
    exact ⟨hasBackup, first, t, more, rfl, hrest, rfl⟩
  | error cause => cases hrun

/-- What removes the backup of a file. -/
def removeBackup {σ : Type} (disk : Disk (StateM σ)) (file : StagedFile) (hasBackup : Bool) :
    StateM σ (Except FileError Unit) :=
  if hasBackup then disk.removeFile file.backup else pure (.ok ())

theorem settle_cons {σ : Type} {disk : Disk (StateM σ)} (file : StagedFile) (hasBackup : Bool)
    (files : List Committed) (s : σ) :
    (settle disk ((file, hasBackup) :: files) s).2 =
      (settle disk files (removeBackup disk file hasBackup s).2).2 := by
  cases hasBackup with
  | true => rfl
  | false => rfl

/-! ### The loops -/

section Loops

variable {σ : Type} {disk : Disk (StateM σ)} {volume : σ → Volume} {base : Volume}
  {directory : String} {place : Location} {names : List String} {content : String → ByteArray}
  {s s' : σ} {log : List LogEntry}
  (hkeeps : disk.Keeps volume) (hopens : base.Opens directory place)
  (hentries : ∀ name ∈ names, IsEntryName name) (hapart : Apart names)

include hkeeps hopens hentries hapart

/-- When all temporary files are written, each one holds what its file is to contain. -/
theorem midway_stage_ok {done : List String} {files : List OutputFile} {paths : List StagedFile}
    (hnames : names = done ++ files.map (·.name))
    (hcontent : ∀ file ∈ files, content file.name = file.contents.toUTF8)
    (hplain : ∀ name ∈ names, ∀ link, (base.siblings place name).temporary ≠ some (.link link))
    (h : Midway base place names (Written base place content done) (volume s))
    (hrun : stage disk directory (done.map (staged directory)) files s =
      ((.ok paths, log), s')) :
    paths = names.map (staged directory) ∧ log = [] ∧
      Midway base place names (Written base place content names) (volume s') := by
  induction files generalizing done s with
  | nil =>
    rw [List.map_nil, List.append_nil] at hnames
    cases hrun
    rw [hnames]
    exact ⟨rfl, rfl, hnames ▸ h⟩
  | cons file files ih =>
    rcases stage_cases hrun with ⟨t, hwrite, hrest⟩ | ⟨cause, t, -, -, herror⟩
    · have hname : file.name ∈ names := by simp [hnames]
      have hnow := (h.each file.name hname).2 (hapart.fresh hnames)
      have hturned := h.stands.turned_writeFile hopens (hentries file.name hname) .temporary
        (hnow ▸ hplain file.name hname) (hkeeps.writeFile_ok hwrite)
      rw [hnow, ← hcontent file List.mem_cons_self] at hturned
      have hstep : Midway base place names
          (Written base place content (done ++ [file.name])) (volume t) := by
        refine h.turned hapart hname hturned ⟨fun _ => rfl, fun hnot => ?_⟩ ?_
        · exact absurd (List.mem_append_right _ (List.mem_singleton_self _)) hnot
        · rintro other - hne siblings ⟨hwritten, hold⟩
          refine ⟨fun hmem => hwritten ?_, fun hnot => hold fun hmem => hnot ?_⟩
          · exact (List.mem_append.mp hmem).resolve_right fun heq =>
              hne (List.mem_singleton.mp heq)
          · exact List.mem_append_left _ hmem
      have hdone : (done ++ [file.name]).map (staged directory) =
          done.map (staged directory) ++ [staged directory file.name] := by
        rw [List.map_append, List.map_singleton]
      exact ih (by simpa using hnames)
        (fun other hother => hcontent other (List.mem_cons_of_mem _ hother)) hstep (hdone ▸ hrest)
    · cases herror

/-- When all files have got to their places, each one contains what it is to contain. -/
theorem midway_commit_ok {done : List (String × Bool)} {rest : List String}
    {committed : List Committed} (hnames : names = (done.map (·.1)).reverse ++ rest)
    (hcan : ∀ file ∈ done, CanReturn directory file.1 file.2)
    (h : Midway base place names (Placing base place content done rest) (volume s))
    (hrun : commit disk (done.map fun file => (staged directory file.1, file.2))
      (rest.map (staged directory)) s = ((.ok committed, log), s')) :
    ∃ placed : List (String × Bool),
      committed = placed.map (fun file => (staged directory file.1, file.2)) ∧
      placed.map (·.1) = names ∧ log = [] ∧
      (∀ file ∈ placed, CanReturn directory file.1 file.2) ∧
      Midway base place names (Placing base place content placed []) (volume s') := by
  induction rest generalizing done s log with
  | nil =>
    cases hrun
    refine ⟨done.reverse, List.map_reverse.symm, ?_, rfl, ?_, ?_⟩
    · rw [hnames, List.append_nil, List.map_reverse]
    · exact fun file hfile => hcan file (List.mem_reverse.mp hfile)
    · exact h.mono fun name _ siblings hplacing =>
        ⟨fun hasBackup hmem => hplacing.1 hasBackup (List.mem_reverse.mp hmem),
          fun hmem => nomatch hmem⟩
  | cons name rest ih =>
    rw [List.map_cons] at hrun
    obtain ⟨hasBackup, first, t, more, hreplace, hrest, rfl⟩ := commit_ok_cases hrun
    have hname : name ∈ names := by simp [hnames]
    have hfresh := hapart.fresh_placed hnames
    have hlast : name ∉ rest :=
      (List.nodup_cons.mp (List.nodup_append.mp (hnames ▸ hapart.nodup)).2.1).1
    obtain ⟨hstaged, hcontent⟩ := (h.each name hname).2 List.mem_cons_self
    obtain ⟨rfl, new, hturned, hcommitted, htarget⟩ := committed_of_replace hkeeps hopens
      (hentries name hname) h.stands hstaged hreplace
    have hplaced : Midway base place names
        (Placing base place content ((name, hasBackup) :: done) rest) (volume t) := by
      refine h.turned hapart hname hturned ⟨?_, fun hmem => absurd hmem hlast⟩ ?_
      · intro hasBackup' hmem
        rcases List.mem_cons.mp hmem with heq | hmem
        · cases heq
          exact ⟨hcommitted, htarget.trans hcontent⟩
        · exact absurd hmem (hfresh hasBackup')
      · rintro other - hne siblings ⟨hdone, hrest⟩
        refine ⟨fun hasBackup' hmem => ?_, fun hmem => hrest (List.mem_cons_of_mem _ hmem)⟩
        rcases List.mem_cons.mp hmem with heq | hmem
        · cases heq
          exact absurd rfl hne
        · exact hdone hasBackup' hmem
    refine ih (by simpa using hnames) ?_ hplaced hrest
    intro file hfile
    rcases List.mem_cons.mp hfile with rfl | hfile
    · exact canReturn_of_replace hkeeps (hentries name hname) hreplace
    · exact hcan file hfile

end Loops

/-- Backups of files in their places are removed, where the way to their directory stays open. -/
theorem midway_settle {base : Volume} {directory : String} {place : Location} {names : List String}
    {content : String → ByteArray} (hentries : ∀ name ∈ names, IsEntryName name)
    (hapart : Apart names) (hway : StaysOpen base directory place names)
    {left : List (String × Bool)} (hleft : ∀ file ∈ left, file.1 ∈ names)
    (hnodup : (left.map (·.1)).Nodup) (hcan : ∀ file ∈ left, CanReturn directory file.1 file.2)
    {v : Volume} (h : Midway base place names (Settling base place content left) v) :
    Midway base place names (fun name => (base.siblings place name).Settled (content name))
      (settle Volume.disk (left.map fun file => (staged directory file.1, file.2)) v).2 := by
  induction left generalizing v with
  | nil => exact h.mono fun name _ siblings hsettling => hsettling.2 (by simp)
  | cons file left ih =>
    obtain ⟨name, hasBackup⟩ := file
    obtain ⟨hfresh, hnodup⟩ := List.nodup_cons.mp hnodup
    have hname : name ∈ names := hleft (name, hasBackup) List.mem_cons_self
    obtain ⟨hcommitted, htarget⟩ := (h.each name hname).1 hasBackup List.mem_cons_self
    have hothers : ∀ other ∈ names, other ≠ name → ∀ siblings,
        Settling base place content ((name, hasBackup) :: left) other siblings →
          Settling base place content left other siblings := by
      rintro other - hne siblings ⟨hplaced, hsettled⟩
      refine ⟨fun hasBackup' hmem => hplaced hasBackup' (List.mem_cons_of_mem _ hmem),
        fun hnot => hsettled ?_⟩
      rw [List.map_cons, List.mem_cons, not_or]
      exact ⟨hne, hnot⟩
    have hstep : Midway base place names (Settling base place content left)
        (removeBackup Volume.disk (staged directory name) hasBackup v).2 := by
      cases hasBackup with
      | false =>
        refine h.turned hapart hname (.refl place name v) ⟨?_, fun _ => ?_⟩ hothers
        · exact fun _ hmem => absurd (List.mem_map_of_mem hmem) hfresh
        · exact hcommitted.settled_fresh htarget
      | true =>
        obtain ⟨before, hbackup⟩ := hcommitted.backup_of_true
        have hopens : v.Opens directory place := hway v (h.mono fun _ _ _ _ => trivial)
        obtain ⟨w, hremoved, hturned⟩ := Volume.removed_of_file .backup (hentries name hname)
          hopens ((hcan (name, true) List.mem_cons_self).2 rfl) hbackup
        have hstate : (removeBackup Volume.disk (staged directory name) true v).2 = w :=
          congrArg Prod.snd hremoved
        rw [hstate]
        refine h.turned hapart hname hturned ⟨?_, fun _ => ?_⟩ hothers
        · exact fun _ hmem => absurd (List.mem_map_of_mem hmem) hfresh
        · exact hcommitted.settled_replaced htarget
    rw [List.map_cons, settle_cons]
    exact ih (fun file hfile => hleft file (List.mem_cons_of_mem _ hfile)) hnodup
      (fun file hfile => hcan file (List.mem_cons_of_mem _ hfile)) hstep

/-! ### The whole -/

/-- A temporary file that was written has a usable path. -/
theorem usable_of_written {directory name : String} {v w : Volume} {contents : ByteArray}
    (hname : IsEntryName name) (h : v.writeFile (hidden directory name "tmp") contents = .ok w) :
    Volume.IsUsable directory (hiddenName name "tmp") := by
  obtain ⟨_, -, husable, -⟩ :=
    Volume.writeFile_join (isEntryName_hiddenName hname (by decide)) h
  exact husable

/-- Temporary files that were written have usable paths. -/
theorem usable_of_stage {directory : String} {done paths : List StagedFile}
    {files : List OutputFile} {log : List LogEntry} {v after : Volume}
    (hentries : ∀ file ∈ files, IsEntryName file.name)
    (hrun : stage Volume.disk directory done files v = ((.ok paths, log), after))
    (file : OutputFile) (hfile : file ∈ files) :
    Volume.IsUsable directory (hiddenName file.name "tmp") := by
  induction files generalizing done v with
  | nil => cases hfile
  | cons first files ih =>
    rcases stage_cases hrun with ⟨t, hwrite, hrest⟩ | ⟨_, _, -, -, herror⟩
    · rcases List.mem_cons.mp hfile with rfl | hfile
      · exact usable_of_written (hentries file List.mem_cons_self)
          (Volume.keeps_disk.writeFile_ok hwrite)
      · exact ih (fun other hother => hentries other (List.mem_cons_of_mem _ hother)) hrest hfile
    · cases herror

section Whole

variable {volume made after : Volume} {directory : String} {place : Location}
  {files : List OutputFile} {paths : List String} {log : List LogEntry}

/-- What is left when output has succeeded: no target was a directory, and every file is done. -/
theorem writeAll_ok (hentries : ∀ file ∈ files, IsEntryName file.name)
    (hmade : made = Volume.disk.made directory volume) (htree : made.IsTree)
    (hapart : Apart (files.map (·.name))) (hopens : made.Opens directory place)
    (hplain : ∀ name ∈ files.map (·.name),
      ∀ link, (made.siblings place name).temporary ≠ some (.link link))
    (hway : StaysOpen made directory place (files.map (·.name)))
    (hrun : writeAll Volume.disk directory files volume = ((.ok paths, log), after)) :
    paths = files.map (fun file => Path.join directory file.name) ∧
      (∀ name ∈ files.map (·.name), made.isDirectoryAt (place ++ [name]) = false) ∧
      Midway made place (files.map (·.name))
        (fun name => (made.siblings place name).Settled (contentsOf files name)) after := by
  have hnames := names_of_entries hentries
  have hkeeps := Volume.keeps_disk
  obtain ⟨made', staging, v, first, committed, w, more, hcreate, hstage, hcommit, rfl, rfl⟩ :=
    writeAll_ok_cases hrun
  rw [Disk.made, hcreate] at hmade
  subst hmade
  have hstart : Midway made place (files.map (·.name))
      (Written made place (contentsOf files) []) made :=
    (midway_start htree).mono fun name _ siblings heq =>
      ⟨fun hmem => absurd hmem List.not_mem_nil, fun _ => heq⟩
  obtain ⟨rfl, rfl, hwritten⟩ := midway_stage_ok hkeeps hopens hnames hapart
    (List.nil_append _).symm (fun file hfile => contentsOf_name hapart.nodup hfile) hplain
    hstart hstage
  have hplacing : Midway made place (files.map (·.name))
      (Placing made place (contentsOf files) [] (files.map (·.name))) v :=
    hwritten.mono fun name hname siblings hwritten => by
      have hnow := hwritten.1 hname
      refine ⟨fun _ hmem => absurd hmem List.not_mem_nil, fun _ => ⟨⟨_, hnow⟩, ?_⟩⟩
      rw [hnow]
  obtain ⟨placed, rfl, hall, rfl, hcan, hplaced⟩ := midway_commit_ok hkeeps hopens hnames hapart
    (List.nil_append _).symm (fun _ hfile => absurd hfile List.not_mem_nil) hplacing hcommit
  have hfree : ∀ name ∈ files.map (·.name), made.isDirectoryAt (place ++ [name]) = false := by
    intro name hname
    obtain ⟨⟨_, hasBackup⟩, hfile, rfl⟩ := List.mem_map.mp (hall.symm ▸ hname)
    rw [← Bool.not_eq_true, Volume.isDirectoryAt_iff]
    exact ((hplaced.each _ hname).1 hasBackup hfile).1.target_ne_directory
  have hsettled := midway_settle hnames hapart hway
    (fun file hfile => hall ▸ List.mem_map_of_mem hfile) (hall ▸ hapart.nodup) hcan
    (hplaced.mono fun name hname siblings hplacing =>
      ⟨hplacing.1, fun hnot => absurd (hall ▸ hname) hnot⟩)
  exact ⟨by simp [staged, Function.comp_def], hfree, hsettled⟩

/-- Where output succeeds, the paths of the temporary files are usable. -/
theorem usable_of_writeAll_ok (hentries : ∀ file ∈ files, IsEntryName file.name)
    (hrun : writeAll Volume.disk directory files volume = ((.ok paths, log), after)) :
    ∀ file ∈ files, Volume.IsUsable directory (hiddenName file.name "tmp") := by
  obtain ⟨_, _, _, _, _, _, _, -, hstage, -⟩ := writeAll_ok_cases hrun
  exact usable_of_stage hentries hstage

/-- When output has succeeded, all but the targets is as it was, if nothing but directories was in
the places of hidden files. -/
theorem entry?_of_settled (hopens : made.Opens directory place)
    (hhidden : ∀ location, IsHiddenPlace made directory files location →
      made.entry? location = none ∨ made.entry? location = some .directory)
    (h : Midway made place (files.map (·.name))
      (fun name => (made.siblings place name).Settled (contentsOf files name)) after)
    {location : Location} (hlocation : ¬IsTargetPlace made directory files location) :
    after.entry? location = made.entry? location := by
  by_cases hplace : IsHiddenPlace made directory files location
  · rcases hhidden location hplace with hnone | hdirectory
    · obtain ⟨file, hfile, rfl | rfl⟩ := (isHiddenPlace_iff hopens location).mp hplace
      · exact (h.each file.name (List.mem_map_of_mem hfile)).temporary.trans hnone.symm
      · rcases (h.each file.name (List.mem_map_of_mem hfile)).backup with hgone | hsame
        · exact hgone.trans hnone.symm
        · exact hsame
    · rw [hdirectory]
      exact h.directory_kept hdirectory
  · refine h.elsewhere location fun name hname sibling hsibling heq => ?_
    obtain ⟨file, hfile, rfl⟩ := List.mem_map.mp hname
    simp only [siblingNames, List.mem_cons, List.not_mem_nil, or_false] at hsibling
    rcases hsibling with rfl | rfl | rfl
    · exact hplace ⟨place, hopens, file, hfile, Or.inl heq⟩
    · exact hplace ⟨place, hopens, file, hfile, Or.inr heq⟩
    · exact hlocation ⟨place, hopens, file, hfile, heq⟩

/-- What is at a location is what was there before, or a directory that was made for the output
directory. -/
def UnchangedAt (volume made after : Volume) (location : Location) : Prop :=
  after.entry? location = volume.entry? location ∨
    volume.entry? location = none ∧ made.entry? location = some .directory ∧
      after.entry? location = some .directory

theorem unchangedAt_of_eq {location : Location} (hgrown : Volume.Grown volume made)
    (h : after.entry? location = made.entry? location) :
    UnchangedAt volume made after location := by
  rcases hgrown.entries location with hold | ⟨hnone, hdirectory⟩
  · exact Or.inl (h.trans hold)
  · exact Or.inr ⟨hnone, hdirectory, h.trans hdirectory⟩

/-- The directory still opens, every file is in its place there with its contents, and everything
else is unchanged. -/
structure Delivered (volume made : Volume) (directory : String) (place : Location)
    (files : List OutputFile) (after : Volume) : Prop where
  opens : after.Opens directory place
  contents : ∀ file ∈ files,
    after.entry? (place ++ [file.name]) = some (.file file.contents.toUTF8)
  elsewhere : ∀ location, (∀ file ∈ files, location ≠ place ++ [file.name]) →
    UnchangedAt volume made after location

theorem delivered_of_settled (hgrown : Volume.Grown volume made)
    (hapart : Apart (files.map (·.name))) (hopens : made.Opens directory place)
    (hway : StaysOpen made directory place (files.map (·.name)))
    (hhidden : ∀ location, IsHiddenPlace made directory files location →
      made.entry? location = none ∨ made.entry? location = some .directory)
    (h : Midway made place (files.map (·.name))
      (fun name => (made.siblings place name).Settled (contentsOf files name)) after) :
    Delivered volume made directory place files after where
  opens := hway after (h.mono fun _ _ _ _ => trivial)
  contents file hfile := by
    rw [← contentsOf_name hapart.nodup hfile]
    exact (h.each file.name (List.mem_map_of_mem hfile)).target
  elsewhere location hlocation := by
    refine unchangedAt_of_eq hgrown (entry?_of_settled hopens hhidden h fun htarget => ?_)
    obtain ⟨file, hfile, heq⟩ := (isTargetPlace_iff hopens location).mp htarget
    exact hlocation file hfile heq

end Whole

end Transaction

end PlugTaxonomy
