import PlugTaxonomy.Proofs.Files.Siblings

/-!
# Steps of a transaction on one file

While output is written, a file is as it was, its temporary file is written, or it is in its place.
The steps on one file take it from one state to the next, or leave it in its state.

* `Siblings.Staged`, `Siblings.Committed`, `Siblings.Left` — the states of a file;
* `discard_cons`, `rollBack_cons`, `stage_cases`, `commit_cases` — the loops, one file at a time;
* `writeAll_ok_cases`, `writeAll_error_cases` — the loops one after the other;
* `Restored` — no file could not be taken back, as far as a log tells;
* `Replacing` — all that can happen when a temporary file is moved to its target;
* `committed_of_replace`, `turned_of_replace_error`, `turned_takenBack` — the steps.
-/

namespace PlugTaxonomy

/-! ### States of a file -/

/-- What is there without links. -/
def withoutLink : Option Entry → Option Entry
  | some (.link _) => none
  | found => found

theorem withoutLink_of_ne_link {found : Option Entry} (h : ∀ link, found ≠ some (.link link)) :
    withoutLink found = found := by
  cases found with
  | none => rfl
  | some entry =>
    cases entry with
    | file contents => rfl
    | directory => rfl
    | link target => exact absurd rfl (h target)

namespace Siblings

/-- The temporary file is written. -/
def Staged (old new : Siblings) : Prop :=
  ∃ contents, new = { old with temporary := some (.file contents) }

theorem Staged.ne_link {old new : Siblings} (h : Staged old new) (link : String) :
    new.temporary ≠ some (.link link) := by
  obtain ⟨contents, rfl⟩ := h
  exact fun hlink => nomatch hlink

/-- The file is in its place, with a backup if it replaced a file. -/
inductive Committed (old : Siblings) : Siblings → Bool → Prop
  | replaced (before after : ByteArray) (htarget : old.target = some (.file before)) :
    Committed old ⟨none, some (.file before), some (.file after)⟩ true
  | fresh (after : ByteArray) (htarget : withoutLink old.target = none) :
    Committed old ⟨none, old.backup, some (.file after)⟩ false

/-- What is left of a file that was in its place and was taken back. -/
def takenBack (old : Siblings) : Bool → Siblings
  | true => ⟨none, none, old.target⟩
  | false => ⟨none, old.backup, none⟩

/-- What is left of a file when output has failed.  A target that was replaced is back unless it
was a link.  No backup is left, and no temporary file if those were swept up. -/
structure Left (old : Siblings) (replaced swept : Prop) (new : Siblings) : Prop where
  kept : ¬replaced → new.target = old.target
  restored : replaced → new.target = withoutLink old.target
  backup : old.backup = none → new.backup = none
  temporary : swept → old.temporary = none → new.temporary = none

theorem Committed.left_takenBack {old new : Siblings} {hasBackup : Bool} {replaced swept : Prop}
    (h : Committed old new hasBackup) (hreplaced : replaced) :
    Left old replaced swept (old.takenBack hasBackup) := by
  cases h with
  | replaced before after htarget =>
    refine ⟨fun hnot => absurd hreplaced hnot, fun _ => ?_, fun _ => rfl, fun _ _ => rfl⟩
    rw [takenBack, htarget]
    rfl
  | fresh after htarget =>
    refine ⟨fun hnot => absurd hreplaced hnot, fun _ => ?_, fun hnone => hnone, fun _ _ => rfl⟩
    exact htarget.symm

/-- A file in its place has no temporary file. -/
theorem Committed.temporary {old new : Siblings} {hasBackup : Bool}
    (h : Committed old new hasBackup) : new.temporary = none := by
  cases h with
  | replaced before after htarget => rfl
  | fresh after htarget => rfl

theorem Committed.discarded {old new : Siblings} {hasBackup : Bool}
    (h : Committed old new hasBackup) :
    Committed old { new with temporary := none } hasBackup := by
  cases h with
  | replaced before after htarget => exact .replaced before after htarget
  | fresh after htarget => exact .fresh after htarget

/-- To take a file back takes no link away. -/
theorem Committed.linksKept {old new : Siblings} {hasBackup : Bool}
    (h : Committed old new hasBackup) : new.LinksKept (old.takenBack hasBackup) := by
  cases h with
  | replaced before after htarget =>
    exact ⟨fun _ hlink => (nomatch hlink), fun _ hlink => (nomatch hlink),
      fun _ hlink => nomatch hlink⟩
  | fresh after htarget =>
    exact ⟨fun _ hlink => hlink, fun _ hlink => hlink, fun _ hlink => nomatch hlink⟩

end Siblings

namespace Transaction

/-! ### Runs -/

section Run

variable {σ : Type} {disk : Disk (StateM σ)}

theorem run_bind {α β : Type} (activity : StateM σ α) (next : α → StateM σ β) (s : σ) :
    (activity >>= next) s = next (activity s).1 (activity s).2 :=
  rfl

theorem discard_cons (file : StagedFile) (files : List StagedFile) (s : σ) :
    discard disk (file :: files) s =
      (warning notRemoved file.temporary (disk.removeFile file.temporary s).1 ++
          (discard disk files (disk.removeFile file.temporary s).2).1,
        (discard disk files (disk.removeFile file.temporary s).2).2) :=
  rfl

/-- What takes a file back from its place. -/
def takeBack (disk : Disk (StateM σ)) (file : StagedFile) (hasBackup : Bool) :
    StateM σ (Except FileError Unit) :=
  if hasBackup then disk.rename file.backup file.target else disk.removeFile file.target

theorem rollBack_cons (file : StagedFile) (hasBackup : Bool) (files : List Committed) (s : σ) :
    rollBack disk ((file, hasBackup) :: files) s =
      (warning notRestored file.target (takeBack disk file hasBackup s).1 ++
          (rollBack disk files (takeBack disk file hasBackup s).2).1,
        (rollBack disk files (takeBack disk file hasBackup s).2).2) := by
  cases hasBackup with
  | true => rfl
  | false => rfl

/-- The first of some temporary files is written, or the ones in front of it are discarded. -/
theorem stage_cases {directory : String} {done : List StagedFile} {file : OutputFile}
    {files : List OutputFile} {result : Except WriteError (List StagedFile)} {log : List LogEntry}
    {s s' : σ} (hrun : stage disk directory done (file :: files) s = ((result, log), s')) :
    (∃ t, disk.writeFile (hidden directory file.name "tmp") file.contents.toUTF8 s = (.ok (), t) ∧
      stage disk directory (done ++ [staged directory file.name]) files t = ((result, log), s')) ∨
    ∃ cause t,
      disk.writeFile (hidden directory file.name "tmp") file.contents.toUTF8 s = (.error cause, t) ∧
      discard disk done t = (log, s') ∧
      result = .error (.write (hidden directory file.name "tmp") cause) := by
  rcases hwrite : disk.writeFile (hidden directory file.name "tmp") file.contents.toUTF8 s with
    ⟨outcome, t⟩
  rw [stage, run_bind] at hrun
  simp only [staged, hwrite] at hrun
  cases outcome with
  | ok _ => exact Or.inl ⟨t, rfl, hrun⟩
  | error cause =>
    cases hrun
    exact Or.inr ⟨cause, t, rfl, rfl, rfl⟩

/-- The first of some temporary files gets to its target, or everything is undone. -/
theorem commit_cases {done : List Committed} {file : StagedFile} {files : List StagedFile}
    {error : WriteError} {log : List LogEntry} {s s' : σ}
    (hrun : commit disk done (file :: files) s = ((.error error, log), s')) :
    (∃ hasBackup first t more, replace disk file s = ((.ok hasBackup, first), t) ∧
      commit disk ((file, hasBackup) :: done) files t = ((.error error, more), s') ∧
      log = first ++ more) ∨
    ∃ cause first t swept t' undone, replace disk file s = ((.error cause, first), t) ∧
      discard disk (file :: files) t = (swept, t') ∧ rollBack disk done t' = (undone, s') ∧
      error = .rename file.target cause ∧ log = first ++ swept ++ undone := by
  rcases hreplace : replace disk file s with ⟨⟨outcome, first⟩, t⟩
  rw [commit, run_bind, hreplace] at hrun
  cases outcome with
  | ok hasBackup =>
    rcases hrest : commit disk ((file, hasBackup) :: done) files t with ⟨⟨result, more⟩, t'⟩
    simp only [run_bind, hrest] at hrun
    cases hrun
    exact Or.inl ⟨hasBackup, first, t, more, rfl, hrest, rfl⟩
  | error cause =>
    cases hrun
    exact Or.inr ⟨cause, first, t, _, _, _, rfl, rfl, rfl, rfl, rfl⟩

/-- Output has succeeded when its loops have, one after the other. -/
theorem writeAll_ok_cases {directory : String} {files : List OutputFile} {paths : List String}
    {log : List LogEntry} {s s' : σ}
    (hrun : writeAll disk directory files s = ((.ok paths, log), s')) :
    ∃ made staging t first committed t' more,
      disk.createAll directory s = (.ok (), made) ∧
      stage disk directory [] files made = ((.ok staging, first), t) ∧
      commit disk [] staging t = ((.ok committed, more), t') ∧
      paths = staging.map (·.target) ∧ s' = (settle disk committed t').2 := by
  rcases hcreate : disk.createAll directory s with ⟨created, made⟩
  rw [writeAll, run_bind, hcreate] at hrun
  cases created with
  | error cause => cases hrun
  | ok _ =>
    rcases hstage : stage disk directory [] files made with ⟨⟨staged?, first⟩, t⟩
    simp only [run_bind, hstage] at hrun
    cases staged? with
    | error error => cases hrun
    | ok staging =>
      rcases hcommit : commit disk [] staging t with ⟨⟨committed?, more⟩, t'⟩
      simp only [run_bind, hcommit] at hrun
      cases committed? with
      | error error => cases hrun
      | ok committed =>
        cases hrun
        exact ⟨made, staging, t, first, committed, t', more, rfl, hstage, hcommit, rfl, rfl⟩

/-- Output has failed when the directory cannot be created, or one of the loops has failed. -/
theorem writeAll_error_cases {directory : String} {files : List OutputFile} {error : WriteError}
    {log : List LogEntry} {s s' : σ}
    (hrun : writeAll disk directory files s = ((.error error, log), s')) :
    (∃ cause, disk.createAll directory s = (.error cause, s') ∧
      error = .createDirectory directory cause ∧ log = []) ∨
    (∃ made, disk.createAll directory s = (.ok (), made) ∧
      stage disk directory [] files made = ((.error error, log), s')) ∨
    ∃ made staging t first more, disk.createAll directory s = (.ok (), made) ∧
      stage disk directory [] files made = ((.ok staging, first), t) ∧
      commit disk [] staging t = ((.error error, more), s') ∧ log = first ++ more := by
  rcases hcreate : disk.createAll directory s with ⟨created, made⟩
  rw [writeAll, run_bind, hcreate] at hrun
  cases created with
  | error cause =>
    cases hrun
    exact Or.inl ⟨cause, rfl, rfl, rfl⟩
  | ok _ =>
    refine Or.inr ?_
    rcases hstage : stage disk directory [] files made with ⟨⟨staged?, first⟩, t⟩
    simp only [run_bind, hstage] at hrun
    cases staged? with
    | error error =>
      cases hrun
      exact Or.inl ⟨made, rfl, hstage⟩
    | ok staging =>
      rcases hcommit : commit disk [] staging t with ⟨⟨committed?, more⟩, t'⟩
      simp only [run_bind, hcommit] at hrun
      cases committed? with
      | ok committed => cases hrun
      | error error =>
        cases hrun
        exact Or.inr ⟨made, staging, t, first, more, rfl, hstage, hcommit, rfl⟩

theorem ok_of_warning_eq_nil {trouble path : String} {outcome : Except FileError Unit}
    (h : warning trouble path outcome = []) : outcome = .ok () := by
  cases outcome with
  | ok _ => rfl
  | error error => cases h

/-- No file could not be taken back, as far as a log tells. -/
def Restored (log : List LogEntry) : Prop :=
  ∀ path error, ∀ entry ∈ warning notRestored path (.error error), entry ∉ log

theorem Restored.left {log more : List LogEntry} (h : Restored (log ++ more)) : Restored log :=
  fun path error entry hentry hmem => h path error entry hentry (List.mem_append_left _ hmem)

theorem Restored.right {log more : List LogEntry} (h : Restored (log ++ more)) : Restored more :=
  fun path error entry hentry hmem => h path error entry hentry (List.mem_append_right _ hmem)

theorem Restored.ok {path : String} {outcome : Except FileError Unit}
    (h : Restored (warning notRestored path outcome)) : outcome = .ok () := by
  cases outcome with
  | ok _ => rfl
  | error error => exact absurd (List.mem_singleton_self _) (h path error _ List.mem_cons_self)

theorem restored_nil : Restored [] :=
  fun _ _ _ _ hmem => by cases hmem

theorem Restored.append {log more : List LogEntry} (h : Restored log) (hmore : Restored more) :
    Restored (log ++ more) := by
  intro path error entry hentry hmem
  rcases List.mem_append.mp hmem with hmem | hmem
  · exact h path error entry hentry hmem
  · exact hmore path error entry hentry hmem

theorem restored_notRemoved (path : String) (outcome : Except FileError Unit) :
    Restored (warning notRemoved path outcome) := by
  cases outcome with
  | ok _ => exact restored_nil
  | error error =>
    intro path' error' entry hentry hmem
    cases List.mem_singleton.mp hentry
    have htext := congrArg (fun entry => entry.text.toList) (List.mem_singleton.mp hmem)
    simp [notRemoved, notRestored] at htext

/-- Temporary files are no files that are taken back. -/
theorem restored_discard (disk : Disk (StateM σ)) (files : List StagedFile) (s : σ) :
    Restored (discard disk files s).1 := by
  induction files generalizing s with
  | nil => exact restored_nil
  | cons file files ih =>
    rw [discard_cons]
    exact (restored_notRemoved _ _).append (ih _)

theorem restored_stage {directory : String} {done : List StagedFile} {files : List OutputFile}
    {result : Except WriteError (List StagedFile)} {log : List LogEntry} {s s' : σ}
    (hrun : stage disk directory done files s = ((result, log), s')) : Restored log := by
  induction files generalizing done s with
  | nil =>
    cases hrun
    exact restored_nil
  | cons file files ih =>
    rcases stage_cases hrun with ⟨t, -, hrest⟩ | ⟨cause, t, -, hdiscard, -⟩
    · exact ih hrest
    · have hlog := restored_discard disk done t
      rwa [hdiscard] at hlog

end Run

/-! ### Steps -/

section Steps

variable {σ : Type} {disk : Disk (StateM σ)} {volume : σ → Volume} {base : Volume}
  {directory : String} {place : Location} {name : String} {s s' : σ} {log : List LogEntry}

/-- What can happen when a temporary file is moved to its target, by whether there is a regular file
at the target. -/
inductive Replacing (disk : Disk (StateM σ)) (file : StagedFile) :
    Bool → σ → Except FileError Bool → List LogEntry → σ → Prop
  /-- The old file has become the backup. -/
  | overOld {s t s' : σ} (haside : disk.rename file.target file.backup s = (.ok (), t))
    (hplaced : disk.rename file.temporary file.target t = (.ok (), s')) :
    Replacing disk file true s (.ok true) [] s'
  /-- The old file could not become the backup. -/
  | notAside {s s' : σ} (cause : FileError)
    (haside : disk.rename file.target file.backup s = (.error cause, s')) :
    Replacing disk file true s (.error cause) [] s'
  /-- The old file had become the backup, and was to return. -/
  | putBack {s t t' s' : σ} (cause : FileError) (restored : Except FileError Unit)
    (haside : disk.rename file.target file.backup s = (.ok (), t))
    (hplaced : disk.rename file.temporary file.target t = (.error cause, t'))
    (hback : disk.rename file.backup file.target t' = (restored, s')) :
    Replacing disk file true s (.error cause) (warning notRestored file.target restored) s'
  /-- There was no old file. -/
  | fresh {s s' : σ} (hplaced : disk.rename file.temporary file.target s = (.ok (), s')) :
    Replacing disk file false s (.ok false) [] s'
  /-- There was no old file, and there is no new one. -/
  | notPlaced {s s' : σ} (cause : FileError)
    (hplaced : disk.rename file.temporary file.target s = (.error cause, s')) :
    Replacing disk file false s (.error cause) [] s'

/-- The paths by which a file is taken back from its place can be used. -/
def CanReturn (directory name : String) (hasBackup : Bool) : Prop :=
  Volume.IsUsable directory name ∧
    (hasBackup = true → Volume.IsUsable directory (hiddenName name "bak"))

/-- A file is taken back from its place where its directory opens, unless the disk is against it. -/
theorem ok_of_spares {hasBackup : Bool} {old : Siblings} (hname : IsEntryName name)
    (hspares : disk.Spares volume (staged directory name))
    (hcan : CanReturn directory name hasBackup) (hopen : (volume s).Opens directory place)
    (hcommitted : old.Committed ((volume s).siblings place name) hasBackup) :
    (takeBack disk (staged directory name) hasBackup s).1 = .ok () := by
  generalize hnow : (volume s).siblings place name = now at hcommitted
  have htarget :
      ∃ contents, Volume.entry? (volume s) (place ++ [name]) = some (.file contents) := by
    cases hcommitted with
    | replaced before after => exact ⟨after, congrArg Siblings.target hnow⟩
    | fresh after => exact ⟨after, congrArg Siblings.target hnow⟩
  obtain ⟨after, htarget⟩ := htarget
  cases hcommitted with
  | replaced before after' =>
    have hbackup : ((volume s).siblings place name).backup = some (.file before) :=
      congrArg Siblings.backup hnow
    have hfree : (volume s).isDirectoryAt (place ++ [name]) = false := by
      rw [Volume.isDirectoryAt, htarget]
    exact hspares.moved s _ (Volume.rename_sibling_of_file .backup .target hname (by decide) hopen
      (hcan.2 rfl) hcan.1 hbackup hfree)
  | fresh after' =>
    exact hspares.removed s _ (Volume.removeFile_of_file hname hopen hcan.1 htarget)

variable (hkeeps : disk.Keeps volume)

include hkeeps

theorem isRegularFile_run (path : String) (s : σ) :
    disk.isRegularFile path s = ((volume s).isRegular path, s) := by
  rw [Disk.isRegularFile, run_bind, hkeeps.linkStatus path s, Volume.isRegular]
  cases (volume s).linkStatus path with
  | error error => rfl
  | ok entry => cases entry <;> rfl

theorem replacing_of_replace {file : StagedFile} {outcome : Except FileError Bool}
    (hrun : replace disk file s = ((outcome, log), s')) :
    Replacing disk file ((volume s).isRegular file.target) s outcome log s' := by
  rw [replace, run_bind, isRegularFile_run hkeeps] at hrun
  cases hregular : (volume s).isRegular file.target with
  | true =>
    rw [hregular, if_pos rfl, run_bind] at hrun
    rcases haside : disk.rename file.target file.backup s with ⟨aside, t⟩
    rw [haside] at hrun
    cases aside with
    | error cause =>
      cases hrun
      exact .notAside cause haside
    | ok _ =>
      simp only [run_bind] at hrun
      rcases hplaced : disk.rename file.temporary file.target t with ⟨placed, t'⟩
      rw [hplaced] at hrun
      cases placed with
      | ok _ =>
        cases hrun
        exact .overOld haside hplaced
      | error cause =>
        cases hrun
        exact .putBack cause _ haside hplaced rfl
  | false =>
    rw [hregular, if_neg Bool.false_ne_true, run_bind] at hrun
    rcases hplaced : disk.rename file.temporary file.target s with ⟨placed, t⟩
    rw [hplaced] at hrun
    cases placed with
    | ok _ =>
      cases hrun
      exact .fresh hplaced
    | error cause =>
      cases hrun
      exact .notPlaced cause hplaced

/-- A file that got to its place can be taken back. -/
theorem canReturn_of_replace {hasBackup : Bool} (hname : IsEntryName name)
    (hrun : replace disk (staged directory name) s = ((.ok hasBackup, log), s')) :
    CanReturn directory name hasBackup := by
  have hreplacing := replacing_of_replace hkeeps hrun
  generalize (volume s).isRegular (staged directory name).target = regular at hreplacing
  cases hreplacing with
  | overOld haside hplaced =>
    obtain ⟨htarget, hbackup⟩ := Volume.usable_of_rename .target .backup hname (by decide)
      (hkeeps.rename_ok haside)
    exact ⟨htarget, fun _ => hbackup⟩
  | fresh hplaced =>
    obtain ⟨-, htarget⟩ := Volume.usable_of_rename .temporary .target hname (by decide)
      (hkeeps.rename_ok hplaced)
    exact ⟨htarget, fun hbackup => nomatch hbackup⟩

variable (hopens : base.Opens directory place) (hname : IsEntryName name)
  (hstands : Volume.Stands base (volume s))

include hopens hname hstands

/-- A file whose temporary file is written gets to its place, with a backup of the file that was
there. -/
theorem committed_of_replace {hasBackup : Bool} {old : Siblings}
    (hstaged : old.Staged ((volume s).siblings place name))
    (hrun : replace disk (staged directory name) s = ((.ok hasBackup, log), s')) :
    log = [] ∧ ∃ new, (volume s).Turned place name (volume s') new ∧
      old.Committed new hasBackup ∧
        new.target = ((volume s).siblings place name).temporary := by
  obtain ⟨after, hnow⟩ := hstaged
  have htarget : ((volume s).siblings place name).target = old.target := by rw [hnow]
  have htemporary : ((volume s).siblings place name).temporary = some (.file after) := by rw [hnow]
  have hreplacing := replacing_of_replace hkeeps hrun
  generalize hregular : (volume s).isRegular (staged directory name).target = regular at hreplacing
  cases hreplacing with
  | @overOld _ t _ haside hplaced =>
    obtain ⟨before, hbefore⟩ := hstands.target_of_isRegular hopens hname hregular
    have hturned := hstands.turned_rename hopens hname .target .backup (by decide) hbefore
      (hkeeps.rename_ok haside)
    have hmoved : ((volume t).siblings place name).temporary = some (.file after) :=
      (congrArg Siblings.temporary hturned.siblings).trans htemporary
    have hturned' := (hstands.edited hturned.edited).turned_rename hopens hname .temporary .target
      (by decide) hmoved (hkeeps.rename_ok hplaced)
    refine ⟨rfl, _, hturned.trans hturned', ?_, htemporary.symm⟩
    rw [hturned.siblings]
    exact .replaced before after (htarget ▸ hbefore)
  | fresh hplaced =>
    have hrename := hkeeps.rename_ok hplaced
    have hturned := hstands.turned_rename hopens hname .temporary .target (by decide) htemporary
      hrename
    obtain ⟨hdirectory, hstatus⟩ := hstands.linkStatus_of_rename hopens hname .temporary .target
      (by decide) htemporary hrename
    have hfresh : withoutLink old.target = none := by
      rw [hnow] at hdirectory hstatus
      cases hentry : old.target with
      | none => rfl
      | some entry =>
        have hlooked : (volume s).linkStatus (Path.join directory name) = .ok entry :=
          hstatus entry hentry
        change (volume s).isRegular (Path.join directory name) = false at hregular
        rw [Volume.isRegular, hlooked] at hregular
        cases entry with
        | file contents => cases hregular
        | directory => exact absurd hentry hdirectory
        | link target => rfl
    refine ⟨rfl, _, hturned, ?_, htemporary.symm⟩
    rw [hnow]
    exact .fresh after hfresh

/-- A file that does not get to its place leaves there what was there, and if that had become a
backup already, the backup is gone.  The temporary file stays. -/
theorem turned_of_replace_error {cause : FileError} {old : Siblings}
    (hstaged : old.Staged ((volume s).siblings place name))
    (hrun : replace disk (staged directory name) s = ((.error cause, log), s'))
    (hrestored : Restored log) :
    ∃ new, (volume s).Turned place name (volume s') new ∧ new.target = old.target ∧
      (old.backup = none → new.backup = none) ∧
      new.temporary = ((volume s).siblings place name).temporary := by
  obtain ⟨after, hnow⟩ := hstaged
  have htarget : ((volume s).siblings place name).target = old.target := by rw [hnow]
  have hbackup : ((volume s).siblings place name).backup = old.backup := by rw [hnow]
  have hunchanged : volume s' = volume s →
      ∃ new, (volume s).Turned place name (volume s') new ∧ new.target = old.target ∧
        (old.backup = none → new.backup = none) ∧
        new.temporary = ((volume s).siblings place name).temporary := by
    intro hsame
    rw [hsame]
    exact ⟨_, .refl place name _, htarget, fun hnone => hbackup.trans hnone, rfl⟩
  have hreplacing := replacing_of_replace hkeeps hrun
  generalize hregular : (volume s).isRegular (staged directory name).target = regular at hreplacing
  cases hreplacing with
  | notAside _ haside => exact hunchanged (hkeeps.rename_error haside)
  | notPlaced _ hplaced => exact hunchanged (hkeeps.rename_error hplaced)
  | @putBack _ t t' _ _ restored haside hplaced hback =>
    obtain ⟨before, hbefore⟩ := hstands.target_of_isRegular hopens hname hregular
    have hturned := hstands.turned_rename hopens hname .target .backup (by decide) hbefore
      (hkeeps.rename_ok haside)
    have hkept : ((volume t).siblings place name).backup = some (.file before) :=
      congrArg Siblings.backup hturned.siblings
    cases hrestored.ok
    have hrename := hkeeps.rename_ok hback
    rw [hkeeps.rename_error hplaced] at hrename
    have hturned' := (hstands.edited hturned.edited).turned_rename hopens hname .backup .target
      (by decide) hkept hrename
    have hwaits : ((volume t).siblings place name).temporary =
        ((volume s).siblings place name).temporary := by
      rw [hturned.siblings]
      rfl
    exact ⟨_, hturned.trans hturned', hbefore.symm.trans htarget, fun _ => rfl, hwaits⟩

/-- A file that does not get to its place leaves there what was there, if its directory opens where
a move fails. -/
theorem restored_of_replace_error {cause : FileError}
    (hspares : disk.Spares volume (staged directory name))
    (hway : ∀ t t' new, (volume s).Turned place name (volume t) new →
      ∀ source ∈ siblingNames name, ∀ target,
        disk.rename (Path.join directory source) (Path.join directory target) t =
            (.error cause, t') →
          (volume t).Opens directory place)
    (hrun : replace disk (staged directory name) s = ((.error cause, log), s')) :
    Restored log ∧ (volume s').Opens directory place := by
  have hreplacing := replacing_of_replace hkeeps hrun
  generalize hregular : (volume s).isRegular (staged directory name).target = regular at hreplacing
  cases hreplacing with
  | notAside _ haside =>
    refine ⟨restored_nil, ?_⟩
    rw [hkeeps.rename_error haside]
    exact hway s s' _ (.refl place name _) name (by simp [siblingNames]) _ haside
  | notPlaced _ hplaced =>
    refine ⟨restored_nil, ?_⟩
    rw [hkeeps.rename_error hplaced]
    exact hway s s' _ (.refl place name _) (hiddenName name "tmp") (by simp [siblingNames]) _
      hplaced
  | @putBack _ t t' _ _ restored haside hplaced hback =>
    obtain ⟨before, hbefore⟩ := hstands.target_of_isRegular hopens hname hregular
    have hturned := hstands.turned_rename hopens hname .target .backup (by decide) hbefore
      (hkeeps.rename_ok haside)
    have hopen : (volume t).Opens directory place :=
      hway t t' _ hturned (hiddenName name "tmp") (by simp [siblingNames]) _ hplaced
    have hbackup : ((volume t).siblings place name).backup = some (.file before) :=
      congrArg Siblings.backup hturned.siblings
    have hgone : ((volume t).siblings place name).target = none :=
      congrArg Siblings.target hturned.siblings
    have hfree : (volume t).isDirectoryAt (place ++ [name]) = false := by
      change Volume.entry? (volume t) (place ++ [name]) = none at hgone
      rw [Volume.isDirectoryAt, hgone]
    obtain ⟨husable, husable'⟩ := Volume.usable_of_rename .target .backup hname (by decide)
      (hkeeps.rename_ok haside)
    have hsame : volume t' = volume t := hkeeps.rename_error hplaced
    have hmoved := hspares.moved t' _ (hsame ▸ Volume.rename_sibling_of_file .backup .target hname
      (by decide) hopen husable' husable hbackup hfree)
    rw [hback] at hmoved
    cases hmoved
    refine ⟨restored_nil, ?_⟩
    have hrename := hkeeps.rename_ok hback
    rw [hsame] at hrename
    have hturned' := (hstands.edited hturned.edited).turned_rename hopens hname .backup .target
      (by decide) hbackup hrename
    refine hturned'.opens ⟨fun _ hlink => hlink, ?_, ?_⟩ hopen
    · intro link hlink
      rw [hbackup] at hlink
      cases hlink
    · intro link hlink
      rw [hgone] at hlink
      cases hlink

/-- One file is taken back from its place. -/
theorem turned_takenBack {hasBackup : Bool} {t : σ}
    (hcommitted : (base.siblings place name).Committed ((volume s).siblings place name) hasBackup)
    (hrun : takeBack disk (staged directory name) hasBackup s = (.ok (), t)) :
    (volume s).Turned place name (volume t) ((base.siblings place name).takenBack hasBackup) := by
  generalize hold : base.siblings place name = old at hcommitted ⊢
  generalize hnow : (volume s).siblings place name = now at hcommitted
  cases hcommitted with
  | replaced before after htarget =>
    have hbackup : ((volume s).siblings place name).backup = some (.file before) := by rw [hnow]
    have hturned := hstands.turned_rename hopens hname .backup .target (by decide) hbackup
      (hkeeps.rename_ok hrun)
    rw [hnow] at hturned
    rw [Siblings.takenBack, htarget]
    exact hturned
  | fresh after htarget =>
    have hturned := hstands.turned_removeFile hopens hname .target (hkeeps.removeFile_ok hrun)
    rw [hnow] at hturned
    exact hturned

end Steps

end Transaction

end PlugTaxonomy
