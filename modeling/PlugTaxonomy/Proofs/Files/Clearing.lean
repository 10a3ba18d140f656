import PlugTaxonomy.Proofs.Files.Completing

/-!
# What a transaction that fails leaves on a volume

On a volume nothing fails but what must.  So if no link is among the entries that a transaction
replaces, all that it has done can be undone when it fails, and then nothing is left of it.

* `discard_quiet`, `rollBack_quiet` — what is to be removed, and what is to be restored, can be;
* `stage_quiet`, `commit_quiet`, `writeAll_quiet` — output that fails has nothing to report;
* `writeAll_delivered`, `writeAll_unchanged` — every file is in its place, or nothing has changed.
-/

namespace PlugTaxonomy

/-- On a volume a write that fails has not got to the file. -/
theorem Volume.writesWhole_disk (path : String) : disk.WritesWhole id path :=
  fun contents s error =>
    (attempted_change (fun v => v.writeFile path contents) s).failed error

/-- What is left of a file when temporary files were swept up. -/
theorem Siblings.Left.cleared {old new : Siblings} {replaced swept : Prop}
    (h : old.Left replaced swept new) (hswept : swept) : old.Left replaced True new :=
  ⟨h.kept, h.restored, h.backup, fun _ => h.temporary hswept⟩

/-- Where nothing was, there is nothing when directories have been made, or one of them. -/
theorem Volume.Grown.free_or_directory {v w : Volume} (hgrown : Grown v w) {location : Location}
    (hnone : v.entry? location = none) :
    w.entry? location = none ∨ w.entry? location = some .directory :=
  (hgrown.entries location).imp (fun hsame => hsame.trans hnone) And.right

namespace Transaction

/-! ### Nothing to report -/

/-- The states of files while temporary files are removed. -/
def Sweeping (swept : List String) (name : String) (siblings : Siblings) : Prop :=
  name ∈ swept → ∃ contents, siblings.temporary = some (.file contents)

theorem quiet_of_restored {path : String} {outcome : Except FileError Unit}
    (h : Restored (warning notRestored path outcome)) : warning notRestored path outcome = [] := by
  rw [h.ok]
  rfl

/-- All that is reported of files that are taken back is that they could not be. -/
theorem rollBack_quiet {σ : Type} {disk : Disk (StateM σ)} {done : List Committed}
    {log : List LogEntry} {s s' : σ} (hrun : rollBack disk done s = (log, s')) (h : Restored log) :
    log = [] := by
  induction done generalizing s log with
  | nil =>
    cases hrun
    rfl
  | cons file done ih =>
    obtain ⟨file, hasBackup⟩ := file
    rw [rollBack_cons] at hrun
    cases hrun
    exact List.append_eq_nil_iff.mpr ⟨quiet_of_restored h.left, ih rfl h.right⟩

/-- All that is reported of a file that does not get to its place is that the old one could not be
taken back. -/
theorem replace_quiet {σ : Type} {disk : Disk (StateM σ)} {volume : σ → Volume}
    (hkeeps : disk.Keeps volume) {file : StagedFile} {cause : FileError} {log : List LogEntry}
    {s s' : σ} (hrun : replace disk file s = ((.error cause, log), s')) (h : Restored log) :
    log = [] := by
  have hreplacing := replacing_of_replace hkeeps hrun
  generalize (volume s).isRegular file.target = regular at hreplacing
  cases hreplacing with
  | notAside => rfl
  | notPlaced => rfl
  | putBack => exact quiet_of_restored h

section Quiet

variable {base v after : Volume} {directory : String} {place : Location} {names : List String}
  {error : WriteError} {log : List LogEntry}
  (hentries : ∀ name ∈ names, IsEntryName name) (hapart : Apart names)
  (hway : StaysOpen base directory place names)

include hentries hapart hway

/-- Temporary files that are there are removed. -/
theorem discard_quiet {swept : List String} (hswept : ∀ name ∈ swept, name ∈ names)
    (hnodup : swept.Nodup)
    (husable : ∀ name ∈ swept, Volume.IsUsable directory (hiddenName name "tmp"))
    (h : Midway base place names (Sweeping swept) v) :
    (discard Volume.disk (swept.map (staged directory)) v).1 = [] := by
  induction swept generalizing v with
  | nil => rfl
  | cons name swept ih =>
    obtain ⟨hfresh, hnodup⟩ := List.nodup_cons.mp hnodup
    have hname : name ∈ names := hswept name List.mem_cons_self
    obtain ⟨contents, htemporary⟩ := h.each name hname List.mem_cons_self
    obtain ⟨w, hremoved, hturned⟩ := Volume.removed_of_file .temporary (hentries name hname)
      (hway v (h.mono fun _ _ _ _ => trivial)) (husable name List.mem_cons_self) htemporary
    change Volume.disk.removeFile (hidden directory name "tmp") v = (.ok (), w) at hremoved
    have hstep : Midway base place names (Sweeping swept) w := by
      refine h.turned hapart hname hturned ?_ ?_
      · exact fun hmem => absurd hmem hfresh
      · exact fun other _ _ siblings hsweeping hmem =>
          hsweeping (List.mem_cons_of_mem _ hmem)
    rw [List.map_cons, discard_cons]
    simp only [staged, hremoved]
    exact ih (fun other hother => hswept other (List.mem_cons_of_mem _ hother)) hnodup
      (fun other hother => husable other (List.mem_cons_of_mem _ hother)) hstep

/-- If a temporary file cannot be written, those written before it are removed. -/
theorem stage_quiet (hopens : base.Opens directory place)
    (hplain : ∀ name ∈ names, ∀ link, (base.siblings place name).temporary ≠ some (.link link))
    {done : List String} {files : List OutputFile} (hnames : names = done ++ files.map (·.name))
    (husable : ∀ name ∈ done, Volume.IsUsable directory (hiddenName name "tmp"))
    (h : Midway base place names (Staging base place done) v)
    (hrun : stage Volume.disk directory (done.map (staged directory)) files v =
      ((.error error, log), after)) : log = [] := by
  induction files generalizing done v with
  | nil => cases hrun
  | cons file files ih =>
    have hname : file.name ∈ names := by simp [hnames]
    rcases stage_cases hrun with ⟨t, hwrite, hrest⟩ | ⟨cause, t, hwrite, hdiscard, -⟩
    · have hdone : (done ++ [file.name]).map (staged directory) =
          done.map (staged directory) ++ [staged directory file.name] := by
        rw [List.map_append, List.map_singleton]
      refine ih (by simpa using hnames) (fun name hmem => ?_)
        (midway_written Volume.keeps_disk hopens hentries hapart hnames
          (hplain file.name hname) h hwrite) (hdone ▸ hrest)
      rcases List.mem_append.mp hmem with hmem | hmem
      · exact husable name hmem
      · cases List.mem_singleton.mp hmem
        exact usable_of_written (hentries _ hname) (Volume.keeps_disk.writeFile_ok hwrite)
    · have hsame : t = v := by
        have hwhole := Volume.writesWhole_disk (hidden directory file.name "tmp")
          file.contents.toUTF8 v cause
        rw [hwrite] at hwhole
        exact hwhole rfl
      subst hsame
      have hsweeping : Midway base place names (Sweeping done) t :=
        h.mono fun name _ siblings hstaging hmem => by
          obtain ⟨contents, hnow⟩ := hstaging.1 hmem
          exact ⟨contents, congrArg Siblings.temporary hnow⟩
      have hquiet := discard_quiet hentries hapart hway
        (fun name hmem => hnames ▸ List.mem_append_left _ hmem)
        (List.nodup_append.mp (hnames ▸ hapart.nodup)).1 husable hsweeping
      rw [hdiscard] at hquiet
      exact hquiet

/-- If a file does not get to its place, what is still temporary is removed. -/
theorem commit_quiet (hopens : base.Opens directory place)
    (husable : ∀ name ∈ names, Volume.IsUsable directory (hiddenName name "tmp"))
    {done : List (String × Bool)} {rest : List String}
    (hnames : names = (done.map (·.1)).reverse ++ rest)
    (h : Midway base place names (Committing base place done rest) v)
    (hrun : commit Volume.disk (done.map fun file => (staged directory file.1, file.2))
      (rest.map (staged directory)) v = ((.error error, log), after))
    (hrestored : Restored log) : log = [] := by
  induction rest generalizing done v log with
  | nil => cases hrun
  | cons name rest ih =>
    have hname : name ∈ names := by simp [hnames]
    rw [List.map_cons] at hrun
    rcases commit_cases hrun with ⟨hasBackup, first, t, more, hreplace, hrest, rfl⟩ |
      ⟨cause, first, t, swept, t', undone, hreplace, hdiscard, hrollBack, -, rfl⟩
    · obtain ⟨rfl, hplaced⟩ := midway_placed Volume.keeps_disk hopens hentries hapart hnames h
        hreplace
      exact ih (by simpa using hnames) hplaced hrest hrestored
    · obtain ⟨new, hturned, -, -, htemporary⟩ := turned_of_replace_error Volume.keeps_disk hopens
        (hentries name hname) h.stands ((h.each name hname).2 List.mem_cons_self) hreplace
        hrestored.left.left
      have hsweeping : Midway base place names (Sweeping (name :: rest)) t := by
        refine h.turned hapart hname hturned (fun _ => ?_) ?_
        · obtain ⟨contents, hnow⟩ := (h.each name hname).2 List.mem_cons_self
          exact ⟨contents, htemporary.trans (congrArg Siblings.temporary hnow)⟩
        · rintro other - - siblings ⟨-, hstaged⟩ hmem
          obtain ⟨contents, rfl⟩ := hstaged hmem
          exact ⟨contents, rfl⟩
      have hrest : ∀ other ∈ name :: rest, other ∈ names := fun other hother =>
        hnames ▸ List.mem_append_right _ hother
      have hswept := discard_quiet hentries hapart hway hrest
        (List.nodup_append.mp (hnames ▸ hapart.nodup)).2.1
        (fun other hother => husable other (hrest other hother)) hsweeping
      rw [List.map_cons, hdiscard] at hswept
      rw [replace_quiet Volume.keeps_disk hreplace hrestored.left.left]
      exact List.append_eq_nil_iff.mpr ⟨hswept, rollBack_quiet hrollBack hrestored.right⟩

end Quiet

/-! ### The whole -/

section Whole

variable {volume made after : Volume} {directory : String} {place : Location}
  {files : List OutputFile} {paths : List String} {error : WriteError} {log : List LogEntry}

/-- Output that fails where the directory opens has nothing to report. -/
theorem writeAll_quiet (hentries : ∀ file ∈ files, IsEntryName file.name)
    (hmade : made = Volume.disk.made directory volume) (htree : made.IsTree)
    (hapart : Apart (files.map (·.name))) (hopens : made.Opens directory place)
    (hplain : ∀ name ∈ files.map (·.name),
      ∀ link, (made.siblings place name).temporary ≠ some (.link link))
    (hway : StaysOpen made directory place (files.map (·.name)))
    (hrun : writeAll Volume.disk directory files volume = ((.error error, log), after))
    (hrestored : Restored log) : log = [] := by
  have hnames := names_of_entries hentries
  rcases writeAll_error_cases hrun with ⟨_, -, -, rfl⟩ | ⟨v, hcreate, hstage⟩ |
    ⟨v, staging, w, first, more, hcreate, hstage, hcommit, rfl⟩
  · rfl
  · rw [Disk.made, hcreate] at hmade
    subst hmade
    exact stage_quiet hnames hapart hway hopens hplain (List.nil_append _).symm
      (fun _ hmem => absurd hmem List.not_mem_nil) (midway_staging htree) hstage
  · rw [Disk.made, hcreate] at hmade
    subst hmade
    have husable := usable_of_stage hentries hstage
    obtain ⟨rfl, rfl, hstaged⟩ := (midway_stage Volume.keeps_disk hopens hnames hapart
      (List.nil_append _).symm hplain (midway_staging htree) hstage).1 staging rfl
    exact commit_quiet hnames hapart hway hopens (List.forall_mem_map.mpr husable)
      (List.nil_append _).symm hstaged.committing hcommit hrestored

/-- Where output succeeds, the directory opens. -/
theorem opens_of_writeAll_ok (hentries : ∀ file ∈ files, IsEntryName file.name)
    (hfiles : files ≠ [])
    (hrun : writeAll Volume.disk directory files volume = ((.ok paths, log), after)) :
    ∃ place, Volume.Opens (Volume.disk.made directory volume) directory place := by
  obtain ⟨made, staging, v, first, _, _, _, hcreate, hstage, -⟩ := writeAll_ok_cases hrun
  rw [Disk.made, hcreate]
  refine by_contra fun hclosed => ?_
  obtain ⟨-, ⟨hnone, -⟩ | ⟨_, _, herror⟩⟩ := stage_of_not_opens Volume.keeps_disk hentries
    (fun place hopens => hclosed ⟨place, hopens⟩) hstage
  · exact hfiles hnone
  · cases herror

/-- When everything is cleared away, every entry is as it was. -/
theorem entry?_of_cleared {replaced : String → Prop} (hgrown : Volume.Grown volume made)
    (hopens : made.Opens directory place)
    (hhidden : ∀ location, IsHiddenPlace made directory files location →
      volume.entry? location = none)
    (hlinks : ∀ location, IsTargetPlace made directory files location →
      ∀ link, made.entry? location ≠ some (.link link))
    (h : Midway made place (files.map (·.name)) (Leaving made place replaced fun _ => True) after)
    (location : Location) : after.entry? location = made.entry? location := by
  by_cases hplace : IsHiddenPlace made directory files location
  · rcases hgrown.free_or_directory (hhidden location hplace) with hnone | hdirectory
    · rw [hnone]
      obtain ⟨file, hfile, rfl | rfl⟩ := (isHiddenPlace_iff hopens location).mp hplace
      · exact (h.each file.name (List.mem_map_of_mem hfile)).temporary trivial hnone
      · exact (h.each file.name (List.mem_map_of_mem hfile)).backup hnone
    · rw [hdirectory]
      exact h.directory_kept hdirectory
  · exact entry?_of_leaving hopens h hlinks hplace

section Plain

variable (htree : volume.IsTree) (hentries : ∀ file ∈ files, IsEntryName file.name)
  (hapart : Apart (files.map (·.name)))
  (hhidden : ∀ location,
    IsHiddenPlace (Volume.disk.made directory volume) directory files location →
      volume.entry? location = none)
  (htargets : ∀ location,
    IsTargetPlace (Volume.disk.made directory volume) directory files location →
      ∀ link, volume.entry? location ≠ some (.link link))

include htree hentries hapart hhidden htargets

/-- Output that succeeds where no link is replaced puts every file in its place, and changes nothing
else. -/
theorem writeAll_delivered (hfiles : files ≠ [])
    (hrun : writeAll Volume.disk directory files volume = ((.ok paths, log), after)) :
    ∃ place, Volume.Opens (Volume.disk.made directory volume) directory place ∧
      Delivered volume (Volume.disk.made directory volume) directory place files after := by
  obtain ⟨place, hopens⟩ := opens_of_writeAll_ok hentries hfiles hrun
  have hgrown : Volume.Grown volume (Volume.disk.made directory volume) :=
    Volume.keeps_disk.grown_made directory volume
  have hplain := sibling_ne_link_of_grown hgrown hhidden htargets hopens
  have hway := staysOpen_of_ne_link hopens hplain
  obtain ⟨-, -, hsettled⟩ := writeAll_ok hentries rfl (hgrown.isTree htree) hapart hopens
    (fun name hname => hplain name hname _ (by simp [siblingNames])) hway hrun
  exact ⟨place, hopens, delivered_of_settled hgrown hapart hopens hway
    (fun location hplace => hgrown.free_or_directory (hhidden location hplace)) hsettled⟩

/-- Output that fails where no link is to be replaced changes nothing. -/
theorem writeAll_unchanged
    (hrun : writeAll Volume.disk directory files volume = ((.error error, log), after))
    (location : Location) :
    UnchangedAt volume (Volume.disk.made directory volume) after location := by
  have hgrown : Volume.Grown volume (Volume.disk.made directory volume) :=
    Volume.keeps_disk.grown_made directory volume
  have hplain := fun place
      (hopens : Volume.Opens (Volume.disk.made directory volume) directory place) =>
    sibling_ne_link_of_grown hgrown hhidden htargets hopens
  have hway := fun place
      (hopens : Volume.Opens (Volume.disk.made directory volume) directory place) =>
    staysOpen_of_ne_link hopens (hplain place hopens)
  have htemporary : ∀ place, Volume.Opens (Volume.disk.made directory volume) directory place →
      ∀ name ∈ files.map (·.name), ∀ link,
        (Volume.siblings (Volume.disk.made directory volume) place name).temporary ≠
          some (.link link) :=
    fun place hopens name hname => hplain place hopens name hname _ (by simp [siblingNames])
  have hrestored : Restored log :=
    restored_writeAll Volume.keeps_disk hentries (fun _ _ => Volume.spares_disk _) rfl
      (hgrown.isTree htree) hapart htemporary
      (fun place hopens _ cause _ => (hway place hopens).opensAt cause) hrun
  have hlinks : ∀ location,
      IsTargetPlace (Volume.disk.made directory volume) directory files location → ∀ link,
        Volume.entry? (Volume.disk.made directory volume) location ≠ some (.link link) :=
    fun location hplace => hgrown.ne_link (htargets location hplace)
  refine unchangedAt_of_eq hgrown ?_
  rcases writeAll_error Volume.keeps_disk hentries rfl (hgrown.isTree htree) hapart htemporary hrun
    hrestored with ⟨hsame, -⟩ | ⟨place, front, name, back, cause, hopens, -, hleft⟩
  · exact congrArg (Volume.entry? · location) hsame
  · have hquiet := writeAll_quiet hentries rfl (hgrown.isTree htree) hapart hopens
      (htemporary place hopens) (hway place hopens) hrun hrestored
    rcases hleft with ⟨-, hleft⟩ | ⟨-, hleft⟩
    · have hcleared : Midway (Volume.disk.made directory volume) place (files.map (·.name))
          (Leaving (Volume.disk.made directory volume) place (fun _ => False)
            fun _ => True) after :=
        hleft.mono fun _ _ _ hleft =>
          hleft.cleared ⟨hquiet, fun _ => Volume.writesWhole_disk _⟩
      exact entry?_of_cleared hgrown hopens hhidden hlinks hcleared location
    · have hcleared : Midway (Volume.disk.made directory volume) place (files.map (·.name))
          (Leaving (Volume.disk.made directory volume) place (fun other => other ∈ front)
            fun _ => True) after :=
        hleft.mono fun _ _ _ hleft => hleft.cleared hquiet
      exact entry?_of_cleared hgrown hopens hhidden hlinks hcleared location

end Plain

end Whole

end Transaction

end PlugTaxonomy
