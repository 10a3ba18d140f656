import PlugTaxonomy.Proofs.Files.Entries

/-!
# Disks with faults

The system may refuse an operation for reasons that no volume shows: the disk is full, or the
user may not write.

* `Disk.Keeps` — what an operation tells about a volume in the state of a disk: it does what it
  does on a volume, or it fails, and then it changes nothing, but for a write that stops midway;
* `Faults`, `Faults.disk` — a disk on which any change of the volume may be struck by a fault;
* `Disk.Spares` — nothing on the disk keeps a file from being taken back from its place;
* `Disk.Keeps.grows_createAll` — the creation of directories makes directories and nothing else.
-/

namespace PlugTaxonomy

/-! ### What operations tell -/

/-- An operation changed a volume as it does, or failed and left it as it was. -/
structure Volume.Attempted (operation : Volume → Except FileError Volume) (before : Volume)
    (outcome : Except FileError Unit) (after : Volume) : Prop where
  done : outcome = .ok () → operation before = .ok after
  failed : ∀ error, outcome = .error error → after = before

/-- The states of a disk hold a volume.  Its operations look at that volume and change it as
operations on volumes do, or fail.  A write that fails may have got some contents to the file. -/
structure Disk.Keeps {σ : Type} (disk : Disk (StateM σ)) (volume : σ → Volume) : Prop where
  status : ∀ path s, disk.status path s = (((volume s).status path).map Volume.kind, s)
  linkStatus : ∀ path s,
    disk.linkStatus path s = (((volume s).linkStatus path).map Volume.kind, s)
  createDirectory : ∀ path s, Volume.Attempted (fun v => v.createDirectory path) (volume s)
    (disk.createDirectory path s).1 (volume (disk.createDirectory path s).2)
  rename : ∀ source target s, Volume.Attempted (fun v => v.rename source target) (volume s)
    (disk.rename source target s).1 (volume (disk.rename source target s).2)
  removeFile : ∀ path s, Volume.Attempted (fun v => v.removeFile path) (volume s)
    (disk.removeFile path s).1 (volume (disk.removeFile path s).2)
  written : ∀ path contents s, (disk.writeFile path contents s).1 = .ok () →
    (volume s).writeFile path contents = .ok (volume (disk.writeFile path contents s).2)
  unwritten : ∀ path contents s error, (disk.writeFile path contents s).1 = .error error →
    volume (disk.writeFile path contents s).2 = volume s ∨
      ∃ torn, (volume s).writeFile path torn = .ok (volume (disk.writeFile path contents s).2)

/-- A write under a path that fails has not got to the file. -/
def Disk.WritesWhole {σ : Type} (disk : Disk (StateM σ)) (volume : σ → Volume) (path : String) :
    Prop :=
  ∀ contents s error, (disk.writeFile path contents s).1 = .error error →
    volume (disk.writeFile path contents s).2 = volume s

/-- Nothing keeps a file from being taken back from its place but what the volume is like. -/
structure Disk.Spares {σ : Type} (disk : Disk (StateM σ)) (volume : σ → Volume)
    (file : StagedFile) : Prop where
  moved : ∀ s after, (volume s).rename file.backup file.target = .ok after →
    (disk.rename file.backup file.target s).1 = .ok ()
  removed : ∀ s after, (volume s).removeFile file.target = .ok after →
    (disk.removeFile file.target s).1 = .ok ()

namespace Volume

theorem fst_change (operation : Volume → Except FileError Volume) (before : Volume) :
    (change operation before).1 = (operation before).map fun _ => () := by
  rw [change]
  cases operation before with
  | ok after => rfl
  | error error => rfl

theorem error_of_change {operation : Volume → Except FileError Volume} {before : Volume}
    {error : FileError} (h : (change operation before).1 = .error error) :
    operation before = .error error := by
  rw [fst_change] at h
  cases hoperation : operation before with
  | ok after =>
    rw [hoperation] at h
    cases h
  | error error' =>
    rw [hoperation] at h
    cases h
    rfl

theorem attempted_change (operation : Volume → Except FileError Volume) (before : Volume) :
    Attempted operation before (change operation before).1 (change operation before).2 := by
  rw [change]
  cases hoperation : operation before with
  | ok after => exact ⟨fun _ => hoperation, fun _ herror => nomatch herror⟩
  | error error => exact ⟨fun hdone => (nomatch hdone), fun _ _ => rfl⟩

/-- On a volume itself nothing fails but what must. -/
theorem keeps_disk : disk.Keeps id where
  status _ _ := rfl
  linkStatus _ _ := rfl
  createDirectory _ s := attempted_change _ s
  rename _ _ s := attempted_change _ s
  removeFile _ s := attempted_change _ s
  written path contents s := (attempted_change (fun v => v.writeFile path contents) s).done
  unwritten path contents s error herror :=
    Or.inl ((attempted_change (fun v => v.writeFile path contents) s).failed error herror)

theorem spares_disk (file : StagedFile) : disk.Spares id file where
  moved s _ hdone :=
    (fst_change (fun v => v.rename file.backup file.target) s).trans (congrArg _ hdone)
  removed s _ hdone := (fst_change (fun v => v.removeFile file.target) s).trans (congrArg _ hdone)

end Volume

/-! ### Faults -/

/-- How an operation fails that is struck. -/
structure Fault where
  cause : FileError
  /-- If a write is struck when it has got to the file already, the number of bytes written. -/
  written : Option Nat

/-- What is to be changed. -/
inductive DiskChange where
  | create (path : String)
  | write (path : String)
  | move (source target : String)
  | remove (path : String)
  deriving DecidableEq, Repr

/-- The faults that strike, by the number of changes that were tried before, and the change. -/
abbrev Faults := Nat → DiskChange → Option Fault

/-- A volume, and the number of changes that were tried. -/
structure Trial where
  volume : Volume
  attempts : Nat

namespace Faults

/-- A look at the volume, which no fault strikes. -/
def look {α : Type} (operation : StateM Volume α) : StateM Trial α :=
  fun trial => ((operation trial.volume).1, trial)

/-- A change, with what a fault leaves behind that strikes it. -/
def strike (faults : Faults) (change : DiskChange) (torn : Fault → Volume → Volume)
    (operation : StateM Volume (Except FileError Unit)) : StateM Trial (Except FileError Unit) :=
  fun trial =>
    match faults trial.attempts change with
    | some fault => (.error fault.cause, ⟨torn fault trial.volume, trial.attempts + 1⟩)
    | none => ((operation trial.volume).1, ⟨(operation trial.volume).2, trial.attempts + 1⟩)

/-- A fault strikes before anything is changed. -/
def untouched (_ : Fault) (volume : Volume) : Volume :=
  volume

/-- What is left of a write: nothing, or a file with the contents as far as they were written. -/
def cutShort (path : String) (contents : ByteArray) (fault : Fault) (volume : Volume) : Volume :=
  match fault.written with
  | none => volume
  | some count => (Volume.disk.writeFile path (contents.extract 0 count) volume).2

/-- The operations on a volume with faults. -/
def disk (faults : Faults) : Disk (StateM Trial) where
  current := look Volume.disk.current
  status path := look (Volume.disk.status path)
  linkStatus path := look (Volume.disk.linkStatus path)
  readFile path := look (Volume.disk.readFile path)
  writeFile path contents :=
    faults.strike (.write path) (cutShort path contents) (Volume.disk.writeFile path contents)
  createDirectory path :=
    faults.strike (.create path) untouched (Volume.disk.createDirectory path)
  rename source target :=
    faults.strike (.move source target) untouched (Volume.disk.rename source target)
  removeFile path := faults.strike (.remove path) untouched (Volume.disk.removeFile path)

variable {faults : Faults} {change : DiskChange} {trial : Trial}
  {torn : Fault → Volume → Volume} {operation : StateM Volume (Except FileError Unit)}

theorem strike_of_none (h : faults trial.attempts change = none) :
    faults.strike change torn operation trial =
      ((operation trial.volume).1, ⟨(operation trial.volume).2, trial.attempts + 1⟩) := by
  rw [strike, h]

theorem strike_of_some {fault : Fault} (h : faults trial.attempts change = some fault) :
    faults.strike change torn operation trial =
      (.error fault.cause, ⟨torn fault trial.volume, trial.attempts + 1⟩) := by
  rw [strike, h]

theorem attempted_strike {effect : Volume → Except FileError Volume}
    (h : Volume.Attempted effect trial.volume (operation trial.volume).1
      (operation trial.volume).2) :
    Volume.Attempted effect trial.volume (faults.strike change untouched operation trial).1
      (faults.strike change untouched operation trial).2.volume := by
  cases hfault : faults trial.attempts change with
  | none =>
    rw [strike_of_none hfault]
    exact h
  | some fault =>
    rw [strike_of_some hfault]
    exact ⟨fun hdone => (nomatch hdone), fun _ _ => rfl⟩

theorem keeps_disk (faults : Faults) : faults.disk.Keeps Trial.volume where
  status _ _ := rfl
  linkStatus _ _ := rfl
  createDirectory path s := attempted_strike (Volume.keeps_disk.createDirectory path s.volume)
  rename source target s := attempted_strike (Volume.keeps_disk.rename source target s.volume)
  removeFile path s := attempted_strike (Volume.keeps_disk.removeFile path s.volume)
  written path contents s hdone := by
    rw [disk] at hdone ⊢
    cases hfault : faults s.attempts (.write path) with
    | none =>
      simp only [strike_of_none hfault] at hdone ⊢
      exact Volume.keeps_disk.written path contents s.volume hdone
    | some fault =>
      simp only [strike_of_some hfault] at hdone
      cases hdone
  unwritten path contents s error herror := by
    rw [disk] at herror ⊢
    cases hfault : faults s.attempts (.write path) with
    | none =>
      simp only [strike_of_none hfault] at herror ⊢
      exact Volume.keeps_disk.unwritten path contents s.volume error herror
    | some fault =>
      simp only [strike_of_some hfault, cutShort]
      cases fault.written with
      | none => exact Or.inl rfl
      | some count =>
        let part := contents.extract 0 count
        cases hpart : (Volume.disk.writeFile path part s.volume).1 with
        | ok _ => exact Or.inr ⟨part, Volume.keeps_disk.written path part s.volume hpart⟩
        | error error => exact Volume.keeps_disk.unwritten path part s.volume error hpart

/-- A write that no fault cuts short is done, or it has not got to the file. -/
theorem writesWhole_disk {path : String}
    (h : ∀ attempts fault, faults attempts (.write path) = some fault → fault.written = none) :
    faults.disk.WritesWhole Trial.volume path := by
  intro contents s error herror
  rw [disk] at herror ⊢
  cases hfault : faults s.attempts (.write path) with
  | none =>
    simp only [strike_of_none hfault] at herror ⊢
    exact (Volume.attempted_change (fun v => v.writeFile path contents) s.volume).failed error
      herror
  | some fault => simp only [strike_of_some hfault, cutShort, h s.attempts fault hfault]

/-- A file whose way back no fault strikes is spared. -/
theorem spares_disk {file : StagedFile}
    (hmove : ∀ attempts, faults attempts (.move file.backup file.target) = none)
    (hremove : ∀ attempts, faults attempts (.remove file.target) = none) :
    faults.disk.Spares Trial.volume file where
  moved s after hdone := by
    rw [disk]
    simp only [strike_of_none (hmove s.attempts)]
    exact (Volume.spares_disk file).moved s.volume after hdone
  removed s after hdone := by
    rw [disk]
    simp only [strike_of_none (hremove s.attempts)]
    exact (Volume.spares_disk file).removed s.volume after hdone

end Faults

/-! ### The creation of directories -/

namespace Volume

variable {u v w : Volume}

/-- One volume comes from another when directories are made where nothing was. -/
structure Grown (v w : Volume) : Prop where
  current : w.current = v.current
  entries : ∀ location, w.entry? location = v.entry? location ∨
    v.entry? location = none ∧ w.entry? location = some .directory
  isTree : v.IsTree → w.IsTree

theorem Grown.refl (v : Volume) : Grown v v :=
  ⟨rfl, fun _ => Or.inl rfl, fun htree => htree⟩

theorem Grown.trans (h : Grown u v) (h' : Grown v w) : Grown u w where
  current := h'.current.trans h.current
  entries location := by
    rcases h'.entries location with hsame | ⟨hnone, hdirectory⟩
    · rw [hsame]
      exact h.entries location
    · rcases h.entries location with hsame' | ⟨_, hdirectory'⟩
      · exact Or.inr ⟨hsame' ▸ hnone, hdirectory⟩
      · rw [hdirectory'] at hnone
        cases hnone
  isTree htree := h'.isTree (h.isTree htree)

theorem Grown.ne_link (h : Grown v w) {location : Location}
    (hplain : ∀ link, v.entry? location ≠ some (.link link)) (link : String) :
    w.entry? location ≠ some (.link link) := by
  rcases h.entries location with hsame | ⟨-, hdirectory⟩
  · rw [hsame]
    exact hplain link
  · rw [hdirectory]
    simp

theorem grown_put {directory : Location} {name : String}
    (hdirectory : v.isDirectoryAt directory = true)
    (hnone : v.entry? (directory ++ [name]) = none) :
    Grown v (v.put (directory ++ [name]) .directory) where
  current := rfl
  entries location := by
    rw [entry?_put (by simp)]
    by_cases hlocation : location = directory ++ [name]
    · subst hlocation
      exact Or.inr ⟨hnone, if_pos rfl⟩
    · exact Or.inl (if_neg hlocation)
  isTree htree location name' hentry := by
    rw [isDirectoryAt_iff, entry?_put (by simp)]
    rw [entry?_put (by simp)] at hentry
    by_cases hlocation : location = directory ++ [name]
    · rw [if_pos hlocation]
    · rw [if_neg hlocation]
      by_cases hnew : location ++ [name'] = directory ++ [name]
      · rw [(List.append_inj' hnew rfl).1]
        exact isDirectoryAt_iff.mp hdirectory
      · rw [if_neg hnew] at hentry
        exact isDirectoryAt_iff.mp (htree location name' hentry)

theorem isDirectoryAt_of_destination {text name : String} {directory : Location} {slash : Bool}
    (h : v.destination text = .ok (.named directory name slash)) :
    v.isDirectoryAt directory = true := by
  rw [destination] at h
  obtain ⟨path, -, h⟩ := ok_of_bind h
  rw [destinationOf] at h
  cases hlast : path.names.getLast? with
  | none =>
    rw [hlast] at h
    cases h
  | some last =>
    rw [hlast] at h
    obtain ⟨location, -, h⟩ := ok_of_bind h
    rw [lastStep] at h
    cases hdirectory : v.isDirectoryAt location with
    | false =>
      rw [hdirectory] at h
      cases h
    | true =>
      rw [hdirectory] at h
      split at h
      · cases h
      · split at h
        · cases h
        · split at h
          · cases h
          · cases h
            exact hdirectory

theorem grown_createDirectory {text : String} (h : v.createDirectory text = .ok w) :
    Grown v w := by
  rw [createDirectory] at h
  obtain ⟨place, hplace, h⟩ := ok_of_bind h
  cases place with
  | dots => cases h
  | named directory name slash =>
    obtain ⟨hnone, h⟩ := ok_of_guard h
    cases h
    exact grown_put (isDirectoryAt_of_destination hplace) (by simpa using hnone)

end Volume

namespace Disk

variable {σ α β : Type} {volume : σ → Volume} {disk : Disk (StateM σ)}

/-- The state when a directory has been made, or could not be made. -/
def made (disk : Disk (StateM σ)) (directory : String) (s : σ) : σ :=
  (disk.createAll directory s).2

/-- An activity makes directories where nothing was, and changes nothing else. -/
def Grows (volume : σ → Volume) (activity : StateM σ α) : Prop :=
  ∀ s, Volume.Grown (volume s) (volume (activity s).2)

theorem Grows.pure (a : α) : Grows volume (pure a) :=
  fun s => .refl (volume s)

theorem Grows.bind {activity : StateM σ α} {next : α → StateM σ β} (h : Grows volume activity)
    (hnext : ∀ a, Grows volume (next a)) : Grows volume (activity >>= next) :=
  fun s => (h s).trans (hnext (activity s).1 (activity s).2)

namespace Keeps

theorem rename_ok (hkeeps : disk.Keeps volume) {source target : String} {s t : σ}
    (h : disk.rename source target s = (.ok (), t)) :
    (volume s).rename source target = .ok (volume t) := by
  have hattempt := hkeeps.rename source target s
  rw [h] at hattempt
  exact hattempt.done rfl

theorem rename_error (hkeeps : disk.Keeps volume) {source target : String} {s t : σ}
    {cause : FileError} (h : disk.rename source target s = (.error cause, t)) :
    volume t = volume s := by
  have hattempt := hkeeps.rename source target s
  rw [h] at hattempt
  exact hattempt.failed cause rfl

theorem removeFile_ok (hkeeps : disk.Keeps volume) {path : String} {s t : σ}
    (h : disk.removeFile path s = (.ok (), t)) : (volume s).removeFile path = .ok (volume t) := by
  have hattempt := hkeeps.removeFile path s
  rw [h] at hattempt
  exact hattempt.done rfl

theorem removeFile_error (hkeeps : disk.Keeps volume) {path : String} {s t : σ}
    {cause : FileError} (h : disk.removeFile path s = (.error cause, t)) :
    volume t = volume s := by
  have hattempt := hkeeps.removeFile path s
  rw [h] at hattempt
  exact hattempt.failed cause rfl

theorem writeFile_ok (hkeeps : disk.Keeps volume) {path : String} {contents : ByteArray} {s t : σ}
    (h : disk.writeFile path contents s = (.ok (), t)) :
    (volume s).writeFile path contents = .ok (volume t) := by
  have hwritten := hkeeps.written path contents s
  rw [h] at hwritten
  exact hwritten rfl

theorem writeFile_error (hkeeps : disk.Keeps volume) {path : String} {contents : ByteArray}
    {s t : σ} {cause : FileError} (h : disk.writeFile path contents s = (.error cause, t)) :
    volume t = volume s ∨ ∃ torn, (volume s).writeFile path torn = .ok (volume t) := by
  have hunwritten := hkeeps.unwritten path contents s cause
  rw [h] at hunwritten
  exact hunwritten rfl

theorem grows_createDirectory (hkeeps : disk.Keeps volume) (path : String) :
    Grows volume (disk.createDirectory path) := by
  intro s
  have hattempt := hkeeps.createDirectory path s
  cases hresult : (disk.createDirectory path s).1 with
  | ok _ => exact Volume.grown_createDirectory (hattempt.done hresult)
  | error error =>
    rw [hattempt.failed error hresult]
    exact .refl _

theorem grows_isThere (hkeeps : disk.Keeps volume) (error : FileError) (path : String) :
    Grows volume (disk.isThere error path) := by
  have hstatus : Grows volume (disk.status path) := by
    intro s
    rw [hkeeps.status path s]
    exact .refl _
  rw [isThere]
  split
  · refine hstatus.bind fun kind => ?_
    split
    · exact .pure true
    · exact .pure false
  · exact .pure false

theorem grows_createFirst (hkeeps : disk.Keeps volume) (missing paths : List String) :
    Grows volume (disk.createFirst missing paths) := by
  induction paths generalizing missing with
  | nil => exact .pure _
  | cons path paths ih =>
    refine (hkeeps.grows_createDirectory path).bind fun result => ?_
    split
    · exact .pure _
    · exact ih (path :: missing)
    · refine (hkeeps.grows_isThere _ path).bind fun there => ?_
      split
      · exact .pure _
      · exact .pure _

theorem grows_createEach (hkeeps : disk.Keeps volume) (paths : List String) :
    Grows volume (disk.createEach paths) := by
  induction paths with
  | nil => exact .pure _
  | cons path paths ih =>
    refine (hkeeps.grows_createDirectory path).bind fun result => ?_
    split
    · exact ih
    · refine (hkeeps.grows_isThere _ path).bind fun there => ?_
      split
      · exact ih
      · exact .pure _

/-- The creation of a directory, done or not, makes directories where nothing was, and changes
nothing else. -/
theorem grows_createAll (hkeeps : disk.Keeps volume) (path : String) :
    Grows volume (disk.createAll path) := by
  refine (hkeeps.grows_createFirst [] (Path.ancestors path)).bind fun result => ?_
  split
  · exact .pure _
  · exact hkeeps.grows_createEach _

theorem grown_made (hkeeps : disk.Keeps volume) (directory : String) (s : σ) :
    Volume.Grown (volume s) (volume (disk.made directory s)) :=
  hkeeps.grows_createAll directory s

end Keeps

end Disk

end PlugTaxonomy
