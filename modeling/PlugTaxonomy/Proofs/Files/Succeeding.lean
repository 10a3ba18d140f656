import Mathlib.Data.String.Basic
import PlugTaxonomy.Proofs.Files.Completing

/-!
# When a transaction succeeds

A transaction succeeds if the output directory can be made, the names of the hidden files are
admitted, no hidden file is there, no target is a directory, and the way to the output directory
does not lead through a link that is to be replaced.

* `isUsable_sibling` — where the temporary file of a name can be written, all its paths are usable;
* `Volume.withoutLinks`, `staysOpen_of_withoutLinks` — ways that do not lead through links that are
  replaced stay open;
* `stage_ne_error`, `commit_ne_error` — no loop fails then;
* `writeAll_ok_iff` — a transaction succeeds if and only if no target is a directory, and what it
  leaves then.
-/

namespace PlugTaxonomy

/-! ### Usable paths -/

namespace Volume

theorem checked_eq_ok_iff {text : String} :
    checked text = .ok (.ofText text) ↔
      '\x00' ∉ text.toList ∧ text ≠ "" ∧ text.utf8ByteSize ≤ maxPathLength := by
  rw [checked]
  by_cases hnul : '\x00' ∈ text.toList
  · simp [hnul]
  · rw [if_neg hnul]
    by_cases hempty : text = ""
    · simp [hempty]
    · rw [if_neg (by simpa using hempty)]
      by_cases hlong : maxPathLength < text.utf8ByteSize
      · simp [if_pos hlong, Nat.not_le.mpr hlong]
      · simp [if_neg hlong, Nat.le_of_not_lt hlong, hnul, hempty]

theorem utf8ByteSize_join {name : String} (directory : String) (hname : IsEntryName name) :
    (Path.join directory name).utf8ByteSize = directory.utf8ByteSize +
      (String.ofList (Path.separator directory)).utf8ByteSize + name.utf8ByteSize := by
  have hjoin : Path.join directory name =
      directory ++ String.ofList (Path.separator directory) ++ name := by
    apply String.toList_injective
    rw [Path.toList_join directory hname, String.toList_append, String.toList_append,
      String.toList_ofList, List.append_assoc]
  rw [hjoin, String.utf8ByteSize_append, String.utf8ByteSize_append]

/-- A name that is not longer than another one, and not written with characters that are not
allowed, gives a usable path where the other one does. -/
theorem IsUsable.of_shorter {directory name other : String} (h : IsUsable directory name)
    (hname : IsEntryName name) (hother : IsEntryName other)
    (hshorter : other.utf8ByteSize ≤ name.utf8ByteSize) (hnul : '\x00' ∉ other.toList) :
    IsUsable directory other := by
  obtain ⟨hplain, -, hlength⟩ := checked_eq_ok_iff.mp h.1
  rw [utf8ByteSize_join directory hname] at hlength
  rw [Path.toList_join directory hname, List.mem_append, List.mem_append, not_or, not_or] at hplain
  refine ⟨checked_eq_ok_iff.mpr ⟨?_, ?_, ?_⟩, Nat.le_trans hshorter h.2⟩
  · rw [Path.toList_join directory hother, List.mem_append, List.mem_append, not_or, not_or]
    exact ⟨hplain.1, hplain.2.1, hnul⟩
  · intro hempty
    have hlist := Path.toList_join directory hother
    rw [hempty] at hlist
    obtain ⟨-, hname⟩ := List.append_eq_nil_iff.mp hlist.symm
    exact hother.toList_ne_nil (List.append_eq_nil_iff.mp hname).2
  · rw [utf8ByteSize_join directory hother]
    omega

/-! ### Volumes without links -/

/-- Whether there is a link at a location. -/
def isLinkAt (v : Volume) (location : Location) : Bool :=
  match v.entry? location with
  | some (.link _) => true
  | _ => false

theorem isLinkAt_iff {v : Volume} {location : Location} :
    v.isLinkAt location = true ↔ ∃ target, v.entry? location = some (.link target) := by
  rw [isLinkAt]
  cases v.entry? location with
  | none => simp
  | some entry => cases entry <;> simp

/-- The volume without the links among some places. -/
def withoutLinks (v : Volume) (places : List Location) : Volume :=
  (places.filter v.isLinkAt).foldl erase v

theorem current_foldl_erase (v : Volume) (places : List Location) :
    (places.foldl erase v).current = v.current := by
  induction places generalizing v with
  | nil => rfl
  | cons place places ih => exact ih (v.erase place)

theorem entry?_foldl_erase {v : Volume} {places : List Location} (hplaces : [] ∉ places)
    (location : Location) :
    Volume.entry? (places.foldl erase v) location =
      if location ∈ places then none else v.entry? location := by
  induction places generalizing v with
  | nil => simp
  | cons place places ih =>
    obtain ⟨hplace, hplaces⟩ := not_or.mp (List.mem_cons.not.mp hplaces)
    rw [List.foldl_cons, ih hplaces, entry?_erase (Ne.symm hplace)]
    by_cases hlocation : location = place
    · simp [hlocation]
    · simp [hlocation]

theorem current_withoutLinks (v : Volume) (places : List Location) :
    (v.withoutLinks places).current = v.current :=
  current_foldl_erase v _

section WithoutLinks

variable {v : Volume} {places : List Location} (hplaces : [] ∉ places)

include hplaces

theorem entry?_withoutLinks (location : Location) :
    Volume.entry? (v.withoutLinks places) location =
      if location ∈ places ∧ v.isLinkAt location = true then none else v.entry? location := by
  rw [withoutLinks, entry?_foldl_erase fun hmem => hplaces (List.mem_filter.mp hmem).1]
  simp only [List.mem_filter]

/-- What is left out is a link, and no directory. -/
theorem isDirectoryAt_withoutLinks (location : Location) :
    (v.withoutLinks places).isDirectoryAt location = v.isDirectoryAt location := by
  rw [isDirectoryAt, isDirectoryAt, entry?_withoutLinks hplaces]
  by_cases hleft : location ∈ places ∧ v.isLinkAt location = true
  · obtain ⟨target, htarget⟩ := isLinkAt_iff.mp hleft.2
    rw [if_pos hleft, htarget]
  · rw [if_neg hleft]

theorem groundWithin_withoutLinks : GroundWithin (v.withoutLinks places) v where
  current := current_withoutLinks v places
  directory := isDirectoryAt_withoutLinks hplaces
  link location link hlink := by
    rw [entry?_withoutLinks hplaces] at hlink
    split at hlink
    · cases hlink
    · exact hlink

end WithoutLinks

end Volume

namespace Transaction

open Volume (IsUsable)

theorem utf8ByteSize_hiddenName (name extension : String) :
    (hiddenName name extension).utf8ByteSize =
      2 + name.utf8ByteSize + extension.utf8ByteSize := by
  rw [hiddenName, String.utf8ByteSize_append, String.utf8ByteSize_append,
    String.utf8ByteSize_append]
  have hdot : ".".utf8ByteSize = 1 := rfl
  omega

/-- Where the path of a temporary file can be used, those of its siblings can be. -/
theorem isUsable_sibling {directory name : String} (sibling : Sibling) (hname : IsEntryName name)
    (h : IsUsable directory (hiddenName name "tmp")) :
    IsUsable directory (sibling.nameOf name) := by
  have htmp : IsEntryName (hiddenName name "tmp") := isEntryName_hiddenName hname (by decide)
  have hplain : '\x00' ∉ (hiddenName name "tmp").toList := by
    intro hnul
    refine (Volume.checked_eq_ok_iff.mp h.1).1 ?_
    rw [Path.toList_join directory htmp]
    exact List.mem_append_right _ (List.mem_append_right _ hnul)
  refine h.of_shorter htmp (sibling.isEntryName_nameOf hname) ?_ ?_
  · have hextensions : "bak".utf8ByteSize = "tmp".utf8ByteSize := rfl
    cases sibling with
    | temporary => exact Nat.le_refl _
    | backup =>
      rw [Sibling.nameOf, utf8ByteSize_hiddenName, utf8ByteSize_hiddenName, hextensions]
    | target =>
      rw [Sibling.nameOf, utf8ByteSize_hiddenName]
      omega
  · have hletters : '\x00' ∉ '.' :: "bak".toList := by decide
    cases sibling with
    | temporary => exact hplain
    | backup =>
      rw [Sibling.nameOf]
      simp only [toList_hiddenName, List.mem_cons, List.mem_append, not_or] at hplain hletters ⊢
      exact ⟨hplain.1, hplain.2.1, hletters⟩
    | target =>
      rw [Sibling.nameOf]
      simp only [toList_hiddenName, List.mem_cons, List.mem_append, not_or] at hplain
      exact hplain.2.1

/-! ### Ways that stay open -/

section Ways

variable {base : Volume} {directory : String} {place : Location} {names : List String}

/-- A way that does not lead through a link that is replaced stays open, where no hidden file is a
link. -/
theorem staysOpen_of_withoutLinks
    (hway : (base.withoutLinks (names.map fun name => place ++ [name])).Opens directory place)
    (hhidden : ∀ name ∈ names, ∀ link,
      base.entry? (place ++ [hiddenName name "tmp"]) ≠ some (.link link) ∧
        base.entry? (place ++ [hiddenName name "bak"]) ≠ some (.link link)) :
    StaysOpen base directory place names := by
  intro v h
  have hroot : [] ∉ names.map fun name => place ++ [name] := by simp
  refine hway.ground ⟨?_, fun location => ?_, fun location link hlink => ?_⟩
  · exact (Volume.current_withoutLinks _ _).trans h.stands.ground.current.symm
  · rw [Volume.isDirectoryAt_withoutLinks hroot, h.stands.ground.directory location]
  · rw [Volume.entry?_withoutLinks hroot] at hlink
    split at hlink
    · cases hlink
    · rename_i hkept
      rw [h.elsewhere location fun name hname sibling hsibling heq => ?_]
      · exact hlink
      · simp only [siblingNames, List.mem_cons, List.not_mem_nil, or_false] at hsibling
        rcases hsibling with rfl | rfl | rfl
        · exact (hhidden name hname link).1 (heq ▸ hlink)
        · exact (hhidden name hname link).2 (heq ▸ hlink)
        · refine hkept ⟨List.mem_map.mpr ⟨_, hname, heq.symm⟩, ?_⟩
          exact Volume.isLinkAt_iff.mpr ⟨link, hlink⟩

end Ways

/-! ### Nothing in the way -/

section Free

variable {base v after : Volume} {directory : String} {place : Location} {names : List String}
  {error : WriteError} {cause : FileError} {log : List LogEntry}
  (hopens : base.Opens directory place) (hentries : ∀ name ∈ names, IsEntryName name)
  (hapart : Apart names)
  (hadmitted : ∀ name ∈ names, IsUsable directory (hiddenName name "tmp"))

include hopens hentries hapart hadmitted

/-- Temporary files are written where there are none. -/
theorem stage_ne_error {done : List String} {files : List OutputFile}
    (hnames : names = done ++ files.map (·.name))
    (hfree : ∀ name ∈ names, base.entry? (place ++ [hiddenName name "tmp"]) = none)
    (h : Midway base place names (Staging base place done) v) :
    stage Volume.disk directory (done.map (staged directory)) files v ≠
      ((.error error, log), after) := by
  induction files generalizing done v with
  | nil => exact fun hrun => nomatch hrun
  | cons file files ih =>
    intro hrun
    have hname : file.name ∈ names := by simp [hnames]
    have hplain : ∀ link, (base.siblings place file.name).temporary ≠ some (.link link) :=
      fun link hlink => nomatch (hfree file.name hname).symm.trans hlink
    rcases stage_cases hrun with ⟨t, hwrite, hrest⟩ | ⟨cause, t, hwrite, -, -⟩
    · have hdone : (done ++ [file.name]).map (staged directory) =
          done.map (staged directory) ++ [staged directory file.name] := by
        rw [List.map_append, List.map_singleton]
      exact ih (by simpa using hnames) (midway_written Volume.keeps_disk hopens hentries hapart
        hnames hplain h hwrite) (hdone ▸ hrest)
    · have hopen : v.Opens directory place := by
        refine h.opens (fun name hname siblings hstaging => ?_) hopens
        have hnone := hfree name hname
        by_cases hmem : name ∈ done
        · obtain ⟨_, rfl⟩ := hstaging.1 hmem
          exact ⟨fun _ hlink => (nomatch hnone.symm.trans hlink), fun _ hlink => hlink,
            fun _ hlink => hlink⟩
        · rw [hstaging.2 hmem]
          exact ⟨fun _ hlink => hlink, fun _ hlink => hlink, fun _ hlink => hlink⟩
      have hnow : v.entry? (place ++ [hiddenName file.name "tmp"]) = none :=
        (congrArg Siblings.temporary ((h.each file.name hname).2 (hapart.fresh hnames))).trans
          (hfree file.name hname)
      have hdone := Volume.writeFile_of_free file.contents.toUTF8
        (isEntryName_hiddenName (hentries file.name hname) (by decide)) hopen
        (hadmitted file.name hname) hnow
      have hfailed : v.writeFile (hidden directory file.name "tmp") file.contents.toUTF8 =
          .error cause :=
        Volume.error_of_change (congrArg Prod.fst hwrite)
      exact nomatch hdone.symm.trans hfailed

/-- A file whose temporary file is written gets to its place, if no directory is in the way. -/
theorem replace_ne_error (hway : StaysOpen base directory place names) {name : String}
    (hname : name ∈ names) (htarget : base.isDirectoryAt (place ++ [name]) = false)
    (hbackup : base.isDirectoryAt (place ++ [hiddenName name "bak"]) = false)
    (hstaged : (base.siblings place name).Staged (v.siblings place name))
    (h : Midway base place names (fun _ _ => True) v) :
    replace Volume.disk (staged directory name) v ≠ ((.error cause, log), after) := by
  intro hrun
  have hentry := hentries name hname
  have husable : ∀ sibling : Sibling, IsUsable directory (sibling.nameOf name) := fun sibling =>
    isUsable_sibling sibling hentry (hadmitted name hname)
  -- A file moves from one sibling to another where no directory is.
  have hmoves : ∀ {w w' : Volume} {contents : ByteArray} (moved reached : Sibling),
      moved ≠ reached → Midway base place names (fun _ _ => True) w →
      (w.siblings place name).get moved = some (.file contents) →
      base.isDirectoryAt (place ++ [reached.nameOf name]) = false →
      Volume.disk.rename (Path.join directory (moved.nameOf name))
        (Path.join directory (reached.nameOf name)) w ≠ (.error cause, w') := by
    intro w w' contents moved reached hne hw hfile hfree hrename
    have hmoved := Volume.rename_sibling_of_file moved reached hentry hne (hway w hw)
      (husable moved) (husable reached) hfile ((hw.stands.ground.directory _).trans hfree)
    have hfailed := Volume.error_of_change (congrArg Prod.fst hrename)
    exact nomatch hmoved.symm.trans hfailed
  obtain ⟨contents, hnow⟩ := hstaged
  have htemporary : (v.siblings place name).temporary = some (.file contents) := by rw [hnow]
  have hreplacing := replacing_of_replace Volume.keeps_disk hrun
  generalize hregular : (id v : Volume).isRegular (staged directory name).target = regular
    at hreplacing
  cases hreplacing with
  | notAside _ haside =>
    obtain ⟨before, hbefore⟩ := h.stands.target_of_isRegular hopens hentry hregular
    exact hmoves .target .backup (by decide) h hbefore hbackup haside
  | notPlaced _ hplaced =>
    exact hmoves .temporary .target (by decide) h htemporary htarget hplaced
  | @putBack _ t t' _ _ restored haside hplaced hback =>
    obtain ⟨before, hbefore⟩ := h.stands.target_of_isRegular hopens hentry hregular
    have hturned := h.stands.turned_rename hopens hentry .target .backup (by decide) hbefore
      (Volume.keeps_disk.rename_ok haside)
    have hmoved : (Volume.siblings t place name).temporary = some (.file contents) :=
      (congrArg Siblings.temporary hturned.siblings).trans htemporary
    exact hmoves .temporary .target (by decide)
      (h.turned hapart hname hturned trivial fun _ _ _ _ _ => trivial) hmoved htarget hplaced

/-- All files get to their places, if no directory is in the way. -/
theorem commit_ne_error (hway : StaysOpen base directory place names)
    (htarget : ∀ name ∈ names, base.isDirectoryAt (place ++ [name]) = false)
    (hbackup : ∀ name ∈ names, base.isDirectoryAt (place ++ [hiddenName name "bak"]) = false)
    {done : List (String × Bool)} {rest : List String}
    (hnames : names = (done.map (·.1)).reverse ++ rest)
    (h : Midway base place names (Committing base place done rest) v) :
    commit Volume.disk (done.map fun file => (staged directory file.1, file.2))
      (rest.map (staged directory)) v ≠ ((.error error, log), after) := by
  induction rest generalizing done v log with
  | nil => exact fun hrun => nomatch hrun
  | cons name rest ih =>
    intro hrun
    have hname : name ∈ names := by simp [hnames]
    rw [List.map_cons] at hrun
    rcases commit_cases hrun with ⟨hasBackup, first, t, more, hreplace, hrest, rfl⟩ |
      ⟨cause, first, t, swept, t', undone, hreplace, -, -, -, -⟩
    · obtain ⟨-, hplaced⟩ :=
        midway_placed Volume.keeps_disk hopens hentries hapart hnames h hreplace
      exact ih (by simpa using hnames) hplaced hrest
    · exact replace_ne_error hopens hentries hapart hadmitted hway hname (htarget name hname)
        (hbackup name hname) ((h.each name hname).2 List.mem_cons_self)
        (h.mono fun _ _ _ _ => trivial) hreplace

end Free

/-! ### The whole -/

section Whole

variable {volume after : Volume} {directory : String} {place : Location}
  {files : List OutputFile} {result : Except WriteError (List String)} {log : List LogEntry}

/-- Output succeeds if no target is a directory. -/
theorem writeAll_ne_error {made : Volume} {error : WriteError}
    (hentries : ∀ file ∈ files, IsEntryName file.name)
    (hcreate : Volume.disk.createAll directory volume = (.ok (), made)) (htree : made.IsTree)
    (hapart : Apart (files.map (·.name))) (hopens : made.Opens directory place)
    (hadmitted : ∀ file ∈ files, IsUsable directory (hiddenName file.name "tmp"))
    (hway : StaysOpen made directory place (files.map (·.name)))
    (hhidden : ∀ file ∈ files, made.entry? (place ++ [hiddenName file.name "tmp"]) = none ∧
      made.entry? (place ++ [hiddenName file.name "bak"]) = none)
    (hfree : ∀ file ∈ files, made.isDirectoryAt (place ++ [file.name]) = false) :
    writeAll Volume.disk directory files volume ≠ ((.error error, log), after) := by
  intro hrun
  have hnames := names_of_entries hentries
  have hadmitted' : ∀ name ∈ files.map (·.name), IsUsable directory (hiddenName name "tmp") :=
    List.forall_mem_map.mpr hadmitted
  have hplaces : ∀ name ∈ files.map (·.name),
      made.entry? (place ++ [hiddenName name "tmp"]) = none ∧
        made.entry? (place ++ [hiddenName name "bak"]) = none :=
    List.forall_mem_map.mpr hhidden
  rcases writeAll_error_cases hrun with ⟨cause, hfailed, -, -⟩ | ⟨v, hcreated, hstage⟩ |
    ⟨v, staging, t, first, more, hcreated, hstage, hcommit, rfl⟩
  · cases hcreate.symm.trans hfailed
  · cases hcreate.symm.trans hcreated
    exact stage_ne_error hopens hnames hapart hadmitted' (List.nil_append _).symm
      (fun name hname => (hplaces name hname).1) (midway_staging htree) hstage
  · cases hcreate.symm.trans hcreated
    have hplain : ∀ name ∈ files.map (·.name),
        ∀ link, (made.siblings place name).temporary ≠ some (.link link) :=
      fun name hname _ => ne_of_eq_of_ne (hplaces name hname).1 (Option.some_ne_none _).symm
    have hbackup : ∀ name ∈ files.map (·.name),
        made.isDirectoryAt (place ++ [hiddenName name "bak"]) = false := by
      intro name hname
      rw [Volume.isDirectoryAt, (hplaces name hname).2]
    obtain ⟨rfl, rfl, hstaged⟩ := (midway_stage Volume.keeps_disk hopens hnames hapart
      (List.nil_append _).symm hplain (midway_staging htree) hstage).1 staging rfl
    exact commit_ne_error hopens hnames hapart hadmitted' hway (List.forall_mem_map.mpr hfree)
      hbackup (List.nil_append _).symm hstaged.committing hcommit

/-- Output into a directory that can be made, with no hidden files in the way and none of the
targets a link that leads to the directory itself, succeeds if and only if the system admits the
paths of the temporary files and no target is a directory.  Then every file is in its place with
its contents, no hidden file is left, and everything else is as it was before. -/
theorem writeAll_ok_iff (htree : volume.IsTree) (hentries : ∀ file ∈ files, IsEntryName file.name)
    (hpaths : (siblingPaths directory files).Nodup)
    (hcreate : (Volume.disk.createAll directory volume).1 = .ok ())
    (hway : Volume.Opens ((Volume.disk.made directory volume).withoutLinks
      (files.map fun file => place ++ [file.name])) directory place)
    (hhidden : ∀ file ∈ files,
      Volume.entry? (Volume.disk.made directory volume) (place ++ [hiddenName file.name "tmp"]) =
          none ∧
        Volume.entry? (Volume.disk.made directory volume) (place ++ [hiddenName file.name "bak"]) =
          none)
    (hrun : writeAll Volume.disk directory files volume = ((result, log), after)) :
    ((∃ paths, result = .ok paths) ↔ ∀ file ∈ files,
        IsUsable directory (hiddenName file.name "tmp") ∧
          Volume.isDirectoryAt (Volume.disk.made directory volume) (place ++ [file.name]) =
            false) ∧
      ∀ paths, result = .ok paths →
        paths = files.map (fun file => Path.join directory file.name) ∧
          Delivered volume (Volume.disk.made directory volume) directory place files after ∧
          ∀ file ∈ files, after.entry? (place ++ [hiddenName file.name "tmp"]) = none ∧
            after.entry? (place ++ [hiddenName file.name "bak"]) = none := by
  have hgrown : Volume.Grown volume (Volume.disk.made directory volume) :=
    Volume.keeps_disk.grown_made directory volume
  generalize hmade : Volume.disk.made directory volume = made at hway hhidden hgrown ⊢
  have hroot : [] ∉ files.map fun file => place ++ [file.name] := by simp
  have hopens : made.Opens directory place :=
    hway.ground (Volume.groundWithin_withoutLinks hroot)
  have hapart := apart_of_siblingPaths hpaths
  have hstays : StaysOpen made directory place (files.map (·.name)) := by
    refine staysOpen_of_withoutLinks ?_ ?_
    · rw [List.map_map]
      exact hway
    · refine List.forall_mem_map.mpr fun file hfile link => ?_
      rw [(hhidden file hfile).1, (hhidden file hfile).2]
      simp
  have hplaces : ∀ location, IsHiddenPlace made directory files location →
      made.entry? location = none := by
    intro location hlocation
    obtain ⟨file, hfile, rfl | rfl⟩ := (isHiddenPlace_iff hopens location).mp hlocation
    · exact (hhidden file hfile).1
    · exact (hhidden file hfile).2
  have hplain : ∀ name ∈ files.map (·.name),
      ∀ link, (made.siblings place name).temporary ≠ some (.link link) :=
    List.forall_mem_map.mpr fun file hfile link hlink =>
      nomatch (hhidden file hfile).1.symm.trans hlink
  have hdone : ∀ paths, result = .ok paths →
      paths = files.map (fun file => Path.join directory file.name) ∧
        (∀ name ∈ files.map (·.name), made.isDirectoryAt (place ++ [name]) = false) ∧
        Midway made place (files.map (·.name))
          (fun name => (made.siblings place name).Settled (contentsOf files name)) after := by
    rintro paths rfl
    exact writeAll_ok hentries hmade.symm (hgrown.isTree htree) hapart hopens hplain hstays hrun
  refine ⟨⟨?_, fun hfree => ?_⟩, fun paths hpaths => ?_⟩
  · rintro ⟨paths, rfl⟩ file hfile
    exact ⟨usable_of_writeAll_ok hentries hrun file hfile,
      (hdone paths rfl).2.1 file.name (List.mem_map_of_mem hfile)⟩
  · cases result with
    | ok paths => exact ⟨paths, rfl⟩
    | error error =>
      have hcreated : Volume.disk.createAll directory volume = (.ok (), made) :=
        Prod.ext hcreate hmade
      exact absurd hrun (writeAll_ne_error hentries hcreated (hgrown.isTree htree) hapart hopens
        (fun file hfile => (hfree file hfile).1) hstays hhidden fun file hfile =>
          (hfree file hfile).2)
  · obtain ⟨hjoined, -, hsettled⟩ := hdone paths hpaths
    refine ⟨hjoined, delivered_of_settled hgrown hapart hopens hstays (fun location hlocation =>
      Or.inl (hplaces location hlocation)) hsettled, fun file hfile => ?_⟩
    have hleft := hsettled.each file.name (List.mem_map_of_mem hfile)
    refine ⟨hleft.temporary, ?_⟩
    rcases hleft.backup with hgone | hsame
    · exact hgone
    · exact hsame.trans (hhidden file hfile).2

/-- An output directory with a file and with a link to a file beside it. -/
def mixedOutput : Volume where
  entries := [(["out"], .directory), (["out", "a"], .file "old".toUTF8),
    (["out", "b"], .link "../kept"), (["kept"], .file "kept".toUTF8)]
  current := []

theorem mixed_output_delivered :
    ((∃ paths, (writeAll Volume.disk "out" newOutput mixedOutput).1.1 = .ok paths) ↔
        ∀ file ∈ newOutput, IsUsable "out" (hiddenName file.name "tmp") ∧
          Volume.isDirectoryAt (Volume.disk.made "out" mixedOutput) (["out"] ++ [file.name]) =
            false) ∧
      (writeAll Volume.disk "out" newOutput mixedOutput).1.1 =
        .ok ["out/a", "out/b", "out/c"] ∧
      Delivered mixedOutput (Volume.disk.made "out" mixedOutput) "out" ["out"] newOutput
        (writeAll Volume.disk "out" newOutput mixedOutput).2 := by
  have hresult : (writeAll Volume.disk "out" newOutput mixedOutput).1.1 =
      .ok ["out/a", "out/b", "out/c"] := by
    decide +kernel
  have hway : Volume.Opens ((Volume.disk.made "out" mixedOutput).withoutLinks
      (newOutput.map fun file => ["out"] ++ [file.name])) "out" ["out"] :=
    ⟨by decide +kernel, by decide +kernel⟩
  have hnone : ∀ file ∈ newOutput, ∀ extension ∈ ["tmp", "bak"],
      (Volume.entry? (Volume.disk.made "out" mixedOutput)
        (["out"] ++ [hiddenName file.name extension])).isNone := by
    decide +kernel
  obtain ⟨hiff, hok⟩ := writeAll_ok_iff (Volume.isTree_of_entries (by decide +kernel))
    (by decide +kernel) (by decide +kernel) (by decide +kernel) hway
    (fun file hfile => ⟨Option.isNone_iff_eq_none.mp (hnone file hfile "tmp" (by decide)),
      Option.isNone_iff_eq_none.mp (hnone file hfile "bak" (by decide))⟩) rfl
  exact ⟨hiff, hresult, (hok _ hresult).2.1⟩

/-- The output directory is a link in itself, and that link is one of the targets. -/
def roundOutput : Volume where
  entries := [(["out"], .directory), (["out", "a"], .link ".")]
  current := []

/-- A name that is not too long, but those of its hidden files are. -/
def longName : String :=
  String.ofList (List.replicate 252 'x')

theorem isEntryName_longName : IsEntryName longName := by
  have htext : longName.toList = List.replicate 252 'x' := String.toList_ofList
  have hother : ∀ text : String, text.toList.length < 252 → longName ≠ text := by
    intro text hlength heq
    rw [← heq, htext, List.length_replicate] at hlength
    exact Nat.lt_irrefl _ hlength
  refine ⟨hother _ (by decide), hother _ (by decide), hother _ (by decide), ?_⟩
  rw [htext, List.mem_replicate]
  decide

theorem utf8ByteSize_longName : longName.utf8ByteSize = 252 := by
  have hsize : ∀ n, String.utf8Len (List.replicate n 'x') = n := by
    intro n
    induction n with
    | zero => rfl
    | succ n ih =>
      rw [List.replicate_succ, String.utf8Len, ih]
      rfl
  exact (String.utf8ByteSize_ofList _).trans (hsize 252)

/-- Nothing is hidden in an output directory that can be made, and no target is a directory, but
output fails: when the link on the way to the directory is replaced, when a name is so long that its
temporary file cannot be written, and when a target becomes a directory on the way to the directory
itself. -/
theorem no_directory_and_no_success :
    (roundOutput.IsTree ∧ (∀ name ∈ [("a" : String), "b"], IsEntryName name) ∧
      (siblingPaths "out/a" [⟨"a", "A"⟩, ⟨"b", "B"⟩]).Nodup ∧
      (Volume.disk.createAll "out/a" roundOutput).1 = .ok () ∧
      Volume.Opens (Volume.disk.made "out/a" roundOutput) "out/a" ["out"] ∧
      (∀ name ∈ [("a" : String), "b"], ∀ extension ∈ ["tmp", "bak"],
        (roundOutput.entry? ["out", hiddenName name extension]).isNone) ∧
      (∀ name ∈ [("a" : String), "b"], roundOutput.isDirectoryAt ["out", name] = false) ∧
      (writeAll Volume.disk "out/a" [⟨"a", "A"⟩, ⟨"b", "B"⟩] roundOutput).1.1 =
        .error (.rename "out/a/b" .notDirectory)) ∧
    (IsEntryName longName ∧ (siblingPaths "out" [⟨longName, "A"⟩]).Nodup ∧
      (Volume.disk.createAll "out" ⟨[], []⟩).1 = .ok () ∧
      ∀ paths, (writeAll Volume.disk "out" [⟨longName, "A"⟩] ⟨[], []⟩).1.1 ≠ .ok paths) ∧
    (siblingPaths "out/b/.." [⟨"b", "B"⟩]).Nodup ∧
      (Volume.disk.createAll "out/b/.." ⟨[], []⟩).1 = .ok () ∧
      (writeAll Volume.disk "out/b/.." [⟨"b", "B"⟩] ⟨[], []⟩).1.1 =
        .error (.rename "out/b/../b" .isDirectory) := by
  have hentries : ∀ file ∈ [(⟨longName, "A"⟩ : OutputFile)], IsEntryName file.name :=
    List.forall_mem_singleton.mpr isEntryName_longName
  have hapart : Apart ([(⟨longName, "A"⟩ : OutputFile)].map (·.name)) := by
    simp [Apart, siblingNames, hiddenName_ne, hiddenName_tmp_ne_bak]
  have hlong : ¬(hiddenName longName "tmp").utf8ByteSize ≤ Volume.maxNameLength := by
    have htmp : "tmp".utf8ByteSize = 3 := rfl
    rw [utf8ByteSize_hiddenName, utf8ByteSize_longName, htmp]
    decide
  refine ⟨⟨Volume.isTree_of_entries (by decide +kernel), ?_⟩, ⟨?_, ?_, ?_, ?_⟩, ?_⟩
  · exact ⟨by decide +kernel, by decide +kernel, by decide +kernel,
      ⟨by decide +kernel, by decide +kernel⟩, by decide +kernel, by decide +kernel,
      by decide +kernel⟩
  · exact isEntryName_longName
  · exact nodup_siblingPaths hentries hapart
  · decide +kernel
  · rcases hrun : writeAll Volume.disk "out" [⟨longName, "A"⟩] ⟨[], []⟩ with ⟨⟨result, log⟩, after⟩
    rintro paths rfl
    exact hlong (usable_of_writeAll_ok hentries hrun _ (List.mem_singleton_self _)).2
  · decide +kernel

end Whole

end Transaction

end PlugTaxonomy
