import PlugTaxonomy.Proofs.Files.Undoing

/-!
# Files that are taken back

Files that are in their places can be taken back when another one does not get to its place, unless
the disk is against it, or the way to their directory is gone.  The way is gone if it led through a
link that was replaced by a file.  It is there if none of the replaced entries was a link, or if
a directory was what was in the way.

* `OpensAt`, `StaysOpen` — the way to the directory is there where a move fails, or always;
* `restored_rollBack`, `restored_commit`, `restored_writeAll` — files are taken back.
-/

namespace PlugTaxonomy

namespace Transaction

section Returning

variable {σ : Type} {disk : Disk (StateM σ)} {volume : σ → Volume} {base : Volume}
  {directory : String} {place : Location} {names : List String} {s s' : σ} {log : List LogEntry}

/-- Where a move of a file or of one of its siblings fails for a cause, the directory opens. -/
def OpensAt (disk : Disk (StateM σ)) (volume : σ → Volume) (base : Volume) (directory : String)
    (place : Location) (names : List String) (cause : FileError) : Prop :=
  ∀ t t', Midway base place names (fun _ _ => True) (volume t) →
    ∀ name ∈ names, ∀ source ∈ siblingNames name, ∀ target,
      disk.rename (Path.join directory source) (Path.join directory target) t = (.error cause, t') →
        (volume t).Opens directory place

/-- As long as the links among the siblings of some files are kept, their directory opens. -/
theorem Midway.opens {v : Volume} {holds : String → Siblings → Prop}
    (h : Midway base place names holds v)
    (hkept : ∀ name ∈ names, ∀ siblings, holds name siblings →
      (base.siblings place name).LinksKept siblings)
    {location : Location} (hopens : base.Opens directory location) : v.Opens directory location :=
  hopens.ground (Volume.groundWithin_of_linksKept h.stands.ground
    (fun name hname => hkept name hname _ (h.each name hname)) h.elsewhere)

variable (hkeeps : disk.Keeps volume) (hopens : base.Opens directory place)
  (hentries : ∀ name ∈ names, IsEntryName name) (hapart : Apart names)
  (hspares : ∀ name ∈ names, disk.Spares volume (staged directory name))

include hkeeps hentries hapart

/-- The directory opens still when temporary files are removed that are no links. -/
theorem opens_discard {swept : List String} (hswept : ∀ name ∈ swept, name ∈ names)
    (hplain : ∀ name ∈ names, ∀ link,
      ((volume s).siblings place name).temporary ≠ some (.link link))
    (htree : (volume s).IsTree) (hopen : (volume s).Opens directory place)
    (hrun : discard disk (swept.map (staged directory)) s = (log, s')) :
    (volume s').Opens directory place := by
  have hclosed : ∀ name ∈ names, ∀ siblings,
      ((volume s).siblings place name).LinksKept siblings →
        ((volume s).siblings place name).LinksKept { siblings with temporary := none } :=
    fun name hname siblings hkept =>
      ⟨fun link hlink => absurd hlink (hplain name hname link), hkept.backup, hkept.target⟩
  have hstart : Midway (volume s) place names
      (fun name siblings => ((volume s).siblings place name).LinksKept siblings) (volume s) :=
    (midway_start htree).mono fun name _ siblings heq =>
      heq ▸ ⟨fun _ hlink => hlink, fun _ hlink => hlink, fun _ hlink => hlink⟩
  exact (midway_discard hkeeps hopen hentries hapart hswept hclosed hstart hrun).opens
    (fun name _ siblings hholds => hholds.1) hopen

include hopens hspares

/-- Where their directory opens, all files that are in their places are taken back. -/
theorem restored_rollBack {done : List (String × Bool)} (hdone : ∀ file ∈ done, file.1 ∈ names)
    (hnodup : (done.map (·.1)).Nodup)
    (hcan : ∀ file ∈ done, CanReturn directory file.1 file.2)
    (hopen : (volume s).Opens directory place)
    (h : Midway base place names (Returning base place (fun _ _ => True) done) (volume s)) :
    Restored (rollBack disk (done.map fun file => (staged directory file.1, file.2)) s).1 := by
  induction done generalizing s with
  | nil => exact restored_nil
  | cons file done ih =>
    obtain ⟨name, hasBackup⟩ := file
    obtain ⟨hfresh, hnodup⟩ := List.nodup_cons.mp hnodup
    have hname : name ∈ names := hdone (name, hasBackup) List.mem_cons_self
    have hcommitted := (h.each name hname).1 hasBackup List.mem_cons_self
    have hok := ok_of_spares (hentries name hname) (hspares name hname)
      (hcan (name, hasBackup) List.mem_cons_self) hopen hcommitted
    rcases hundone : takeBack disk (staged directory name) hasBackup s with ⟨outcome, t⟩
    rw [hundone] at hok
    cases hok
    rw [List.map_cons, rollBack_cons, hundone]
    have hturned := turned_takenBack hkeeps hopens (hentries name hname) h.stands hcommitted hundone
    exact ih (fun file hfile => hdone file (List.mem_cons_of_mem _ hfile)) hnodup
      (fun file hfile => hcan file (List.mem_cons_of_mem _ hfile))
      (hturned.opens hcommitted.linksKept hopen)
      (midway_takenBack hkeeps hopens hentries hapart hname hfresh (fun _ _ => trivial) h hundone)

/-- When a file does not get to its place, and the directory opens there, all files that are in
their places are taken back. -/
theorem restored_commit {done : List (String × Bool)} {rest : List String} {error : WriteError}
    (hnames : names = (done.map (·.1)).reverse ++ rest)
    (hcan : ∀ file ∈ done, CanReturn directory file.1 file.2)
    (hway : ∀ path cause, error = .rename path cause →
      OpensAt disk volume base directory place names cause)
    (h : Midway base place names (Committing base place done rest) (volume s))
    (hrun : commit disk (done.map fun file => (staged directory file.1, file.2))
      (rest.map (staged directory)) s = ((.error error, log), s')) : Restored log := by
  induction rest generalizing done s log with
  | nil => cases hrun
  | cons name rest ih =>
    have hname : name ∈ names := by simp [hnames]
    rw [List.map_cons] at hrun
    rcases commit_cases hrun with ⟨hasBackup, first, t, more, hreplace, hrest, rfl⟩ |
      ⟨cause, first, t, swept, t', undone, hreplace, hdiscard, hrollBack, rfl, rfl⟩
    · obtain ⟨rfl, hplaced⟩ := midway_placed hkeeps hopens hentries hapart hnames h hreplace
      refine ih (by simpa using hnames) ?_ hplaced hrest
      intro file hfile
      rcases List.mem_cons.mp hfile with rfl | hfile
      · exact canReturn_of_replace hkeeps (hentries name hname) hreplace
      · exact hcan file hfile
    · rw [← List.map_cons] at hdiscard
      have hrest : ∀ other ∈ name :: rest, other ∈ names := by
        intro other hother
        rw [hnames]
        exact List.mem_append_right _ hother
      obtain ⟨hfirst, hopen⟩ := restored_of_replace_error hkeeps hopens (hentries name hname)
        h.stands (hspares name hname) (fun t t' new hturned source hsource target hmove =>
          hway _ cause rfl t t' (h.turned hapart hname hturned trivial fun _ _ _ _ _ => trivial)
            name hname source hsource target hmove) hreplace
      have hfailing := midway_notPlaced hkeeps hopens hentries hapart hnames h hreplace hfirst
      have hopen' := opens_discard hkeeps hentries hapart hrest
        (fun other hother => (hfailing.each other hother).ne_link) hfailing.stands.isTree hopen
        hdiscard
      have hswept := midway_discard hkeeps hopens hentries hapart hrest
        (fun _ _ _ hfailing => hfailing.discarded) hfailing hdiscard
      have hdiscarded := restored_discard disk ((name :: rest).map (staged directory)) t
      have hreturned := restored_rollBack hkeeps hopens hentries hapart hspares
        (mem_of_placed hnames) (hapart.nodup_placed hnames) hcan hopen'
        (hswept.mono fun other _ siblings hholds => ⟨hholds.1.1, fun _ => trivial⟩)
      rw [hdiscard] at hdiscarded
      rw [hrollBack] at hreturned
      exact (hfirst.append hdiscarded).append hreturned

end Returning

/-! ### Ways -/

section Ways

variable {base : Volume} {directory : String} {place : Location} {names : List String}

/-- The directory opens whatever becomes of some files and their hidden siblings. -/
def StaysOpen (base : Volume) (directory : String) (place : Location) (names : List String) :
    Prop :=
  ∀ v, Midway base place names (fun _ _ => True) v → v.Opens directory place

/-- Where no link is replaced, the way stays open. -/
theorem staysOpen_of_ne_link (hopens : base.Opens directory place)
    (hplain : ∀ name ∈ names, ∀ sibling ∈ siblingNames name, ∀ link,
      base.entry? (place ++ [sibling]) ≠ some (.link link)) :
    StaysOpen base directory place names := by
  intro v h
  refine h.opens (fun name hname siblings _ => ?_) hopens
  refine Siblings.linksKept_iff.mpr fun sibling link hlink => ?_
  rw [Volume.get_siblings] at hlink
  exact absurd hlink (hplain name hname _ sibling.nameOf_mem_siblingNames link)

/-- A way that stays open is there when a move fails. -/
theorem StaysOpen.opensAt {σ : Type} {disk : Disk (StateM σ)} {volume : σ → Volume}
    (h : StaysOpen base directory place names) (cause : FileError) :
    OpensAt disk volume base directory place names cause :=
  fun t _ hmidway _ _ _ _ _ _ => h (volume t) hmidway

/-- Where a directory is in the way of a move, the way to it is there. -/
theorem opensAt_isDirectory (hopens : base.Opens directory place)
    (hentries : ∀ name ∈ names, IsEntryName name) :
    OpensAt Volume.disk id base directory place names .isDirectory := by
  intro t t' h name hname source hsource target hmove
  have hsourceName : IsEntryName source :=
    isEntryName_of_mem_siblingNames (hentries name hname) hsource
  have hfailed : t.rename (Path.join directory source) (Path.join directory target) =
      .error .isDirectory :=
    Volume.error_of_change (congrArg Prod.fst hmove)
  obtain ⟨location, hlocation⟩ := Volume.opens_of_rename_isDirectory hsourceName hfailed
  cases h.stands.place_eq hopens hlocation
  exact hlocation

end Ways

/-! ### The whole -/

section Whole

variable {σ : Type} {disk : Disk (StateM σ)} {volume : σ → Volume} {directory : String}
  {files : List OutputFile} {error : WriteError} {log : List LogEntry} {s s' : σ}

/-- When output fails, all files that were in their places are taken back, if nothing on the disk
keeps them from it, and the way to their directory is there where a move fails. -/
theorem restored_writeAll (hkeeps : disk.Keeps volume)
    (hentries : ∀ file ∈ files, IsEntryName file.name)
    (hspares : ∀ file ∈ files, disk.Spares volume (staged directory file.name))
    {made : Volume} (hmade : made = volume (disk.made directory s))
    (htree : made.IsTree) (hapart : Apart (files.map (·.name)))
    (hplain : ∀ place, made.Opens directory place → ∀ name ∈ files.map (·.name),
      ∀ link, (made.siblings place name).temporary ≠ some (.link link))
    (hway : ∀ place, made.Opens directory place → ∀ path cause, error = .rename path cause →
      OpensAt disk volume made directory place (files.map (·.name)) cause)
    (hrun : writeAll disk directory files s = ((.error error, log), s')) : Restored log := by
  rcases writeAll_cases hkeeps hentries hmade htree hapart hplain hrun with
    ⟨hrestored, -⟩ | ⟨place, t, hopens, hcommitting, hcommit⟩
  · exact hrestored
  · refine restored_commit hkeeps hopens (names_of_entries hentries) hapart ?_
      (List.nil_append _).symm (fun _ hfile => absurd hfile List.not_mem_nil)
      (hway place hopens) hcommitting hcommit
    intro name hname
    obtain ⟨file, hfile, rfl⟩ := List.mem_map.mp hname
    exact hspares file hfile

end Whole

end Transaction

end PlugTaxonomy
