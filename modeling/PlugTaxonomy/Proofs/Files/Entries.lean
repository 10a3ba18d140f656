import PlugTaxonomy.Proofs.Files.Walk

/-!
# Entries changed by operations

What an operation on the entries of one directory does, is that it puts a file there, takes an
entry away, or does both when it moves a file.

* `Volume.IsTree` — whatever there is lies in a directory;
* `Volume.entry?_put`, `Volume.entry?_erase`, `Volume.entry?_move` — what is where afterwards;
* `Volume.Edited` — files came or went, directories stayed;
* `Volume.writeFile_join`, `Volume.removeFile_join`, `Volume.rename_join` — the operations.
-/

namespace PlugTaxonomy

namespace Volume

variable {v w : Volume}

/-! ### Look-ups -/

section Lookup

variable {entries : List (Location × Entry)} {location : Location}

theorem lookup_cons_ite (key : Location) (entry : Entry) :
    ((key, entry) :: entries).lookup location =
      if location = key then some entry else entries.lookup location := by
  rw [List.lookup_cons]
  by_cases hlocation : location = key
  · rw [if_pos hlocation, beq_iff_eq.mpr hlocation]
  · rw [if_neg hlocation, beq_eq_false_iff_ne.mpr hlocation]

theorem lookup_without (hidden : Location) :
    (entries.filter fun found => found.1 ≠ hidden).lookup location =
      if location = hidden then none else entries.lookup location := by
  induction entries with
  | nil => simp
  | cons found entries ih =>
    obtain ⟨key, entry⟩ := found
    rw [List.filter_cons, lookup_cons_ite]
    by_cases hkey : key = hidden
    · rw [if_neg (by simpa using hkey), ih, hkey]
      by_cases hlocation : location = hidden
      · rw [if_pos hlocation, if_pos hlocation]
      · rw [if_neg hlocation, if_neg hlocation, if_neg hlocation]
    · rw [if_pos (by simpa using hkey), lookup_cons_ite, ih]
      by_cases hlocation : location = key
      · rw [if_pos hlocation, if_neg (hlocation ▸ hkey), if_pos hlocation]
      · rw [if_neg hlocation, if_neg hlocation]

/-- Entries of which one changes its key to one that no entry has. -/
theorem lookup_renamed {source target : Location} (hne : source ≠ target)
    (hfresh : ∀ found ∈ entries, found.1 ≠ target) :
    (entries.map fun found => (if found.1 = source then target else found.1, found.2)).lookup
        location =
      if location = target then entries.lookup source
      else if location = source then none
      else entries.lookup location := by
  induction entries with
  | nil => simp
  | cons found entries ih =>
    obtain ⟨key, entry⟩ := found
    have hkey : key ≠ target := hfresh (key, entry) List.mem_cons_self
    rw [List.map_cons, lookup_cons_ite, lookup_cons_ite, lookup_cons_ite,
      ih fun found hfound => hfresh found (List.mem_cons_of_mem _ hfound)]
    by_cases hsource : key = source
    · subst hsource
      by_cases hlocation : location = target
      · simp [hlocation]
      · by_cases hlocation' : location = key
        · simp [hlocation', hne]
        · simp [hlocation, hlocation']
    · by_cases hlocation : location = key
      · subst hlocation
        simp [hsource, hkey]
      · simp [hsource, Ne.symm hsource, hlocation]

end Lookup

theorem entry?_of_ne_nil {location : Location} (h : location ≠ []) :
    v.entry? location = v.entries.lookup location := by
  rw [Volume.entry?, if_neg (by simpa using h)]

theorem entry?_erase {place location : Location} (hplace : place ≠ []) :
    Volume.entry? (v.erase place) location =
      if location = place then none else v.entry? location := by
  by_cases hroot : location = []
  · subst hroot
    rw [if_neg (Ne.symm hplace)]
    rfl
  · rw [entry?_of_ne_nil hroot, entry?_of_ne_nil hroot, erase]
    exact lookup_without place

theorem entry?_put {place location : Location} {entry : Entry} (hplace : place ≠ []) :
    Volume.entry? (v.put place entry) location =
      if location = place then some entry else v.entry? location := by
  by_cases hroot : location = []
  · subst hroot
    rw [if_neg (Ne.symm hplace)]
    rfl
  · have herase : (v.erase place).entries.lookup location =
        if location = place then none else v.entry? location := by
      rw [← entry?_of_ne_nil hroot, entry?_erase hplace]
    rw [entry?_of_ne_nil hroot, put, lookup_cons_ite, herase]
    by_cases hlocation : location = place
    · rw [if_pos hlocation, if_pos hlocation]
    · rw [if_neg hlocation, if_neg hlocation, if_neg hlocation]

/-! ### Trees -/

/-- Whatever there is lies in a directory. -/
def IsTree (v : Volume) : Prop :=
  ∀ location name, (v.entry? (location ++ [name])).isSome → v.isDirectoryAt location = true

/-- Whatever there is lies below directories only. -/
theorem IsTree.isDirectoryAt_of_below (htree : v.IsTree) {location below : Location}
    (hbelow : below ≠ []) (h : (v.entry? (location ++ below)).isSome) :
    v.isDirectoryAt location = true := by
  induction below generalizing location with
  | nil => exact absurd rfl hbelow
  | cons name below ih =>
    cases below with
    | nil => exact htree location name h
    | cons name' below =>
      have hnext : v.isDirectoryAt (location ++ [name]) = true := by
        refine ih (by simp) ?_
        rw [List.append_assoc]
        exact h
      refine htree location name ?_
      rw [isDirectoryAt_iff.mp hnext]
      rfl

theorem IsTree.not_isBelow (htree : v.IsTree) {place : Location}
    (hplace : v.isDirectoryAt place = false) {found : Location × Entry}
    (hfound : found ∈ v.entries) : isBelow found.1 place = false := by
  rw [isBelow]
  refine Bool.eq_false_iff.mpr fun hbelow => ?_
  rw [Bool.and_eq_true, decide_eq_true_eq, List.isPrefixOf_iff_prefix] at hbelow
  obtain ⟨hlength, below, hbelow⟩ := hbelow
  have hne : below ≠ [] := by
    rintro rfl
    rw [← hbelow, List.append_nil] at hlength
    exact Nat.lt_irrefl _ hlength
  have hentry : (v.entry? (place ++ below)).isSome := by
    rw [entry?_of_ne_nil (by simp [hne]), hbelow, Option.isSome_iff_ne_none, ne_eq,
      List.lookup_eq_none_iff]
    intro hnone
    simpa using hnone found hfound
  rw [htree.isDirectoryAt_of_below hne hentry] at hplace
  cases hplace

theorem entry?_move (htree : v.IsTree) {source target location : Location}
    (hsource : v.isDirectoryAt source = false) (htarget : target ≠ []) (hne : source ≠ target) :
    Volume.entry? (v.move source target) location =
      if location = target then v.entry? source
      else if location = source then none
      else v.entry? location := by
  have hsourceRoot : source ≠ [] := by
    rintro rfl
    cases hsource
  by_cases hroot : location = []
  · subst hroot
    rw [if_neg (Ne.symm htarget), if_neg (Ne.symm hsourceRoot)]
    rfl
  have hmoved : ((v.erase target).entries.map fun found =>
      (if found.1 = source ∨ isBelow found.1 source then target ++ found.1.drop source.length
        else found.1, found.2)) =
      (v.erase target).entries.map fun found =>
        (if found.1 = source then target else found.1, found.2) := by
    refine List.map_congr_left fun found hfound => ?_
    have hbelow : isBelow found.1 source = false :=
      htree.not_isBelow hsource (List.mem_filter.mp hfound).1
    by_cases hfoundSource : found.1 = source
    · rw [if_pos (Or.inl hfoundSource), if_pos hfoundSource, hfoundSource, List.drop_length,
        List.append_nil]
    · rw [if_neg (by simp [hfoundSource, hbelow]), if_neg hfoundSource]
  have hfresh : ∀ found ∈ (v.erase target).entries, found.1 ≠ target := by
    intro found hfound
    simpa using (List.mem_filter.mp hfound).2
  have herase : ∀ place, place ≠ [] → place ≠ target →
      (v.erase target).entries.lookup place = v.entry? place := by
    intro place hplace hplaceTarget
    rw [← entry?_of_ne_nil hplace, entry?_erase htarget, if_neg hplaceTarget]
  rw [entry?_of_ne_nil hroot]
  change (List.map _ _).lookup location = _
  rw [hmoved, lookup_renamed hne hfresh, herase source hsourceRoot hne]
  by_cases hlocation : location = target
  · rw [if_pos hlocation, if_pos hlocation]
  · rw [if_neg hlocation, if_neg hlocation, herase location hroot hlocation]

/-! ### Edits -/

/-- One volume comes from another by edits of files: at each location there is what there was or,
if there was no directory, nothing or a file in a directory. -/
structure Edited (v w : Volume) : Prop where
  current : w.current = v.current
  entries : ∀ location, w.entry? location = v.entry? location ∨
    v.isDirectoryAt location = false ∧
      (w.entry? location = none ∨
        ∃ directory name contents, location = directory ++ [name] ∧
          v.isDirectoryAt directory = true ∧ w.entry? location = some (.file contents))

theorem isDirectoryAt_congr {location : Location} (h : w.entry? location = v.entry? location) :
    w.isDirectoryAt location = v.isDirectoryAt location := by
  rw [isDirectoryAt, isDirectoryAt, h]

/-- Edits of files leave the directories, and make no links. -/
theorem Edited.ground (h : Edited v w) : GroundWithin w v where
  current := h.current
  directory location := by
    rcases h.entries location with hsame | ⟨hold, hnone | ⟨_, _, contents, _, _, hfile⟩⟩
    · exact isDirectoryAt_congr hsame
    · rw [hold, isDirectoryAt, hnone]
    · rw [hold, isDirectoryAt, hfile]
  link location target hlink := by
    rcases h.entries location with hsame | ⟨_, hnone | ⟨_, _, contents, _, _, hfile⟩⟩
    · exact hsame ▸ hlink
    · rw [hnone] at hlink
      cases hlink
    · rw [hfile] at hlink
      cases hlink

theorem Edited.isTree (h : Edited v w) (htree : v.IsTree) : w.IsTree := by
  intro location name hentry
  rw [h.ground.directory location]
  rcases h.entries (location ++ [name]) with hsame | ⟨_, hnone | ⟨directory, _, _, hjoin, hin, _⟩⟩
  · exact htree location name (hsame ▸ hentry)
  · rw [hnone] at hentry
    cases hentry
  · rw [(List.append_inj' hjoin rfl).1]
    exact hin

theorem Edited.refl (v : Volume) : Edited v v :=
  ⟨rfl, fun _ => Or.inl rfl⟩

theorem Edited.trans {u : Volume} (h : Edited u v) (h' : Edited v w) : Edited u w where
  current := h'.current.trans h.current
  entries location := by
    rcases h'.entries location with hsame | ⟨hplace, hnew⟩
    · rw [hsame]
      exact h.entries location
    · refine Or.inr ⟨?_, ?_⟩
      · rw [← h.ground.directory location]
        exact hplace
      · rcases hnew with hnone | ⟨directory, name, contents, hjoin, hdirectory, hfile⟩
        · exact Or.inl hnone
        · refine Or.inr ⟨directory, name, contents, hjoin, ?_, hfile⟩
          rw [← h.ground.directory directory]
          exact hdirectory

section Edits

variable {directory : Location} {name : String}

theorem edited_put (contents : ByteArray) (hdirectory : v.isDirectoryAt directory = true)
    (hplace : v.isDirectoryAt (directory ++ [name]) = false) :
    Edited v (v.put (directory ++ [name]) (.file contents)) where
  current := rfl
  entries location := by
    rw [entry?_put (by simp)]
    by_cases hlocation : location = directory ++ [name]
    · subst hlocation
      rw [if_pos rfl]
      exact Or.inr ⟨hplace, Or.inr ⟨directory, name, contents, rfl, hdirectory, rfl⟩⟩
    · rw [if_neg hlocation]
      exact Or.inl rfl

theorem edited_erase (hplace : v.isDirectoryAt (directory ++ [name]) = false) :
    Edited v (v.erase (directory ++ [name])) where
  current := rfl
  entries location := by
    rw [entry?_erase (by simp)]
    by_cases hlocation : location = directory ++ [name]
    · subst hlocation
      rw [if_pos rfl]
      exact Or.inr ⟨hplace, Or.inl rfl⟩
    · rw [if_neg hlocation]
      exact Or.inl rfl

theorem edited_move (htree : v.IsTree) {source : Location} {contents : ByteArray}
    (hsource : v.entry? source = some (.file contents)) (hne : source ≠ directory ++ [name])
    (hdirectory : v.isDirectoryAt directory = true)
    (hplace : v.isDirectoryAt (directory ++ [name]) = false) :
    Edited v (v.move source (directory ++ [name])) where
  current := rfl
  entries location := by
    have hfile : v.isDirectoryAt source = false := by rw [isDirectoryAt, hsource]
    rw [entry?_move htree hfile (by simp) hne, hsource]
    by_cases hlocation : location = directory ++ [name]
    · subst hlocation
      rw [if_pos rfl]
      exact Or.inr ⟨hplace, Or.inr ⟨directory, name, contents, rfl, hdirectory, rfl⟩⟩
    · rw [if_neg hlocation]
      by_cases hlocation' : location = source
      · subst hlocation'
        rw [if_pos rfl]
        exact Or.inr ⟨hfile, Or.inl rfl⟩
      · rw [if_neg hlocation']
        exact Or.inl rfl

end Edits

/-! ### Operations on entries of a directory -/

section Joined

variable {directory name name' : String}

theorem writeFile_join {contents : ByteArray} (hname : IsEntryName name)
    (h : v.writeFile (Path.join directory name) contents = .ok w) :
    ∃ location, v.Opens directory location ∧ IsUsable directory name ∧
      ((∃ target, v.entry? (location ++ [name]) = some (.link target)) ∨
        v.isDirectoryAt (location ++ [name]) = false ∧
          w = v.put (location ++ [name]) (.file contents)) := by
  rw [writeFile] at h
  obtain ⟨path, hchecked, h⟩ := ok_of_bind h
  cases checked_eq_ok hchecked
  obtain ⟨found, hfound, h⟩ := ok_of_bind h
  cases h
  obtain ⟨location, hopens, hshort, hlink | ⟨rfl, hplace⟩⟩ := fileLocation_join hname hfound
  · exact ⟨location, hopens, ⟨hchecked, hshort⟩, Or.inl hlink⟩
  · exact ⟨location, hopens, ⟨hchecked, hshort⟩, Or.inr ⟨hplace, rfl⟩⟩

/-- A file that is not there yet is written, if its path can be used. -/
theorem writeFile_of_free {location : Location} (contents : ByteArray) (hname : IsEntryName name)
    (hopens : v.Opens directory location) (husable : IsUsable directory name)
    (hfree : v.entry? (location ++ [name]) = none) :
    v.writeFile (Path.join directory name) contents =
      .ok (v.put (location ++ [name]) (.file contents)) := by
  have hjoin := Path.ofText_join directory hname
  have hwalk : v.walk maxLinks (start (.ofText (Path.join directory name)) v.current)
      (Path.ofText directory).names = .ok location := by
    rw [hjoin]
    exact hopens.1
  have hfound : v.fileLocation maxLinks v.current (.ofText (Path.join directory name)) =
      .ok (location ++ [name]) :=
    fileLocation_of_walk (by rw [hjoin]) (by rw [hjoin]) hname husable.2 hwalk hopens.2 hfree
  rw [writeFile, husable.1]
  simp only [bind, Except.bind, hfound, pure, Except.pure]

theorem removeFile_join (hname : IsEntryName name)
    (h : v.removeFile (Path.join directory name) = .ok w) :
    ∃ location, v.Opens directory location ∧ v.isDirectoryAt (location ++ [name]) = false ∧
      w = v.erase (location ++ [name]) := by
  rw [removeFile] at h
  obtain ⟨place, hplace, h⟩ := ok_of_bind h
  obtain ⟨location, hopens, -, rfl⟩ := (destination_join hname).mp hplace
  refine ⟨location, hopens, ?_⟩
  rw [isDirectoryAt]
  cases hentry : v.entry? (location ++ [name]) with
  | none =>
    simp only [hentry] at h
    cases h
  | some entry =>
    simp only [hentry] at h
    cases entry with
    | directory => cases h
    | file contents =>
      cases h
      exact ⟨rfl, rfl⟩
    | link target =>
      cases h
      exact ⟨rfl, rfl⟩

theorem removeFile_of_file {location : Location} {contents : ByteArray} (hname : IsEntryName name)
    (hopens : v.Opens directory location) (husable : IsUsable directory name)
    (hfile : v.entry? (location ++ [name]) = some (.file contents)) :
    v.removeFile (Path.join directory name) = .ok (v.erase (location ++ [name])) := by
  rw [removeFile, (destination_join hname).mpr ⟨location, hopens, husable, rfl⟩]
  simp only [bind, Except.bind, hfile]
  rfl

/-- What is no directory takes the place of anything but a directory. -/
theorem mayReplace_eq_ok_iff {location : Location} :
    v.mayReplace false location = .ok () ↔ v.isDirectoryAt location = false := by
  rw [mayReplace.eq_def, isDirectoryAt]
  cases v.entry? location with
  | none => simp
  | some entry => cases entry <;> simp

theorem rename_join (hname : IsEntryName name) (hname' : IsEntryName name') (hne : name ≠ name')
    (h : v.rename (Path.join directory name) (Path.join directory name') = .ok w) :
    ∃ location, v.Opens directory location ∧
      IsUsable directory name ∧ IsUsable directory name' ∧
      (∀ contents, v.entry? (location ++ [name]) = some (.file contents) →
        v.isDirectoryAt (location ++ [name']) = false) ∧
      w = v.move (location ++ [name]) (location ++ [name']) := by
  rw [rename] at h
  obtain ⟨path, hchecked, h⟩ := ok_of_bind h
  cases checked_eq_ok hchecked
  obtain ⟨path', hchecked', h⟩ := ok_of_bind h
  cases checked_eq_ok hchecked'
  obtain ⟨origin, horigin, h⟩ := ok_of_bind h
  obtain ⟨location, hopens, hlength, rfl⟩ := (destinationOf_join hname).mp horigin
  obtain ⟨place, hplace, h⟩ := ok_of_bind h
  obtain ⟨location', hopens', hlength', rfl⟩ := (destinationOf_join hname').mp hplace
  cases hopens.unique hopens'
  refine ⟨location, hopens, ⟨hchecked, hlength⟩, ⟨hchecked', hlength'⟩, ?_⟩
  cases hentry : v.entry? (location ++ [name]) with
  | none =>
    simp only [hentry] at h
    cases h
  | some entry =>
    simp only [hentry] at h
    obtain ⟨-, h⟩ := ok_of_guard h
    obtain ⟨-, h⟩ := ok_of_guard h
    obtain ⟨-, h⟩ := ok_of_guard h
    have hdiffer : location ++ [name] ≠ location ++ [name'] := by
      intro heq
      exact hne (by simpa using heq)
    rw [if_neg hdiffer] at h
    obtain ⟨_, hmay, h⟩ := ok_of_bind h
    cases h
    refine ⟨?_, rfl⟩
    rintro contents ⟨⟩
    exact mayReplace_eq_ok_iff.mp hmay

/-- A directory in the way of a move is in the directory that opens. -/
theorem opens_of_rename_isDirectory (hname : IsEntryName name)
    (h : v.rename (Path.join directory name) (Path.join directory name') = .error .isDirectory) :
    ∃ location, v.Opens directory location := by
  rw [rename] at h
  obtain hchecked | ⟨path, hchecked, h⟩ := error_of_bind h
  · exact absurd hchecked checked_ne_isDirectory
  cases checked_eq_ok hchecked
  obtain hchecked' | ⟨path', -, h⟩ := error_of_bind h
  · exact absurd hchecked' checked_ne_isDirectory
  obtain horigin | ⟨origin, horigin, -⟩ := error_of_bind h
  · exact absurd horigin destinationOf_ne_isDirectory
  obtain ⟨location, hopens, -⟩ := (destinationOf_join hname).mp horigin
  exact ⟨location, hopens⟩

theorem rename_of_file {location : Location} {contents : ByteArray} (hname : IsEntryName name)
    (hname' : IsEntryName name') (hne : name ≠ name') (hopens : v.Opens directory location)
    (husable : IsUsable directory name) (husable' : IsUsable directory name')
    (hfile : v.entry? (location ++ [name]) = some (.file contents))
    (hfree : v.isDirectoryAt (location ++ [name']) = false) :
    v.rename (Path.join directory name) (Path.join directory name') =
      .ok (v.move (location ++ [name]) (location ++ [name'])) := by
  have horigin := (destinationOf_join hname).mpr ⟨location, hopens, husable.2, rfl⟩
  have hplace := (destinationOf_join hname').mpr ⟨location, hopens, husable'.2, rfl⟩
  have hbelow : ∀ name name', isBelow (location ++ [name]) (location ++ [name']) = false := by
    intro name name'
    simp [isBelow]
  have hdiffer : location ++ [name] ≠ location ++ [name'] := by
    intro heq
    exact hne (by simpa using heq)
  rw [rename, husable.1, husable'.1]
  simp only [bind, Except.bind, horigin, hplace, hfile, hbelow, mayReplace_eq_ok_iff.mpr hfree,
    if_neg hdiffer]
  rfl

end Joined

end Volume

end PlugTaxonomy
