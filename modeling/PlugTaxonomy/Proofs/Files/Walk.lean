import PlugTaxonomy.Proofs.Files.Path
import PlugTaxonomy.Proofs.Outcome

/-!
# Walks to the entries of a directory

Operations on entries of one directory all walk to that directory first.  A walk only sees
directories and links.  So it leads to the same directory as before when files come and go, and
when links on its way vanish it can only fail.

* `Volume.Opens` — the directory that a text leads to;
* `Volume.GroundWithin` — a volume with the directories of another one and no other links;
* `Volume.Opens.ground` — a directory that opens there opens where there are more links;
* `Volume.destination_join`, `Volume.fileLocation_join` — where the path of an entry leads to.
-/

namespace PlugTaxonomy

namespace Volume

variable {v w : Volume}

/-! ### Walks -/

theorem isDirectoryAt_iff {location : Location} :
    v.isDirectoryAt location = true ↔ v.entry? location = some .directory := by
  rw [isDirectoryAt]
  cases v.entry? location with
  | none => simp
  | some entry => cases entry <;> simp

theorem walk_arrived {location found : Location} {names : List String} (links : Nat)
    (h : v.stroll location names = .ok (.arrived found)) :
    v.walk links location names = .ok found := by
  rw [walk, h]
  rfl

theorem walk_link {location directory : Location} {names rest : List String} {target : String}
    (links : Nat) (h : v.stroll location names = .ok (.link directory target rest)) :
    v.walk (links + 1) location names =
      v.walk links (start (.ofText target) directory) ((Path.ofText target).steps ++ rest) := by
  rw [walk, h]
  rfl

/-- A walk that ends has strolled to its end, or to a link from which it goes on. -/
theorem walk_cases {links : Nat} {location found : Location} {names : List String}
    (h : v.walk links location names = .ok found) :
    v.stroll location names = .ok (.arrived found) ∨
      ∃ fewer directory target rest, links = fewer + 1 ∧
        v.stroll location names = .ok (.link directory target rest) ∧
        v.walk fewer (start (.ofText target) directory) ((Path.ofText target).steps ++ rest) =
          .ok found := by
  rw [walk] at h
  obtain ⟨halt, hstroll, h⟩ := ok_of_bind h
  cases halt with
  | arrived location' =>
    cases h
    exact Or.inl hstroll
  | link directory target rest =>
    cases links with
    | zero => cases h
    | succ fewer => exact Or.inr ⟨fewer, directory, target, rest, rfl, hstroll, h⟩

/-- A directory in the way of names is no failure. -/
theorem stroll_ne_isDirectory {location : Location} {names : List String} :
    v.stroll location names ≠ .error .isDirectory := by
  induction names generalizing location with
  | nil => simp [stroll]
  | cons name names ih =>
    rw [stroll]
    split
    · simp
    split
    · exact ih
    split
    · exact ih
    split
    · simp
    split
    · simp
    · simp
    · exact ih

theorem walk_ne_isDirectory {links : Nat} {location : Location} {names : List String} :
    v.walk links location names ≠ .error .isDirectory := by
  induction links generalizing location names with
  | zero =>
    rw [walk]
    intro h
    rcases error_of_bind h with hstroll | ⟨halt, -, h⟩
    · exact stroll_ne_isDirectory hstroll
    · cases halt <;> cases h
  | succ links ih =>
    rw [walk]
    intro h
    rcases error_of_bind h with hstroll | ⟨halt, -, h⟩
    · exact stroll_ne_isDirectory hstroll
    · cases halt with
      | arrived location => cases h
      | link directory target rest => exact ih h

/-! ### Ground -/

/-- A volume has the directories of another one, and no links but those of the other one. -/
structure GroundWithin (v w : Volume) : Prop where
  current : v.current = w.current
  directory : ∀ location, v.isDirectoryAt location = w.isDirectoryAt location
  link : ∀ location target,
    v.entry? location = some (.link target) → w.entry? location = some (.link target)

theorem GroundWithin.refl (v : Volume) : GroundWithin v v :=
  ⟨rfl, fun _ => rfl, fun _ _ h => h⟩

theorem GroundWithin.trans {u : Volume} (h : GroundWithin u v) (h' : GroundWithin v w) :
    GroundWithin u w where
  current := h.current.trans h'.current
  directory location := (h.directory location).trans (h'.directory location)
  link location target hlink := h'.link location target (h.link location target hlink)

/-- Names lead to the same halt where there are more links, unless they end at a file. -/
theorem GroundWithin.stroll (hground : GroundWithin v w) {location : Location}
    {names : List String} {halt : Halt} (h : v.stroll location names = .ok halt)
    (hend : ∀ found, halt = .arrived found → v.isDirectoryAt found = true) :
    w.stroll location names = .ok halt := by
  induction names generalizing location with
  | nil => exact h
  | cons name names ih =>
    rw [Volume.stroll] at h ⊢
    rw [← hground.directory location]
    by_cases hdirectory : (!v.isDirectoryAt location) = true
    · rw [if_pos hdirectory] at h
      cases h
    rw [if_neg hdirectory] at h ⊢
    by_cases hdot : name = "."
    · rw [if_pos hdot] at h ⊢
      exact ih h
    rw [if_neg hdot] at h ⊢
    by_cases hdots : name = ".."
    · rw [if_pos hdots] at h ⊢
      exact ih h
    rw [if_neg hdots] at h ⊢
    by_cases hlong : maxNameLength < name.utf8ByteSize
    · rw [if_pos hlong] at h
      cases h
    rw [if_neg hlong] at h ⊢
    cases hentry : v.entry? (location ++ [name]) with
    | none =>
      rw [hentry] at h
      cases h
    | some entry =>
      rw [hentry] at h
      cases entry with
      | link target =>
        rw [hground.link _ _ hentry]
        exact h
      | directory =>
        have hdirectory' := hground.directory (location ++ [name])
        rw [isDirectoryAt_iff.mpr hentry, eq_comm, isDirectoryAt_iff] at hdirectory'
        rw [hdirectory']
        exact ih h
      | file contents =>
        -- A file is no place to go on from, and no directory to end at.
        have hfile : ¬v.isDirectoryAt (location ++ [name]) = true := by
          rw [isDirectoryAt_iff, hentry]
          simp
        cases names with
        | nil =>
          cases h
          exact absurd (hend _ rfl) hfile
        | cons name' names =>
          change v.stroll (location ++ [name]) (name' :: names) = .ok halt at h
          rw [Volume.stroll, if_pos (by simpa using hfile)] at h
          cases h

theorem GroundWithin.walk (hground : GroundWithin v w) {links : Nat} {location found : Location}
    {names : List String} (h : v.walk links location names = .ok found)
    (hfound : v.isDirectoryAt found = true) : w.walk links location names = .ok found := by
  induction links generalizing location names with
  | zero =>
    rcases walk_cases h with hstroll | ⟨fewer, _, _, _, hlinks, _⟩
    · refine walk_arrived 0 (hground.stroll hstroll ?_)
      rintro _ ⟨⟩
      exact hfound
    · cases hlinks
  | succ links ih =>
    rcases walk_cases h with hstroll | ⟨fewer, directory, target, rest, hlinks, hstroll, hwalk⟩
    · refine walk_arrived _ (hground.stroll hstroll ?_)
      rintro _ ⟨⟩
      exact hfound
    · cases hlinks
      rw [walk_link links (hground.stroll hstroll (by rintro _ ⟨⟩))]
      exact ih hwalk

/-- A text leads to a directory, which is at a location. -/
def Opens (v : Volume) (directory : String) (location : Location) : Prop :=
  v.walk maxLinks (start (.ofText directory) v.current) (Path.ofText directory).names =
      .ok location ∧
    v.isDirectoryAt location = true

theorem Opens.unique {directory : String} {location location' : Location}
    (h : v.Opens directory location) (h' : v.Opens directory location') :
    location = location' := by
  have hwalk := h.1.symm.trans h'.1
  cases hwalk
  rfl

theorem Opens.ground {directory : String} {location : Location}
    (h : v.Opens directory location) (hground : GroundWithin v w) :
    w.Opens directory location := by
  refine ⟨?_, ?_⟩
  · rw [← hground.current]
    exact hground.walk h.1 h.2
  · rw [← hground.directory location]
    exact h.2

/-! ### Entries of a directory -/

section Joined

variable {directory name : String}

theorem checked_eq_ok {text : String} {path : Path} (h : checked text = .ok path) :
    path = .ofText text := by
  rw [checked] at h
  split at h
  · cases h
  · split at h
    · cases h
    · split at h
      · cases h
      · cases h
        rfl

theorem checked_ne_isDirectory {text : String} : checked text ≠ .error .isDirectory := by
  rw [checked]
  split
  · simp
  split
  · simp
  split
  · simp
  · simp

theorem lastStep_eq_ok {location : Location} {slash : Bool} {place : Destination}
    (hname : IsEntryName name) :
    v.lastStep location name slash = .ok place ↔
      v.isDirectoryAt location = true ∧ name.utf8ByteSize ≤ maxNameLength ∧
        place = .named location name slash := by
  rw [lastStep]
  cases hdirectory : v.isDirectoryAt location with
  | false => simp
  | true =>
    rw [if_neg (by simp), if_neg (not_or.mpr ⟨hname.2.1, hname.2.2.1⟩)]
    by_cases hlong : maxNameLength < name.utf8ByteSize
    · simp [if_pos hlong, Nat.not_le.mpr hlong]
    · simp [if_neg hlong, Nat.le_of_not_lt hlong, eq_comm]

/-- The path of an entry leads to its name in the directory that opens. -/
theorem destinationOf_join {place : Destination} (hname : IsEntryName name) :
    v.destinationOf v.current (.ofText (Path.join directory name)) = .ok place ↔
      ∃ location, v.Opens directory location ∧ name.utf8ByteSize ≤ maxNameLength ∧
        place = .named location name false := by
  rw [Path.ofText_join directory hname, destinationOf, List.getLast?_concat]
  simp only [List.dropLast_concat]
  constructor
  · intro h
    obtain ⟨location, hwalk, h⟩ := ok_of_bind h
    obtain ⟨hdirectory, hplace⟩ := (lastStep_eq_ok hname).mp h
    exact ⟨location, ⟨hwalk, hdirectory⟩, hplace⟩
  · rintro ⟨location, ⟨hwalk, hdirectory⟩, hplace⟩
    change (v.walk maxLinks (start (.ofText directory) v.current) (Path.ofText directory).names >>=
      fun location => v.lastStep location name false) = .ok place
    rw [hwalk]
    exact (lastStep_eq_ok hname).mpr ⟨hdirectory, hplace⟩

theorem destinationOf_ne_isDirectory {location : Location} {path : Path} :
    v.destinationOf location path ≠ .error .isDirectory := by
  rw [destinationOf]
  split
  · simp [pure, Except.pure]
  intro h
  rcases error_of_bind h with hwalk | ⟨directory, -, hlast⟩
  · exact walk_ne_isDirectory hwalk
  · rw [lastStep] at hlast
    split at hlast
    · cases hlast
    split at hlast
    · cases hlast
    split at hlast
    · cases hlast
    · cases hlast

theorem destination_eq_ok {text : String} {place : Destination}
    (h : v.destination text = .ok place) :
    checked text = .ok (.ofText text) ∧ v.destinationOf v.current (.ofText text) = .ok place := by
  rw [destination] at h
  obtain ⟨path, hchecked, h⟩ := ok_of_bind h
  cases checked_eq_ok hchecked
  exact ⟨hchecked, h⟩

theorem destination_of_checked {text : String} {place : Destination}
    (hchecked : checked text = .ok (.ofText text))
    (h : v.destinationOf v.current (.ofText text) = .ok place) :
    v.destination text = .ok place := by
  rw [destination, hchecked]
  exact h

/-- Nothing in the text of the path of an entry, and in its name, is too long or not allowed. -/
def IsUsable (directory name : String) : Prop :=
  checked (Path.join directory name) = .ok (.ofText (Path.join directory name)) ∧
    name.utf8ByteSize ≤ maxNameLength

theorem destination_join {place : Destination} (hname : IsEntryName name) :
    v.destination (Path.join directory name) = .ok place ↔
      ∃ location, v.Opens directory location ∧ IsUsable directory name ∧
        place = .named location name false := by
  constructor
  · intro h
    obtain ⟨hchecked, h⟩ := destination_eq_ok h
    obtain ⟨location, hopens, hlength, hplace⟩ := (destinationOf_join hname).mp h
    exact ⟨location, hopens, ⟨hchecked, hlength⟩, hplace⟩
  · rintro ⟨location, hopens, ⟨hchecked, hlength⟩, hplace⟩
    exact destination_of_checked hchecked
      ((destinationOf_join hname).mpr ⟨location, hopens, hlength, hplace⟩)

theorem linkStatus_named {text : String} {location : Location}
    (h : v.destination text = .ok (.named location name false)) :
    v.linkStatus text =
      match v.entry? (location ++ [name]) with
      | some entry => .ok entry
      | none => .error .notFound := by
  rw [linkStatus, h]
  simp only [bind, Except.bind]
  cases v.entry? (location ++ [name]) with
  | none => rfl
  | some entry => rfl

theorem linkStatus_join {entry : Entry} (hname : IsEntryName name) :
    v.linkStatus (Path.join directory name) = .ok entry ↔
      ∃ location, v.Opens directory location ∧ IsUsable directory name ∧
        v.entry? (location ++ [name]) = some entry := by
  constructor
  · intro h
    have hplaced := h
    rw [linkStatus] at hplaced
    obtain ⟨place, hplace, -⟩ := ok_of_bind hplaced
    obtain ⟨location, hopens, husable, rfl⟩ := (destination_join hname).mp hplace
    refine ⟨location, hopens, husable, ?_⟩
    rw [linkStatus_named hplace] at h
    cases hentry : v.entry? (location ++ [name]) with
    | none =>
      rw [hentry] at h
      cases h
    | some found =>
      rw [hentry] at h
      cases h
      rfl
  · rintro ⟨location, hopens, husable, hentry⟩
    rw [linkStatus_named ((destination_join hname).mpr ⟨location, hopens, husable, rfl⟩), hentry]

/-- A file may have a name in a directory only, and the name must not be too long. -/
theorem of_checkFileName {location : Location} {slash : Bool}
    (h : v.checkFileName location name slash = .ok ()) :
    v.isDirectoryAt location = true ∧ name.utf8ByteSize ≤ maxNameLength := by
  rw [checkFileName] at h
  cases hdirectory : v.isDirectoryAt location with
  | false =>
    rw [hdirectory] at h
    cases h
  | true =>
    rw [hdirectory, if_neg (by decide)] at h
    split at h
    · cases h
    split at h
    · cases h
    · rename_i hlong
      exact ⟨rfl, Nat.le_of_not_lt hlong⟩

/-- The search for the place of a file has strolled to its directory, or to a link from which it
goes on.  In the directory the file takes the place of a file or of nothing, unless there is a
link, which may lead elsewhere. -/
theorem fileLocation_cases {links : Nat} {current found : Location} {path : Path}
    {names : List String} (hnames : path.names = names ++ [name]) (hslash : path.slash = false)
    (h : v.fileLocation links current path = .ok found) :
    (∃ location, v.stroll (start path current) names = .ok (.arrived location) ∧
      v.isDirectoryAt location = true ∧ name.utf8ByteSize ≤ maxNameLength ∧
      ((∃ target, v.entry? (location ++ [name]) = some (.link target)) ∨
        found = location ++ [name] ∧ v.isDirectoryAt found = false)) ∨
    ∃ fewer directory target rest, links = fewer + 1 ∧
      v.stroll (start path current) names = .ok (.link directory target rest) ∧
      v.fileLocation fewer directory ((Path.ofText target).continued (rest ++ [name]) false) =
        .ok found := by
  rw [fileLocation, hnames, hslash] at h
  simp only [List.getLast?_concat, List.dropLast_concat] at h
  obtain ⟨halt, hstroll, h⟩ := ok_of_bind h
  cases halt with
  | link directory target rest =>
    cases links with
    | zero => cases h
    | succ fewer => exact Or.inr ⟨fewer, directory, target, rest, rfl, hstroll, h⟩
  | arrived location =>
    obtain ⟨_, hcheck, h⟩ := ok_of_bind h
    obtain ⟨hdirectory, hshort⟩ := of_checkFileName hcheck
    refine Or.inl ⟨location, hstroll, hdirectory, hshort, ?_⟩
    cases hentry : v.entry? (location ++ [name]) with
    | none =>
      simp only [hentry] at h
      cases h
      exact Or.inr ⟨rfl, by rw [isDirectoryAt, hentry]⟩
    | some entry =>
      simp only [hentry] at h
      cases entry with
      | file contents =>
        cases h
        exact Or.inr ⟨rfl, by rw [isDirectoryAt, hentry]⟩
      | directory => cases h
      | link target => exact Or.inl ⟨target, rfl⟩

/-- A file is written right in the directory that a walk leads to, unless there is a link. -/
theorem fileLocation_named {links : Nat} {current found : Location} {path : Path}
    {names : List String} (hnames : path.names = names ++ [name]) (hslash : path.slash = false)
    (h : v.fileLocation links current path = .ok found) :
    ∃ location, v.walk links (start path current) names = .ok location ∧
      v.isDirectoryAt location = true ∧ name.utf8ByteSize ≤ maxNameLength ∧
      ((∃ target, v.entry? (location ++ [name]) = some (.link target)) ∨
        found = location ++ [name] ∧ v.isDirectoryAt found = false) := by
  induction links generalizing current path names with
  | zero =>
    rcases fileLocation_cases hnames hslash h with ⟨location, hstroll, hfound⟩ |
      ⟨_, _, _, _, hlinks, _⟩
    · exact ⟨location, walk_arrived 0 hstroll, hfound⟩
    · cases hlinks
  | succ links ih =>
    rcases fileLocation_cases hnames hslash h with ⟨location, hstroll, hfound⟩ |
      ⟨fewer, directory, target, rest, hlinks, hstroll, hrest⟩
    · exact ⟨location, walk_arrived _ hstroll, hfound⟩
    · cases hlinks
      rw [walk_link links hstroll]
      have hnames' : ((Path.ofText target).continued (rest ++ [name]) false).names =
          ((Path.ofText target).steps ++ rest) ++ [name] :=
        (List.append_assoc _ _ _).symm
      obtain ⟨location, hwalk, hfound⟩ := ih hnames' rfl hrest
      exact ⟨location, hwalk, hfound⟩

theorem fileLocation_join {found : Location} (hname : IsEntryName name)
    (h : v.fileLocation maxLinks v.current (.ofText (Path.join directory name)) = .ok found) :
    ∃ location, v.Opens directory location ∧ name.utf8ByteSize ≤ maxNameLength ∧
      ((∃ target, v.entry? (location ++ [name]) = some (.link target)) ∨
        found = location ++ [name] ∧ v.isDirectoryAt found = false) := by
  rw [Path.ofText_join directory hname] at h
  obtain ⟨location, hwalk, hdirectory, hfound⟩ := fileLocation_named rfl rfl h
  exact ⟨location, ⟨hwalk, hdirectory⟩, hfound⟩

/-- A file that is not there yet is written in the directory that a walk leads to. -/
theorem fileLocation_of_walk {links : Nat} {current location : Location} {path : Path}
    {names : List String} (hnames : path.names = names ++ [name]) (hslash : path.slash = false)
    (hname : IsEntryName name) (hshort : name.utf8ByteSize ≤ maxNameLength)
    (hwalk : v.walk links (start path current) names = .ok location)
    (hdirectory : v.isDirectoryAt location = true) (hfree : v.entry? (location ++ [name]) = none) :
    v.fileLocation links current path = .ok (location ++ [name]) := by
  have hcheck : v.checkFileName location name false = .ok () := by
    have hlast : ¬(false = true ∨ name = "." ∨ name = "..") := by
      simp [hname.2.1, hname.2.2.1]
    rw [checkFileName, hdirectory, if_neg (by decide), if_neg hlast,
      if_neg (Nat.not_lt.mpr hshort)]
  induction links generalizing current path names with
  | zero =>
    rcases walk_cases hwalk with hstroll | ⟨fewer, _, _, _, hlinks, _⟩
    · rw [fileLocation, hnames, hslash]
      simp only [List.getLast?_concat, List.dropLast_concat, hstroll, hcheck, hfree, bind,
        Except.bind, pure, Except.pure]
    · cases hlinks
  | succ links ih =>
    rcases walk_cases hwalk with hstroll | ⟨fewer, directory, target, rest, hlinks, hstroll, hrest⟩
    · rw [fileLocation, hnames, hslash]
      simp only [List.getLast?_concat, List.dropLast_concat, hstroll, hcheck, hfree, bind,
        Except.bind, pure, Except.pure]
    · cases hlinks
      have hnames' : ((Path.ofText target).continued (rest ++ [name]) false).names =
          ((Path.ofText target).steps ++ rest) ++ [name] :=
        (List.append_assoc _ _ _).symm
      have hgoes := ih hnames' rfl hrest
      rw [fileLocation, hnames, hslash]
      simp only [List.getLast?_concat, List.dropLast_concat, hstroll, bind, Except.bind]
      exact hgoes

end Joined

end Volume

end PlugTaxonomy
