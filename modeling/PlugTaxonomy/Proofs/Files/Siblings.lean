import PlugTaxonomy.Proofs.Files.Faults

/-!
# A file and its hidden siblings

A file that is being written has a target, and a temporary file and a backup beside it.  Each step
of output changes these three entries of one file.

* `Siblings`, `Volume.siblings` — the entries of a file in a directory;
* `Sibling`, `Siblings.get`, `Siblings.set` — one of the three, so that a step is stated once for
  whichever it changes;
* `Volume.Stands` — a volume on the ground of another one, where the directory still is;
* `Volume.Turned` — a step changed the siblings of one file and nothing elsewhere;
* `Volume.Stands.turned_writeFile`, `turned_removeFile`, `turned_rename` — what the operations do
  to the siblings.
-/

namespace PlugTaxonomy

open Transaction (hiddenName hidden staged isEntryName_hiddenName toList_hiddenName)

/-! ### Names -/

theorem hiddenName_ne (name extension : String) : hiddenName name extension ≠ name := by
  intro heq
  have hlength := congrArg (fun text => text.toList.length) heq
  simp only [toList_hiddenName, List.length_cons, List.length_append] at hlength
  omega

theorem hiddenName_tmp_ne_bak (name : String) : hiddenName name "tmp" ≠ hiddenName name "bak" := by
  intro heq
  have htext := congrArg String.toList heq
  simp [toList_hiddenName] at htext

/-- The names of a file and of its hidden siblings. -/
def siblingNames (name : String) : List String :=
  [hiddenName name "tmp", hiddenName name "bak", name]

theorem isEntryName_of_mem_siblingNames {name sibling : String} (hname : IsEntryName name)
    (hsibling : sibling ∈ siblingNames name) : IsEntryName sibling := by
  simp only [siblingNames, List.mem_cons, List.not_mem_nil, or_false] at hsibling
  rcases hsibling with rfl | rfl | rfl
  · exact isEntryName_hiddenName hname (by decide)
  · exact isEntryName_hiddenName hname (by decide)
  · exact hname

/-- One of a file and its hidden siblings. -/
inductive Sibling where
  | temporary
  | backup
  | target
deriving DecidableEq

namespace Sibling

/-- What a sibling of a file is called. -/
def nameOf : Sibling → String → String
  | .temporary, name => hiddenName name "tmp"
  | .backup, name => hiddenName name "bak"
  | .target, name => name

variable (sibling : Sibling) {name : String}

theorem nameOf_mem_siblingNames : sibling.nameOf name ∈ siblingNames name := by
  cases sibling <;> simp [nameOf, siblingNames]

theorem exists_of_mem_siblingNames {text : String} (h : text ∈ siblingNames name) :
    ∃ sibling : Sibling, text = sibling.nameOf name := by
  simp only [siblingNames, List.mem_cons, List.not_mem_nil, or_false] at h
  rcases h with rfl | rfl | rfl
  · exact ⟨.temporary, rfl⟩
  · exact ⟨.backup, rfl⟩
  · exact ⟨.target, rfl⟩

theorem isEntryName_nameOf (hname : IsEntryName name) : IsEntryName (sibling.nameOf name) :=
  isEntryName_of_mem_siblingNames hname sibling.nameOf_mem_siblingNames

/-- Different siblings have different names. -/
theorem nameOf_inj {sibling other : Sibling} :
    sibling.nameOf name = other.nameOf name ↔ sibling = other := by
  refine ⟨fun heq => ?_, fun heq => heq ▸ rfl⟩
  cases sibling <;> cases other <;>
    first
    | rfl
    | simp [nameOf, hiddenName_ne, (hiddenName_ne name _).symm, hiddenName_tmp_ne_bak,
        (hiddenName_tmp_ne_bak name).symm] at heq

end Sibling

/-- The entries of a file and of its hidden siblings. -/
@[ext]
structure Siblings where
  temporary : Option Entry
  backup : Option Entry
  target : Option Entry

namespace Siblings

/-- The entry of one sibling. -/
def get (siblings : Siblings) : Sibling → Option Entry
  | .temporary => siblings.temporary
  | .backup => siblings.backup
  | .target => siblings.target

/-- The siblings after the entry of one has changed. -/
def set (siblings : Siblings) (sibling : Sibling) (entry : Option Entry) : Siblings :=
  match sibling with
  | .temporary => { siblings with temporary := entry }
  | .backup => { siblings with backup := entry }
  | .target => { siblings with target := entry }

theorem get_set (siblings : Siblings) (sibling other : Sibling) (entry : Option Entry) :
    (siblings.set sibling entry).get other =
      if other = sibling then entry else siblings.get other := by
  cases sibling <;> cases other <;> rfl

theorem ext_get {siblings siblings' : Siblings}
    (h : ∀ sibling, siblings.get sibling = siblings'.get sibling) : siblings = siblings' :=
  Siblings.ext (h .temporary) (h .backup) (h .target)

end Siblings

/-- Links that were there are there still. -/
structure Siblings.LinksKept (old new : Siblings) : Prop where
  temporary : ∀ link, old.temporary = some (.link link) → new.temporary = some (.link link)
  backup : ∀ link, old.backup = some (.link link) → new.backup = some (.link link)
  target : ∀ link, old.target = some (.link link) → new.target = some (.link link)

theorem Siblings.linksKept_iff {old new : Siblings} :
    old.LinksKept new ↔ ∀ sibling link,
      old.get sibling = some (.link link) → new.get sibling = some (.link link) := by
  refine ⟨fun h sibling => ?_, fun h => ⟨h .temporary, h .backup, h .target⟩⟩
  cases sibling with
  | temporary => exact h.temporary
  | backup => exact h.backup
  | target => exact h.target

namespace Volume

variable {base u v w : Volume} {directory : String} {place : Location} {name : String}

/-- The entries of a file in a directory. -/
def siblings (v : Volume) (place : Location) (name : String) : Siblings where
  temporary := v.entry? (place ++ [hiddenName name "tmp"])
  backup := v.entry? (place ++ [hiddenName name "bak"])
  target := v.entry? (place ++ [name])

theorem get_siblings (sibling : Sibling) :
    (v.siblings place name).get sibling = v.entry? (place ++ [sibling.nameOf name]) := by
  cases sibling <;> rfl

/-! ### The ground of a transaction -/

/-- A volume is a tree on the ground of another one. -/
structure Stands (base v : Volume) : Prop where
  isTree : v.IsTree
  ground : GroundWithin v base

theorem Stands.edited (h : Stands base v) (hedited : Edited v w) : Stands base w :=
  ⟨hedited.isTree h.isTree, hedited.ground.trans h.ground⟩

/-- Where the directory opens, it is the one that opens on the ground. -/
theorem Stands.place_eq (h : Stands base v) (hopens : base.Opens directory place)
    {location : Location} (hlocation : v.Opens directory location) : location = place :=
  (hlocation.ground h.ground).unique hopens

theorem Stands.isDirectoryAt (h : Stands base v) (hopens : base.Opens directory place) :
    v.isDirectoryAt place = true := by
  rw [h.ground.directory place]
  exact hopens.2

/-! ### Steps -/

/-- One volume comes from another by edits of the siblings of one file. -/
structure Turned (place : Location) (name : String) (v w : Volume) (turned : Siblings) : Prop where
  edited : Edited v w
  siblings : w.siblings place name = turned
  elsewhere : ∀ location, (∀ sibling ∈ siblingNames name, location ≠ place ++ [sibling]) →
    w.entry? location = v.entry? location

theorem Turned.refl (place : Location) (name : String) (v : Volume) :
    Turned place name v v (v.siblings place name) :=
  ⟨.refl v, rfl, fun _ _ => rfl⟩

theorem Turned.trans {turned turned' : Siblings} (h : Turned place name u v turned)
    (h' : Turned place name v w turned') : Turned place name u w turned' where
  edited := h.edited.trans h'.edited
  siblings := h'.siblings
  elsewhere location hlocation :=
    (h'.elsewhere location hlocation).trans (h.elsewhere location hlocation)

theorem entry?_of_linksKept (h : (v.siblings place name).LinksKept (w.siblings place name))
    {sibling : String} (hsibling : sibling ∈ siblingNames name) {link : String}
    (hlink : v.entry? (place ++ [sibling]) = some (.link link)) :
    w.entry? (place ++ [sibling]) = some (.link link) := by
  obtain ⟨sibling, rfl⟩ := Sibling.exists_of_mem_siblingNames hsibling
  rw [← get_siblings] at hlink ⊢
  exact Siblings.linksKept_iff.mp h sibling link hlink

/-- Where the links among some siblings are kept, and all else is as it was, no link is gone. -/
theorem groundWithin_of_linksKept {names : List String} (hground : GroundWithin w v)
    (hkept : ∀ name ∈ names, (v.siblings place name).LinksKept (w.siblings place name))
    (helsewhere : ∀ location,
      (∀ name ∈ names, ∀ sibling ∈ siblingNames name, location ≠ place ++ [sibling]) →
        w.entry? location = v.entry? location) : GroundWithin v w where
  current := hground.current.symm
  directory location := (hground.directory location).symm
  link location link hlink := by
    by_cases hlocation :
        ∃ name ∈ names, ∃ sibling ∈ siblingNames name, location = place ++ [sibling]
    · obtain ⟨name, hname, sibling, hsibling, rfl⟩ := hlocation
      exact entry?_of_linksKept (hkept name hname) hsibling hlink
    · rw [helsewhere location fun name hname sibling hsibling heq =>
        hlocation ⟨name, hname, sibling, hsibling, heq⟩]
      exact hlink

/-- Where links are kept, the directory still opens after a step. -/
theorem Turned.opens {turned : Siblings} (h : Turned place name v w turned)
    (hkept : (v.siblings place name).LinksKept turned) {location : Location}
    (hopens : v.Opens directory location) : w.Opens directory location := by
  have hnames : ∀ other ∈ [name], (v.siblings place other).LinksKept (w.siblings place other) := by
    intro other hother
    cases List.mem_singleton.mp hother
    exact h.siblings ▸ hkept
  exact hopens.ground (groundWithin_of_linksKept h.edited.ground hnames fun location hlocation =>
    h.elsewhere location (hlocation name (List.mem_singleton_self name)))

/-- A step that changes one sibling. -/
theorem turned_set (sibling : Sibling) {entry : Option Entry} (hedited : Edited v w)
    (hentries : ∀ location, w.entry? location =
      if location = place ++ [sibling.nameOf name] then entry else v.entry? location) :
    Turned place name v w ((v.siblings place name).set sibling entry) where
  edited := hedited
  siblings := Siblings.ext_get fun other => by
    rw [get_siblings, hentries, Siblings.get_set, get_siblings]
    simp only [List.append_cancel_left_eq, List.cons.injEq, and_true, Sibling.nameOf_inj]
  elsewhere location hlocation := by
    rw [hentries, if_neg (hlocation _ sibling.nameOf_mem_siblingNames)]

theorem turned_put (sibling : Sibling) (contents : ByteArray)
    (hdirectory : v.isDirectoryAt place = true)
    (hfree : v.isDirectoryAt (place ++ [sibling.nameOf name]) = false) :
    Turned place name v (v.put (place ++ [sibling.nameOf name]) (.file contents))
      ((v.siblings place name).set sibling (some (.file contents))) :=
  turned_set sibling (edited_put contents hdirectory hfree) fun _ => entry?_put (by simp)

theorem turned_erase (sibling : Sibling)
    (hfree : v.isDirectoryAt (place ++ [sibling.nameOf name]) = false) :
    Turned place name v (v.erase (place ++ [sibling.nameOf name]))
      ((v.siblings place name).set sibling none) :=
  turned_set sibling (edited_erase hfree) fun _ => entry?_erase (by simp)

section Move

variable {contents : ByteArray} (htree : v.IsTree) (hdirectory : v.isDirectoryAt place = true)

include htree hdirectory

/-- A file moves from one of two names to the other, and all else stays where it was. -/
theorem entry?_move_join {source target : String} (hne : source ≠ target)
    (hsource : v.entry? (place ++ [source]) = some (.file contents))
    (hfree : v.isDirectoryAt (place ++ [target]) = false) :
    Edited v (v.move (place ++ [source]) (place ++ [target])) ∧
      ∀ location, Volume.entry? (v.move (place ++ [source]) (place ++ [target])) location =
        if location = place ++ [target] then some (.file contents)
        else if location = place ++ [source] then none
        else v.entry? location := by
  have hdiffer : place ++ [source] ≠ place ++ [target] := by
    intro heq
    exact hne (by simpa using heq)
  have hfile : v.isDirectoryAt (place ++ [source]) = false := by rw [isDirectoryAt, hsource]
  refine ⟨edited_move htree hsource hdiffer hdirectory hfree, fun location => ?_⟩
  rw [entry?_move htree hfile (by simp) hdiffer, hsource]

/-- A file moves from one sibling to another. -/
theorem turned_move {moved reached : Sibling} (hne : moved ≠ reached)
    (hmoved : (v.siblings place name).get moved = some (.file contents))
    (hfree : v.isDirectoryAt (place ++ [reached.nameOf name]) = false) :
    Turned place name v
      (v.move (place ++ [moved.nameOf name]) (place ++ [reached.nameOf name]))
      (((v.siblings place name).set moved none).set reached (some (.file contents))) := by
  rw [get_siblings] at hmoved
  obtain ⟨hedited, hentries⟩ :=
    entry?_move_join htree hdirectory (mt Sibling.nameOf_inj.mp hne) hmoved hfree
  refine ⟨hedited, Siblings.ext_get fun other => ?_, fun location hlocation => ?_⟩
  · rw [get_siblings, hentries, Siblings.get_set, Siblings.get_set, get_siblings]
    simp only [List.append_cancel_left_eq, List.cons.injEq, and_true, Sibling.nameOf_inj]
  · rw [hentries, if_neg (hlocation _ reached.nameOf_mem_siblingNames),
      if_neg (hlocation _ moved.nameOf_mem_siblingNames)]

end Move

/-! ### Operations on siblings -/

/-- Whether a path names a regular file, links not followed. -/
def isRegular (v : Volume) (path : String) : Bool :=
  match v.linkStatus path with
  | .ok (.file _) => true
  | _ => false

/-- A sibling that is a file can be removed, where its directory opens. -/
theorem removed_of_file (sibling : Sibling) {contents : ByteArray} (hname : IsEntryName name)
    (hopen : v.Opens directory place) (husable : IsUsable directory (sibling.nameOf name))
    (hfile : (v.siblings place name).get sibling = some (.file contents)) :
    ∃ w, disk.removeFile (Path.join directory (sibling.nameOf name)) v = (.ok (), w) ∧
      Turned place name v w ((v.siblings place name).set sibling none) := by
  rw [get_siblings] at hfile
  have hremove :=
    removeFile_of_file (sibling.isEntryName_nameOf hname) hopen husable hfile
  have hfree : v.isDirectoryAt (place ++ [sibling.nameOf name]) = false := by
    rw [isDirectoryAt, hfile]
  refine ⟨_, ?_, turned_erase sibling hfree⟩
  show change (fun v => v.removeFile (Path.join directory (sibling.nameOf name))) v = _
  rw [change, hremove]

section Moves

variable (moved reached : Sibling) (hname : IsEntryName name) (hne : moved ≠ reached)

include hname hne

theorem usable_of_rename
    (hrename : v.rename (Path.join directory (moved.nameOf name))
      (Path.join directory (reached.nameOf name)) = .ok w) :
    IsUsable directory (moved.nameOf name) ∧ IsUsable directory (reached.nameOf name) := by
  obtain ⟨_, -, hmoved, hreached, -⟩ :=
    rename_join (moved.isEntryName_nameOf hname) (reached.isEntryName_nameOf hname)
      (mt Sibling.nameOf_inj.mp hne) hrename
  exact ⟨hmoved, hreached⟩

/-- A sibling that is a file can be moved to another one where no directory is. -/
theorem rename_sibling_of_file {contents : ByteArray} (hopen : v.Opens directory place)
    (husable : IsUsable directory (moved.nameOf name))
    (husable' : IsUsable directory (reached.nameOf name))
    (hmoved : (v.siblings place name).get moved = some (.file contents))
    (hfree : v.isDirectoryAt (place ++ [reached.nameOf name]) = false) :
    v.rename (Path.join directory (moved.nameOf name)) (Path.join directory (reached.nameOf name)) =
      .ok (v.move (place ++ [moved.nameOf name]) (place ++ [reached.nameOf name])) := by
  rw [get_siblings] at hmoved
  exact rename_of_file (moved.isEntryName_nameOf hname) (reached.isEntryName_nameOf hname)
    (mt Sibling.nameOf_inj.mp hne) hopen husable husable' hmoved hfree

end Moves

section Operations

variable {contents : ByteArray} (h : Stands base v) (hopens : base.Opens directory place)
  (hname : IsEntryName name)

include h hopens hname

theorem Stands.turned_writeFile (sibling : Sibling)
    (hplain : ∀ link, (v.siblings place name).get sibling ≠ some (.link link))
    (hwrite : v.writeFile (Path.join directory (sibling.nameOf name)) contents = .ok w) :
    Turned place name v w ((v.siblings place name).set sibling (some (.file contents))) := by
  obtain ⟨location, hlocation, -, hlink | ⟨hfree, rfl⟩⟩ :=
    writeFile_join (sibling.isEntryName_nameOf hname) hwrite
  · obtain ⟨link, hlink⟩ := hlink
    cases h.place_eq hopens hlocation
    exact absurd ((get_siblings sibling).trans hlink) (hplain link)
  · cases h.place_eq hopens hlocation
    exact turned_put sibling contents (h.isDirectoryAt hopens) hfree

theorem Stands.turned_removeFile (sibling : Sibling)
    (hremove : v.removeFile (Path.join directory (sibling.nameOf name)) = .ok w) :
    Turned place name v w ((v.siblings place name).set sibling none) := by
  obtain ⟨location, hlocation, hfree, rfl⟩ :=
    removeFile_join (sibling.isEntryName_nameOf hname) hremove
  cases h.place_eq hopens hlocation
  exact turned_erase sibling hfree

section Rename

variable (moved reached : Sibling) (hne : moved ≠ reached)
  (hmoved : (v.siblings place name).get moved = some (.file contents))
  (hrename : v.rename (Path.join directory (moved.nameOf name))
    (Path.join directory (reached.nameOf name)) = .ok w)

include hne hmoved hrename

theorem Stands.turned_rename :
    Turned place name v w
      (((v.siblings place name).set moved none).set reached (some (.file contents))) := by
  obtain ⟨location, hlocation, -, -, hfree, rfl⟩ :=
    rename_join (moved.isEntryName_nameOf hname) (reached.isEntryName_nameOf hname)
      (mt Sibling.nameOf_inj.mp hne) hrename
  cases h.place_eq hopens hlocation
  exact turned_move h.isTree (h.isDirectoryAt hopens) hne hmoved
    (hfree _ ((get_siblings moved).symm.trans hmoved))

/-- A file has moved to where no directory was, and what was there could be looked at. -/
theorem Stands.linkStatus_of_rename :
    (v.siblings place name).get reached ≠ some .directory ∧
      ∀ entry, (v.siblings place name).get reached = some entry →
        v.linkStatus (Path.join directory (reached.nameOf name)) = .ok entry := by
  have hreached := reached.isEntryName_nameOf hname
  obtain ⟨location, hlocation, -, husable, hfree, -⟩ :=
    rename_join (moved.isEntryName_nameOf hname) hreached (mt Sibling.nameOf_inj.mp hne) hrename
  cases h.place_eq hopens hlocation
  rw [get_siblings] at hmoved ⊢
  refine ⟨fun hdirectory => ?_, fun entry hentry => ?_⟩
  · have hplace := hfree _ hmoved
    rw [isDirectoryAt_iff.mpr hdirectory] at hplace
    cases hplace
  · exact (linkStatus_join hreached).mpr ⟨place, hlocation, husable, hentry⟩

end Rename

theorem Stands.target_of_linkStatus {entry : Entry}
    (hstatus : v.linkStatus (Path.join directory name) = .ok entry) :
    (v.siblings place name).target = some entry := by
  obtain ⟨location, hlocation, -, hentry⟩ := (linkStatus_join hname).mp hstatus
  cases h.place_eq hopens hlocation
  exact hentry

/-- What is at a target that is taken for a regular file. -/
theorem Stands.target_of_isRegular (hregular : v.isRegular (Path.join directory name) = true) :
    ∃ contents, (v.siblings place name).target = some (.file contents) := by
  rw [isRegular] at hregular
  cases hstatus : v.linkStatus (Path.join directory name) with
  | error error =>
    rw [hstatus] at hregular
    cases hregular
  | ok entry =>
    rw [hstatus] at hregular
    cases entry with
    | file contents => exact ⟨contents, h.target_of_linkStatus hopens hname hstatus⟩
    | directory => cases hregular
    | link target => cases hregular

end Operations

end Volume

end PlugTaxonomy
