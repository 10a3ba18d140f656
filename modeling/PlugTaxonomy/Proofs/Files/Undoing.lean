import Mathlib.Data.List.Nodup
import Mathlib.Data.List.Pairwise
import PlugTaxonomy.Proofs.Files.Steps

/-!
# What a failed transaction leaves

Between two operations of a transaction every file is in some state, and all else is as it was.
Each loop of the transaction takes the files from state to state, one after the other, and a failure
takes those in their places back.

* `Midway` — every file is in its state, and all else is as it was;
* `midway_takenBack`, `midway_placed`, `midway_notPlaced` — steps of the loops;
* `midway_stage`, `midway_discard`, `midway_rollBack`, `midway_commit` — the loops;
* `writeAll_error` — what the volume is like when output has failed.
-/

namespace PlugTaxonomy

namespace Transaction

/-! ### Between two operations -/

/-- Every file is in a state, and all else is as it was. -/
structure Midway (base : Volume) (place : Location) (names : List String)
    (holds : String → Siblings → Prop) (v : Volume) : Prop where
  stands : Volume.Stands base v
  each : ∀ name ∈ names, holds name (v.siblings place name)
  elsewhere : ∀ location,
    (∀ name ∈ names, ∀ sibling ∈ siblingNames name, location ≠ place ++ [sibling]) →
      v.entry? location = base.entry? location

/-- No two names of files and of their siblings are the same. -/
def Apart (names : List String) : Prop :=
  (names.flatMap siblingNames).Nodup

theorem mem_siblingNames_self (name : String) : name ∈ siblingNames name := by
  simp [siblingNames]

theorem Apart.nodup {names : List String} (h : Apart names) : names.Nodup := by
  refine (List.nodup_flatMap.mp h).2.imp ?_
  rintro name _ hdisjoint rfl
  exact hdisjoint (mem_siblingNames_self name) (mem_siblingNames_self name)

/-- The next file is none of those in front of it. -/
theorem Apart.fresh {names front back : List String} {name : String} (h : Apart names)
    (hnames : names = front ++ name :: back) : name ∉ front :=
  fun hmem =>
    (List.nodup_append.mp (hnames ▸ h.nodup)).2.2 name hmem name List.mem_cons_self rfl

section Placed

variable {names rest : List String} {name : String} {done : List (String × Bool)}

theorem mem_of_placed (hnames : names = (done.map (·.1)).reverse ++ rest) (file : String × Bool)
    (hfile : file ∈ done) : file.1 ∈ names := by
  rw [hnames]
  exact List.mem_append_left _ (List.mem_reverse.mpr (List.mem_map_of_mem hfile))

theorem Apart.nodup_placed (h : Apart names)
    (hnames : names = (done.map (·.1)).reverse ++ rest) : (done.map (·.1)).Nodup :=
  List.nodup_reverse.mp (List.nodup_append.mp (hnames ▸ h.nodup)).1

theorem Apart.fresh_placed (h : Apart names)
    (hnames : names = (done.map (·.1)).reverse ++ name :: rest) (hasBackup : Bool) :
    (name, hasBackup) ∉ done :=
  fun hmem => h.fresh hnames (List.mem_reverse.mpr (List.mem_map_of_mem hmem))

end Placed

theorem Apart.disjoint {names : List String} {name other : String} (h : Apart names)
    (hname : name ∈ names) (hother : other ∈ names) (hne : other ≠ name) :
    (siblingNames other).Disjoint (siblingNames name) := by
  have hsymm : Std.Symm (Function.onFun List.Disjoint siblingNames) :=
    ⟨fun _ _ hdisjoint _ hother hname => hdisjoint hname hother⟩
  exact (List.nodup_flatMap.mp h).2.forall hother hname hne

/-- The states of files while temporary files are written. -/
def Staging (base : Volume) (place : Location) (done : List String) (name : String)
    (siblings : Siblings) : Prop :=
  (name ∈ done → (base.siblings place name).Staged siblings) ∧
    (name ∉ done → siblings = base.siblings place name)

/-- The states of files when a temporary file could not be written: its target and backup are as
they were, and if it was not there and the write has not got to it, it is not there now. -/
def Unwritten (base : Volume) (place : Location) (done : List String) (name : String) (whole : Prop)
    (other : String) (siblings : Siblings) : Prop :=
  siblings.target = (base.siblings place other).target ∧
  siblings.backup = (base.siblings place other).backup ∧
  (other ∉ done → (other = name → whole) → (base.siblings place other).temporary = none →
    siblings.temporary = none)

theorem Staging.unwritten {base : Volume} {place : Location} {done : List String}
    {name other : String} {whole : Prop} {siblings : Siblings}
    (h : Staging base place done other siblings) :
    Unwritten base place done name whole other siblings := by
  by_cases hmem : other ∈ done
  · obtain ⟨_, rfl⟩ := h.1 hmem
    exact ⟨rfl, rfl, fun hnot => absurd hmem hnot⟩
  · rw [h.2 hmem]
    exact ⟨rfl, rfl, fun _ _ hnone => hnone⟩

/-- The states of files while temporary files are moved to their targets. -/
def Committing (base : Volume) (place : Location) (done : List (String × Bool)) (rest : List String)
    (name : String) (siblings : Siblings) : Prop :=
  (∀ hasBackup, (name, hasBackup) ∈ done →
    (base.siblings place name).Committed siblings hasBackup) ∧
  (name ∈ rest → (base.siblings place name).Staged siblings)

/-- The states of files when one of them could not be moved: those that are not in their places
have their old targets, no backups that they had not before, and no links for temporary files. -/
def Failing (base : Volume) (place : Location) (done : List (String × Bool)) (name : String)
    (siblings : Siblings) : Prop :=
  (∀ hasBackup, (name, hasBackup) ∈ done →
    (base.siblings place name).Committed siblings hasBackup) ∧
  (name ∉ done.map (·.1) → siblings.target = (base.siblings place name).target ∧
    ((base.siblings place name).backup = none → siblings.backup = none) ∧
    ∀ link, siblings.temporary ≠ some (.link link))

theorem Failing.discarded {base : Volume} {place : Location} {done : List (String × Bool)}
    {name : String} {siblings : Siblings} (h : Failing base place done name siblings) :
    Failing base place done name { siblings with temporary := none } :=
  ⟨fun hasBackup hmem => (h.1 hasBackup hmem).discarded,
    fun hnot => ⟨(h.2 hnot).1, (h.2 hnot).2.1, fun _ hlink => nomatch hlink⟩⟩

theorem Failing.ne_link {base : Volume} {place : Location} {done : List (String × Bool)}
    {name : String} {siblings : Siblings} (h : Failing base place done name siblings)
    (link : String) : siblings.temporary ≠ some (.link link) := by
  by_cases hmem : name ∈ done.map (·.1)
  · obtain ⟨⟨_, hasBackup⟩, hfile, rfl⟩ := List.mem_map.mp hmem
    rw [(h.1 hasBackup hfile).temporary]
    exact fun hlink => nomatch hlink
  · exact (h.2 hmem).2.2 link

/-- The states of files while those in their places are taken back, by the states of those that are
back. -/
def Returning (base : Volume) (place : Location) (holds : String → Siblings → Prop)
    (done : List (String × Bool)) (name : String) (siblings : Siblings) : Prop :=
  (∀ hasBackup, (name, hasBackup) ∈ done →
    (base.siblings place name).Committed siblings hasBackup) ∧
  (name ∉ done.map (·.1) → holds name siblings)

/-- The states of files when output has failed. -/
abbrev Leaving (base : Volume) (place : Location) (replaced swept : String → Prop) (name : String)
    (siblings : Siblings) : Prop :=
  (base.siblings place name).Left (replaced name) (swept name) siblings

section Midway

variable {base v w : Volume} {place : Location} {names : List String} {name : String}
  {holds holds' : String → Siblings → Prop} {new : Siblings}

theorem midway_start (htree : base.IsTree) :
    Midway base place names (fun name siblings => siblings = base.siblings place name) base :=
  ⟨⟨htree, .refl base⟩, fun _ _ => rfl, fun _ _ => rfl⟩

theorem Midway.mono (h : Midway base place names holds v)
    (hholds : ∀ name ∈ names, ∀ siblings, holds name siblings → holds' name siblings) :
    Midway base place names holds' v :=
  ⟨h.stands, fun name hname => hholds name hname _ (h.each name hname), h.elsewhere⟩

/-- At first no temporary file is written. -/
theorem midway_staging (htree : base.IsTree) :
    Midway base place names (Staging base place []) base :=
  (midway_start htree).mono fun _ _ _ heq =>
    ⟨fun hmem => absurd hmem List.not_mem_nil, fun _ => heq⟩

/-- When all temporary files are written, they are to be moved to their targets. -/
theorem Midway.committing (h : Midway base place names (Staging base place names) v) :
    Midway base place names (Committing base place [] names) v :=
  h.mono fun _ hname _ hstaging =>
    ⟨fun _ hmem => absurd hmem List.not_mem_nil, fun _ => hstaging.1 hname⟩

/-- A step on one file leaves the siblings of the others as they are. -/
theorem siblings_eq_of_turned {other : String} (hapart : Apart names) (hname : name ∈ names)
    (hother : other ∈ names) (hne : other ≠ name) (hturned : v.Turned place name w new) :
    w.siblings place other = v.siblings place other := by
  have hsame : ∀ sibling ∈ siblingNames other,
      w.entry? (place ++ [sibling]) = v.entry? (place ++ [sibling]) := by
    intro sibling hsibling
    refine hturned.elsewhere _ fun sibling' hsibling' heq => ?_
    obtain rfl : sibling = sibling' := by simpa using heq
    exact hapart.disjoint hname hother hne hsibling hsibling'
  refine Siblings.ext_get fun sibling => ?_
  rw [Volume.get_siblings, Volume.get_siblings, hsame _ sibling.nameOf_mem_siblingNames]

/-- A step takes one file to its next state, and the others stay in theirs. -/
theorem Midway.turned (h : Midway base place names holds v) (hapart : Apart names)
    (hname : name ∈ names) (hturned : v.Turned place name w new) (hnew : holds' name new)
    (hothers : ∀ other ∈ names, other ≠ name →
      ∀ siblings, holds other siblings → holds' other siblings) :
    Midway base place names holds' w where
  stands := h.stands.edited hturned.edited
  each other hother := by
    by_cases hne : other = name
    · subst hne
      rw [hturned.siblings]
      exact hnew
    · rw [siblings_eq_of_turned hapart hname hother hne hturned]
      exact hothers other hother hne _ (h.each other hother)
  elsewhere location hlocation := by
    rw [hturned.elsewhere location (hlocation name hname)]
    exact h.elsewhere location hlocation

end Midway

/-! ### The loops -/

section Loops

variable {σ : Type} {disk : Disk (StateM σ)} {volume : σ → Volume} {base : Volume}
  {directory : String} {place : Location} {names : List String} {name : String}
  {holds : String → Siblings → Prop} {s s' : σ} {log : List LogEntry}
  (hkeeps : disk.Keeps volume) (hopens : base.Opens directory place)
  (hentries : ∀ name ∈ names, IsEntryName name) (hapart : Apart names)

include hkeeps hopens hentries hapart

/-- Of the files that are discarded no temporary file is left, unless the log tells so. -/
theorem midway_discard {swept : List String} (hswept : ∀ name ∈ swept, name ∈ names)
    (hclosed : ∀ name ∈ names, ∀ siblings, holds name siblings →
      holds name { siblings with temporary := none })
    (h : Midway base place names holds (volume s))
    (hrun : discard disk (swept.map (staged directory)) s = (log, s')) :
    Midway base place names (fun name siblings =>
      holds name siblings ∧ (log = [] → name ∈ swept → siblings.temporary = none)) (volume s') := by
  induction swept generalizing holds s log with
  | nil =>
    cases hrun
    exact h.mono fun name _ siblings hholds => ⟨hholds, fun _ hmem => by cases hmem⟩
  | cons name swept ih =>
    have hname : name ∈ names := hswept name List.mem_cons_self
    rcases hremove : disk.removeFile (hidden directory name "tmp") s with ⟨outcome, t⟩
    rcases hrest : discard disk (swept.map (staged directory)) t with ⟨more, t'⟩
    rw [List.map_cons, discard_cons] at hrun
    simp only [staged, hremove, hrest] at hrun
    cases hrun
    have hstep : Midway base place names (fun other siblings => holds other siblings ∧
        (outcome = .ok () → other = name → siblings.temporary = none)) (volume t) := by
      cases outcome with
      | ok _ =>
        refine h.turned hapart hname (h.stands.turned_removeFile hopens
          (hentries name hname) .temporary (hkeeps.removeFile_ok hremove)) ?_ ?_
        · exact ⟨hclosed name hname _ (h.each name hname), fun _ _ => rfl⟩
        · exact fun other _ hne siblings hholds => ⟨hholds, fun _ heq => absurd heq hne⟩
      | error error =>
        rw [hkeeps.removeFile_error hremove]
        exact h.mono fun other _ siblings hholds => ⟨hholds, fun hok => by cases hok⟩
    refine (ih (fun other hother => hswept other (List.mem_cons_of_mem _ hother)) ?_ hstep
      hrest).mono ?_
    · exact fun other hother siblings hholds =>
        ⟨hclosed other hother siblings hholds.1, fun _ _ => rfl⟩
    · rintro other - siblings ⟨⟨hholds, hfirst⟩, hmore⟩
      refine ⟨hholds, fun hlog hother => ?_⟩
      obtain ⟨hwarning, hlog⟩ := List.append_eq_nil_iff.mp hlog
      rcases List.mem_cons.mp hother with heq | hother
      · exact hfirst (ok_of_warning_eq_nil hwarning) heq
      · exact hmore hlog hother

/-- When the last file is taken back from its place, the others are in their places still. -/
theorem midway_takenBack {hasBackup : Bool} {done : List (String × Bool)} {t : σ}
    (hname : name ∈ names) (hfresh : name ∉ done.map (·.1))
    (hleft : ∀ siblings, (base.siblings place name).Committed siblings hasBackup →
      holds name ((base.siblings place name).takenBack hasBackup))
    (h : Midway base place names (Returning base place holds ((name, hasBackup) :: done))
      (volume s))
    (hrun : takeBack disk (staged directory name) hasBackup s = (.ok (), t)) :
    Midway base place names (Returning base place holds done) (volume t) := by
  have hcommitted := (h.each name hname).1 hasBackup List.mem_cons_self
  have hturned := turned_takenBack hkeeps hopens (hentries name hname) h.stands hcommitted hrun
  refine h.turned hapart hname hturned ⟨?_, ?_⟩ ?_
  · intro hasBackup' hmem
    exact absurd (List.mem_map_of_mem hmem) hfresh
  · exact fun _ => hleft _ hcommitted
  · rintro other - hne siblings ⟨hothers, hholds⟩
    refine ⟨fun hasBackup' hmem => hothers hasBackup' (List.mem_cons_of_mem _ hmem), fun hnot => ?_⟩
    refine hholds ?_
    rw [List.map_cons, List.mem_cons, not_or]
    exact ⟨hne, hnot⟩

/-- Files in their places are taken back, if the log does not tell otherwise. -/
theorem midway_rollBack {done : List (String × Bool)} (hdone : ∀ file ∈ done, file.1 ∈ names)
    (hnodup : (done.map (·.1)).Nodup)
    (hleft : ∀ file ∈ done, ∀ siblings,
      (base.siblings place file.1).Committed siblings file.2 →
        holds file.1 ((base.siblings place file.1).takenBack file.2))
    (h : Midway base place names (Returning base place holds done) (volume s))
    (hrun : rollBack disk (done.map fun file => (staged directory file.1, file.2)) s = (log, s'))
    (hrestored : Restored log) : Midway base place names holds (volume s') := by
  induction done generalizing s log with
  | nil =>
    cases hrun
    exact h.mono fun name _ siblings hholds => hholds.2 (by simp)
  | cons file done ih =>
    obtain ⟨name, hasBackup⟩ := file
    obtain ⟨hfresh, hnodup⟩ := List.nodup_cons.mp hnodup
    rcases hundone : takeBack disk (staged directory name) hasBackup s with ⟨outcome, t⟩
    rcases hrest : rollBack disk (done.map fun file => (staged directory file.1, file.2)) t with
      ⟨more, t'⟩
    rw [List.map_cons, rollBack_cons, hundone] at hrun
    simp only [hrest] at hrun
    cases hrun
    cases hrestored.left.ok
    exact ih (fun file hfile => hdone file (List.mem_cons_of_mem _ hfile)) hnodup
      (fun file hfile => hleft file (List.mem_cons_of_mem _ hfile))
      (midway_takenBack hkeeps hopens hentries hapart (hdone _ List.mem_cons_self) hfresh
        (hleft _ List.mem_cons_self) h hundone) hrest hrestored.right

/-- Nothing of a transaction is left when what is still temporary is discarded, and what is in its
place is taken back. -/
theorem midway_undo {done : List (String × Bool)} {rest : List String}
    {swept undone : List LogEntry} {t : σ} (hnames : names = (done.map (·.1)).reverse ++ rest)
    (h : Midway base place names (Failing base place done) (volume s))
    (hdiscard : discard disk (rest.map (staged directory)) s = (swept, t))
    (hrollBack : rollBack disk (done.map fun file => (staged directory file.1, file.2)) t =
      (undone, s'))
    (hrestored : Restored undone) :
    Midway base place names
      (Leaving base place (fun name => name ∈ (done.map (·.1)).reverse) fun _ => swept = [])
      (volume s') := by
  have hrest : ∀ name ∈ rest, name ∈ names := by
    intro name hname
    rw [hnames]
    exact List.mem_append_right _ hname
  have hswept := midway_discard hkeeps hopens hentries hapart hrest
    (fun _ _ _ hfailing => hfailing.discarded) h hdiscard
  refine midway_rollBack hkeeps hopens hentries hapart (mem_of_placed hnames)
    (hapart.nodup_placed hnames) ?_ (hswept.mono ?_) hrollBack hrestored
  · intro file hfile siblings hcommitted
    exact hcommitted.left_takenBack (List.mem_reverse.mpr (List.mem_map_of_mem hfile))
  · rintro name hname siblings ⟨⟨hcommitted, hfailed⟩, hsweep⟩
    refine ⟨hcommitted, fun hnot => ?_⟩
    obtain ⟨htarget, hbackup, -⟩ := hfailed hnot
    rw [hnames, List.mem_append, List.mem_reverse] at hname
    exact ⟨fun _ => htarget, fun hmem => absurd (List.mem_reverse.mp hmem) hnot, hbackup,
      fun hlog _ => hsweep hlog (hname.resolve_left hnot)⟩

/-- When the next file has got to its place, the others are as they were. -/
theorem midway_placed {hasBackup : Bool} {done : List (String × Bool)} {rest : List String} {t : σ}
    (hnames : names = (done.map (·.1)).reverse ++ name :: rest)
    (h : Midway base place names (Committing base place done (name :: rest)) (volume s))
    (hreplace : replace disk (staged directory name) s = ((.ok hasBackup, log), t)) :
    log = [] ∧ Midway base place names
      (Committing base place ((name, hasBackup) :: done) rest) (volume t) := by
  have hname : name ∈ names := by simp [hnames]
  have hfresh := hapart.fresh_placed hnames
  have hrest : name ∉ rest :=
    (List.nodup_cons.mp (List.nodup_append.mp (hnames ▸ hapart.nodup)).2.1).1
  obtain ⟨hlog, new, hturned, hcommitted, -⟩ := committed_of_replace hkeeps hopens
    (hentries name hname) h.stands ((h.each name hname).2 List.mem_cons_self) hreplace
  refine ⟨hlog, h.turned hapart hname hturned ⟨?_, fun hmem => absurd hmem hrest⟩ ?_⟩
  · intro hasBackup' hmem
    rcases List.mem_cons.mp hmem with heq | hmem
    · cases heq
      exact hcommitted
    · exact absurd hmem (hfresh hasBackup')
  · rintro other - hne siblings ⟨hdone, hrest⟩
    refine ⟨fun hasBackup' hmem => ?_, fun hmem => hrest (List.mem_cons_of_mem _ hmem)⟩
    rcases List.mem_cons.mp hmem with heq | hmem
    · cases heq
      exact absurd rfl hne
    · exact hdone hasBackup' hmem

/-- When the next file has not got to its place, none of the others has changed. -/
theorem midway_notPlaced {cause : FileError} {done : List (String × Bool)} {rest : List String}
    {t : σ} (hnames : names = (done.map (·.1)).reverse ++ name :: rest)
    (h : Midway base place names (Committing base place done (name :: rest)) (volume s))
    (hreplace : replace disk (staged directory name) s = ((.error cause, log), t))
    (hrestored : Restored log) : Midway base place names (Failing base place done) (volume t) := by
  have hname : name ∈ names := by simp [hnames]
  have hfresh := hapart.fresh_placed hnames
  have hstaged := (h.each name hname).2 List.mem_cons_self
  obtain ⟨new, hturned, htarget, hbackup, htemporary⟩ := turned_of_replace_error hkeeps hopens
    (hentries name hname) h.stands hstaged hreplace hrestored
  refine h.turned hapart hname hturned ⟨?_, fun _ => ⟨htarget, hbackup, ?_⟩⟩ ?_
  · intro hasBackup hmem
    exact absurd hmem (hfresh hasBackup)
  · rw [htemporary]
    exact hstaged.ne_link
  · rintro other hother - siblings ⟨hdone, hrest⟩
    refine ⟨hdone, fun hnot => ?_⟩
    rw [hnames, List.mem_append, List.mem_reverse] at hother
    have hstaged := hrest (hother.resolve_left hnot)
    refine ⟨?_, ?_, hstaged.ne_link⟩
    · obtain ⟨_, rfl⟩ := hstaged
      rfl
    · obtain ⟨_, rfl⟩ := hstaged
      exact fun hnone => hnone

/-- If a file does not get to its place, no file of the transaction is left in its place. -/
theorem midway_commit {done : List (String × Bool)} {rest : List String} {error : WriteError}
    (hnames : names = (done.map (·.1)).reverse ++ rest)
    (h : Midway base place names (Committing base place done rest) (volume s))
    (hrun : commit disk (done.map fun file => (staged directory file.1, file.2))
      (rest.map (staged directory)) s = ((.error error, log), s'))
    (hrestored : Restored log) :
    ∃ front name back cause, names = front ++ name :: back ∧
      error = .rename (Path.join directory name) cause ∧
      Midway base place names
        (Leaving base place (fun other => other ∈ front) fun _ => log = []) (volume s') := by
  induction rest generalizing done s log with
  | nil => cases hrun
  | cons name rest ih =>
    rw [List.map_cons] at hrun
    rcases commit_cases hrun with ⟨hasBackup, first, t, more, hreplace, hrest, rfl⟩ |
      ⟨cause, first, t, swept, t', undone, hreplace, hdiscard, hrollBack, rfl, rfl⟩
    · obtain ⟨rfl, hplaced⟩ := midway_placed hkeeps hopens hentries hapart hnames h hreplace
      exact ih (by simpa using hnames) hplaced hrest hrestored
    · rw [← List.map_cons] at hdiscard
      have hfailing := midway_notPlaced hkeeps hopens hentries hapart hnames h hreplace
        hrestored.left.left
      refine ⟨(done.map (·.1)).reverse, name, rest, cause, hnames, rfl, ?_⟩
      refine (midway_undo hkeeps hopens hentries hapart hnames hfailing hdiscard hrollBack
        hrestored.right).mono fun other _ siblings hleft => ?_
      refine ⟨hleft.kept, hleft.restored, hleft.backup, fun hlog => hleft.temporary ?_⟩
      exact (List.append_eq_nil_iff.mp (List.append_eq_nil_iff.mp hlog).1).2

/-- When the next temporary file is written, the others are as they were. -/
theorem midway_written {done back : List String} {contents : ByteArray} {t : σ}
    (hnames : names = done ++ name :: back)
    (hplain : ∀ link, (base.siblings place name).temporary ≠ some (.link link))
    (h : Midway base place names (Staging base place done) (volume s))
    (hwrite : disk.writeFile (hidden directory name "tmp") contents s = (.ok (), t)) :
    Midway base place names (Staging base place (done ++ [name])) (volume t) := by
  have hname : name ∈ names := by simp [hnames]
  have hnow := (h.each name hname).2 (hapart.fresh hnames)
  have hturned := h.stands.turned_writeFile hopens (hentries name hname) .temporary
    (hnow ▸ hplain) (hkeeps.writeFile_ok hwrite)
  rw [hnow] at hturned
  refine h.turned hapart hname hturned ⟨fun _ => ⟨contents, rfl⟩, ?_⟩ ?_
  · intro hnot
    exact absurd (List.mem_append_right _ (List.mem_singleton_self name)) hnot
  · rintro other - hne siblings ⟨hstaged, hold⟩
    refine ⟨fun hmem => hstaged ?_, fun hnot => hold ?_⟩
    · exact (List.mem_append.mp hmem).resolve_right fun heq => hne (List.mem_singleton.mp heq)
    · exact fun hmem => hnot (List.mem_append_left _ hmem)

/-- If a temporary file cannot be written, the others are discarded. -/
theorem midway_unwritten {done back : List String} {contents : ByteArray} {cause : FileError}
    {t : σ} (hnames : names = done ++ name :: back)
    (hplain : ∀ link, (base.siblings place name).temporary ≠ some (.link link))
    (h : Midway base place names (Staging base place done) (volume s))
    (hwrite : disk.writeFile (hidden directory name "tmp") contents s = (.error cause, t))
    (hdiscard : discard disk (done.map (staged directory)) t = (log, s')) :
    Midway base place names
      (Leaving base place (fun _ => False) fun other =>
        log = [] ∧ (other = name → disk.WritesWhole volume (hidden directory name "tmp")))
      (volume s') := by
  have hname : name ∈ names := by simp [hnames]
  have hdone : ∀ other ∈ done, other ∈ names := by
    intro other hother
    rw [hnames]
    exact List.mem_append_left _ hother
  have hfresh : name ∉ done := hapart.fresh hnames
  have hnow : (volume s).siblings place name = base.siblings place name :=
    (h.each name hname).2 hfresh
  have hstruck : Midway base place names
      (Unwritten base place done name (disk.WritesWhole volume (hidden directory name "tmp")))
      (volume t) := by
    by_cases hsame : volume t = volume s
    · rw [hsame]
      exact h.mono fun other _ siblings hstaging => hstaging.unwritten
    · obtain ⟨torn, htorn⟩ := (hkeeps.writeFile_error hwrite).resolve_left hsame
      have hturned := h.stands.turned_writeFile hopens (hentries name hname) .temporary
        (by rw [hnow]; exact hplain) htorn
      rw [hnow] at hturned
      refine h.turned hapart hname hturned ⟨rfl, rfl, fun _ hwhole => ?_⟩
        fun other _ _ siblings hstaging => hstaging.unwritten
      have hnever := hwhole rfl contents s cause
      rw [hwrite] at hnever
      exact absurd (hnever rfl) hsame
  refine (midway_discard hkeeps hopens hentries hapart hdone ?_ hstruck hdiscard).mono ?_
  · rintro other - siblings ⟨htarget, hbackup, -⟩
    exact ⟨htarget, hbackup, fun _ _ _ => rfl⟩
  · rintro other - siblings ⟨⟨htarget, hbackup, htemporary⟩, hsweep⟩
    refine ⟨fun _ => htarget, False.elim, fun hnone => hbackup.trans hnone, ?_⟩
    rintro ⟨hlog, hwhole⟩ hnone
    by_cases hmem : other ∈ done
    · exact hsweep hlog hmem
    · exact htemporary hmem hwhole hnone

/-- Either all temporary files are written, or the one that could not be written is the only one
that may be left. -/
theorem midway_stage {done : List String} {files : List OutputFile}
    {result : Except WriteError (List StagedFile)}
    (hnames : names = done ++ files.map (·.name))
    (hplain : ∀ name ∈ names, ∀ link, (base.siblings place name).temporary ≠ some (.link link))
    (h : Midway base place names (Staging base place done) (volume s))
    (hrun : stage disk directory (done.map (staged directory)) files s = ((result, log), s')) :
    (∀ paths, result = .ok paths → paths = names.map (staged directory) ∧ log = [] ∧
      Midway base place names (Staging base place names) (volume s')) ∧
    ∀ error, result = .error error → ∃ front name back cause, names = front ++ name :: back ∧
      error = .write (hidden directory name "tmp") cause ∧
      Midway base place names
        (Leaving base place (fun _ => False) fun other =>
          log = [] ∧ (other = name → disk.WritesWhole volume (hidden directory name "tmp")))
        (volume s') := by
  induction files generalizing done s with
  | nil =>
    rw [List.map_nil, List.append_nil] at hnames
    cases hrun
    rw [hnames]
    refine ⟨?_, fun error herror => by cases herror⟩
    rintro paths ⟨⟩
    exact ⟨rfl, rfl, hnames ▸ h⟩
  | cons file files ih =>
    have hplain' := hplain file.name (by simp [hnames])
    rcases stage_cases hrun with ⟨t, hwrite, hrest⟩ | ⟨cause, t, hwrite, hdiscard, rfl⟩
    · have hdone : (done ++ [file.name]).map (staged directory) =
          done.map (staged directory) ++ [staged directory file.name] := by
        rw [List.map_append, List.map_singleton]
      exact ih (by simpa using hnames)
        (midway_written hkeeps hopens hentries hapart hnames hplain' h hwrite) (hdone ▸ hrest)
    · refine ⟨fun paths hpaths => (nomatch hpaths), ?_⟩
      rintro error ⟨⟩
      exact ⟨done, file.name, _, cause, hnames, rfl,
        midway_unwritten hkeeps hopens hentries hapart hnames hplain' h hwrite hdiscard⟩

end Loops

/-! ### The whole -/

section Whole

theorem names_of_entries {files : List OutputFile}
    (hentries : ∀ file ∈ files, IsEntryName file.name) :
    ∀ name ∈ files.map (·.name), IsEntryName name := by
  intro name hname
  obtain ⟨file, hfile, rfl⟩ := List.mem_map.mp hname
  exact hentries file hfile

variable {σ : Type} {disk : Disk (StateM σ)} {volume : σ → Volume} {directory : String}
  {files : List OutputFile} {error : WriteError} {log : List LogEntry} {s s' : σ}
  (hkeeps : disk.Keeps volume) (hentries : ∀ file ∈ files, IsEntryName file.name)

include hkeeps hentries

/-- Where the directory does not open, no file is written. -/
theorem stage_of_not_opens {result : Except WriteError (List StagedFile)}
    (hclosed : ∀ place, ¬(volume s).Opens directory place)
    (hrun : stage disk directory [] files s = ((result, log), s')) :
    volume s' = volume s ∧
      (files = [] ∧ result = .ok [] ∨ ∃ path cause, result = .error (.write path cause)) := by
  cases files with
  | nil =>
    cases hrun
    exact ⟨rfl, Or.inl ⟨rfl, rfl⟩⟩
  | cons file files =>
    have hname := hentries file List.mem_cons_self
    have hfails : ∀ contents w,
        (volume s).writeFile (hidden directory file.name "tmp") contents ≠ .ok w := by
      intro contents w hwrite
      obtain ⟨place, hopens, -⟩ :=
        Volume.writeFile_join (isEntryName_hiddenName hname (by decide)) hwrite
      exact hclosed place hopens
    rcases stage_cases hrun with ⟨t, hwrite, -⟩ | ⟨cause, t, hwrite, hdiscard, rfl⟩
    · exact absurd (hkeeps.writeFile_ok hwrite) (hfails _ _)
    · cases hdiscard
      refine ⟨?_, Or.inr ⟨_, cause, rfl⟩⟩
      rcases hkeeps.writeFile_error hwrite with hsame | ⟨torn, htorn⟩
      · exact hsame
      · exact absurd htorn (hfails _ _)

/-- How output fails: before all temporary files are written, or while they are moved to their
targets. -/
theorem writeAll_cases {made : Volume} (hmade : made = volume (disk.made directory s))
    (htree : made.IsTree) (hapart : Apart (files.map (·.name)))
    (hplain : ∀ place, made.Opens directory place → ∀ name ∈ files.map (·.name),
      ∀ link, (made.siblings place name).temporary ≠ some (.link link))
    (hrun : writeAll disk directory files s = ((.error error, log), s')) :
    Restored log ∧ (∀ path cause, error ≠ .rename path cause) ∧
        (volume s' = made ∨
          ∃ place front name back cause, made.Opens directory place ∧
            files.map (·.name) = front ++ name :: back ∧
            error = .write (hidden directory name "tmp") cause ∧
            Midway made place (files.map (·.name))
              (Leaving made place (fun _ => False) fun other =>
                log = [] ∧ (other = name → disk.WritesWhole volume (hidden directory name "tmp")))
              (volume s')) ∨
      ∃ place t, made.Opens directory place ∧
        Midway made place (files.map (·.name)) (Committing made place [] (files.map (·.name)))
          (volume t) ∧
        commit disk [] ((files.map (·.name)).map (staged directory)) t =
          ((.error error, log), s') := by
  have hnames := names_of_entries hentries
  rcases writeAll_error_cases hrun with ⟨cause, hcreate, rfl, rfl⟩ | ⟨t, hcreate, hstage⟩ |
    ⟨t, staging, t', first, more, hcreate, hstage, hcommit, rfl⟩
  all_goals
    rw [Disk.made, hcreate] at hmade
    subst hmade
  · exact Or.inl ⟨restored_nil, fun path cause' heq => (nomatch heq), Or.inl rfl⟩
  · have hrestored := restored_stage hstage
    by_cases hopens : ∃ place, (volume t).Opens directory place
    · obtain ⟨place, hopens⟩ := hopens
      obtain ⟨-, herror⟩ := midway_stage hkeeps hopens hnames hapart (List.nil_append _).symm
        (hplain place hopens) (midway_staging htree) hstage
      obtain ⟨front, name, back, cause, hsplit, rfl, hleft⟩ := herror _ rfl
      exact Or.inl ⟨hrestored, fun path cause' heq => (nomatch heq),
        Or.inr ⟨place, front, name, back, cause, hopens, hsplit, rfl, hleft⟩⟩
    · obtain ⟨hsame, ⟨-, hok⟩ | ⟨path, cause, herror⟩⟩ :=
        stage_of_not_opens hkeeps hentries (fun place h => hopens ⟨place, h⟩) hstage
      · cases hok
      · cases herror
        exact Or.inl ⟨hrestored, fun path cause' heq => (nomatch heq), Or.inl hsame⟩
  · by_cases hopens : ∃ place, (volume t).Opens directory place
    · obtain ⟨place, hopens⟩ := hopens
      obtain ⟨rfl, rfl, hstaged⟩ := (midway_stage hkeeps hopens hnames hapart
        (List.nil_append _).symm (hplain place hopens) (midway_staging htree) hstage).1 staging rfl
      exact Or.inr ⟨place, t', hopens, hstaged.committing, hcommit⟩
    · -- Nothing is staged where the directory does not open, so there is nothing to move.
      obtain ⟨-, ⟨-, hnone⟩ | ⟨_, _, herror⟩⟩ :=
        stage_of_not_opens hkeeps hentries (fun place h => hopens ⟨place, h⟩) hstage
      · cases hnone
        cases hcommit
      · cases herror

/-- What is left when output has failed and all files that were in their places are taken back.
Either no file of the transaction was touched, or a temporary file could not be written, or one
could not be moved to its target. -/
theorem writeAll_error {made : Volume} (hmade : made = volume (disk.made directory s))
    (htree : made.IsTree) (hapart : Apart (files.map (·.name)))
    (hplain : ∀ place, made.Opens directory place → ∀ name ∈ files.map (·.name),
      ∀ link, (made.siblings place name).temporary ≠ some (.link link))
    (hrun : writeAll disk directory files s = ((.error error, log), s'))
    (hrestored : Restored log) :
    volume s' = made ∧ (∀ path cause, error ≠ .rename path cause) ∨
    ∃ place front name back cause, made.Opens directory place ∧
      files.map (·.name) = front ++ name :: back ∧
      (error = .write (hidden directory name "tmp") cause ∧
          Midway made place (files.map (·.name))
            (Leaving made place (fun _ => False) fun other =>
              log = [] ∧ (other = name → disk.WritesWhole volume (hidden directory name "tmp")))
            (volume s') ∨
        error = .rename (Path.join directory name) cause ∧
          Midway made place (files.map (·.name))
            (Leaving made place (fun other => other ∈ front) fun _ => log = []) (volume s')) := by
  rcases writeAll_cases hkeeps hentries hmade htree hapart hplain hrun with
    ⟨-, hrename, hsame | ⟨place, front, name, back, cause, hopens, hsplit, herror, hleft⟩⟩ |
    ⟨place, t, hopens, hcommitting, hcommit⟩
  · exact Or.inl ⟨hsame, hrename⟩
  · exact Or.inr ⟨place, front, name, back, cause, hopens, hsplit, Or.inl ⟨herror, hleft⟩⟩
  · obtain ⟨front, name, back, cause, hsplit, herror, hleft⟩ := midway_commit hkeeps hopens
      (names_of_entries hentries) hapart (List.nil_append _).symm hcommitting hcommit hrestored
    exact Or.inr ⟨place, front, name, back, cause, hopens, hsplit, Or.inr ⟨herror, hleft⟩⟩

end Whole

end Transaction

end PlugTaxonomy