import PlugTaxonomy.Allocation.Level
import Mathlib.Algebra.Ring.Nat

/-!
# What the checks of one level say

The checks of a level stop at the first violation.  Here every violation is stated for itself,
together with the checks that come before it, and so is the level without any.

* `Identifier` — the form of names, as a statement about their characters;
* `LevelPasses` — a level that fits, is neither empty nor too full, and has proper names;
* `LevelViolates` — the first violation on a level, one rule for each kind;
* `checkLevel_eq_ok_iff`, `checkLevel_eq_error_iff` — the checks find just that.
-/

namespace PlugTaxonomy

/-! ### Names -/

/-- A capital letter or an underscore, and behind it only those and digits. -/
def Identifier (name : String) : Prop :=
  ∃ c cs, name.toList = c :: cs ∧ (('A' ≤ c ∧ c ≤ 'Z') ∨ c = '_') ∧
    ∀ d ∈ cs, ('A' ≤ d ∧ d ≤ 'Z') ∨ ('0' ≤ d ∧ d ≤ '9') ∨ d = '_'

theorem startsIdentifier_iff (c : Char) :
    startsIdentifier c = true ↔ ('A' ≤ c ∧ c ≤ 'Z') ∨ c = '_' := by
  simp [startsIdentifier]

theorem continuesIdentifier_iff (c : Char) :
    continuesIdentifier c = true ↔
      ('A' ≤ c ∧ c ≤ 'Z') ∨ ('0' ≤ c ∧ c ≤ '9') ∨ c = '_' := by
  rw [continuesIdentifier, Bool.or_eq_true, startsIdentifier_iff, Bool.and_eq_true,
    decide_eq_true_iff, decide_eq_true_iff, or_assoc,
    @or_comm (c = '_')]

theorem isIdentifier_iff (name : String) : isIdentifier name = true ↔ Identifier name := by
  unfold isIdentifier Identifier
  cases name.toList with
  | nil => simp
  | cons c cs =>
    simp only [Bool.and_eq_true, List.all_eq_true, startsIdentifier_iff, continuesIdentifier_iff,
      List.cons.injEq]
    constructor
    · rintro ⟨hc, hcs⟩
      exact ⟨c, cs, ⟨rfl, rfl⟩, hc, hcs⟩
    · rintro ⟨_, _, ⟨rfl, rfl⟩, hc, hcs⟩
      exact ⟨hc, hcs⟩

/-! ### Repeated names -/

theorem firstRepeated?_eq_none_iff (earlier : Std.TreeSet String) (names : List String) :
    firstRepeated? earlier names = none ↔ names.Nodup ∧ ∀ name ∈ names, name ∉ earlier := by
  induction names generalizing earlier with
  | nil => simp [firstRepeated?]
  | cons name names ih =>
    rw [firstRepeated?]
    by_cases hmem : name ∈ earlier
    · simp [hmem]
    · rw [if_neg (by simpa using hmem), ih, List.nodup_cons]
      simp only [Std.TreeSet.mem_insert, Std.compare_eq_iff_eq, List.mem_cons, forall_eq_or_imp,
        not_or]
      constructor
      · rintro ⟨hnodup, hnew⟩
        exact ⟨⟨fun hin => (hnew name hin).1 rfl, hnodup⟩, hmem, fun n hn => (hnew n hn).2⟩
      · rintro ⟨⟨hnot, hnodup⟩, -, hnew⟩
        exact ⟨hnodup, fun n hn => ⟨fun heq => hnot (heq ▸ hn), hnew n hn⟩⟩

/-- A name that has been seen before is found if nothing in front of it has. -/
theorem firstRepeated?_eq_some_of_split {earlier : Std.TreeSet String} {before : List String}
    {name : String} (after : List String) (hdistinct : before.Nodup)
    (hnew : ∀ n ∈ before, n ∉ earlier) (hseen : name ∈ earlier ∨ name ∈ before) :
    firstRepeated? earlier (before ++ name :: after) = some name := by
  induction before generalizing earlier with
  | nil =>
    have hmem : name ∈ earlier := hseen.resolve_right List.not_mem_nil
    rw [List.nil_append, firstRepeated?, if_pos (by simpa using hmem)]
  | cons first before ih =>
    obtain ⟨hnot, hdistinct⟩ := List.nodup_cons.mp hdistinct
    obtain ⟨hfirst, hnew⟩ := List.forall_mem_cons.mp hnew
    rw [List.cons_append, firstRepeated?, if_neg (by simpa using hfirst)]
    refine ih hdistinct ?_ ?_
    · intro n hn
      rw [Std.TreeSet.mem_insert, Std.compare_eq_iff_eq, not_or]
      exact ⟨fun heq => hnot (heq ▸ hn), hnew n hn⟩
    · rw [Std.TreeSet.mem_insert, Std.compare_eq_iff_eq]
      rcases hseen with hseen | hseen
      · exact Or.inl (Or.inr hseen)
      · rcases List.mem_cons.mp hseen with rfl | hseen
        · exact Or.inl (Or.inl rfl)
        · exact Or.inr hseen

/-- A name that is found has been seen before, and nothing in front of it has. -/
theorem exists_split_of_firstRepeated? {earlier : Std.TreeSet String} {names : List String}
    {name : String} (h : firstRepeated? earlier names = some name) :
    ∃ before after, names = before ++ name :: after ∧ before.Nodup ∧
      (∀ n ∈ before, n ∉ earlier) ∧ (name ∈ earlier ∨ name ∈ before) := by
  induction names generalizing earlier with
  | nil => cases h
  | cons first names ih =>
    rw [firstRepeated?] at h
    by_cases hmem : first ∈ earlier
    · rw [if_pos (by simpa using hmem), Option.some.injEq] at h
      subst h
      exact ⟨[], names, rfl, List.nodup_nil, nofun, Or.inl hmem⟩
    · rw [if_neg (by simpa using hmem)] at h
      obtain ⟨before, after, rfl, hdistinct, hnew, hseen⟩ := ih h
      simp only [Std.TreeSet.mem_insert, Std.compare_eq_iff_eq, not_or] at hnew hseen
      refine ⟨first :: before, after, rfl, ?_, ?_, ?_⟩
      · exact List.nodup_cons.mpr ⟨fun hin => (hnew first hin).1 rfl, hdistinct⟩
      · exact List.forall_mem_cons.mpr ⟨hmem, fun n hn => (hnew n hn).2⟩
      · rcases hseen with (rfl | hseen) | hseen
        · exact Or.inr List.mem_cons_self
        · exact Or.inl hseen
        · exact Or.inr (List.mem_cons_of_mem _ hseen)

/-- A level whose names do not repeat has no repeated name, and one that has, has a first. -/
theorem firstRepeated?_empty_eq_none_iff (names : List String) :
    firstRepeated? ∅ names = none ↔ names.Nodup := by
  rw [firstRepeated?_eq_none_iff]
  simp

theorem firstRepeated?_empty_eq_some_iff (names : List String) (name : String) :
    firstRepeated? ∅ names = some name ↔
      ∃ before after, names = before ++ name :: after ∧ before.Nodup ∧ name ∈ before := by
  constructor
  · intro h
    obtain ⟨before, after, hsplit, hdistinct, -, hseen⟩ := exists_split_of_firstRepeated? h
    exact ⟨before, after, hsplit, hdistinct, hseen.resolve_left Std.TreeSet.not_mem_emptyc⟩
  · rintro ⟨before, after, rfl, hdistinct, hrepeated⟩
    exact firstRepeated?_eq_some_of_split after hdistinct (fun _ _ => Std.TreeSet.not_mem_emptyc)
      (Or.inr hrepeated)

/-! ### Levels -/

/-- The largest value of a selector is the number of types that it tells apart. -/
theorem capacity_eq (bitCount : Nat) : capacity bitCount = 2 ^ bitCount - 1 := by
  rw [capacity, Nat.one_shiftLeft]

/-- A level without violation. -/
structure LevelPasses (remaining bitCount : Nat) (types : List TypeNode) : Prop where
  fits : bitCount ≤ remaining
  nonempty : types ≠ []
  room : types.length ≤ 2 ^ bitCount - 1
  names : ∀ name ∈ declaredNames types, Identifier name
  distinct : (types.map (·.value.name)).Nodup

/-- A level without bits has no room for a type. -/
theorem LevelPasses.bitCount_pos {remaining bitCount : Nat} {types : List TypeNode}
    (h : LevelPasses remaining bitCount types) : 0 < bitCount := by
  rcases Nat.eq_zero_or_pos bitCount with rfl | hpos
  · exact absurd (List.length_eq_zero_iff.mp (Nat.le_zero.mp h.room)) h.nonempty
  · exact hpos

/-- The first violation on a level, in the order of the checks. -/
inductive LevelViolates (owner : List String) (remaining bitCount : Nat)
    (types : List TypeNode) : AllocationError → Prop where
  | insufficientBits (short : remaining < bitCount) :
      LevelViolates owner remaining bitCount types
        (.insufficientBits (ownerPath owner) bitCount remaining)
  | emptyCategory (fits : bitCount ≤ remaining) (empty : types = []) :
      LevelViolates owner remaining bitCount types (.emptyCategory (ownerPath owner))
  | categoryOverflow (fits : bitCount ≤ remaining) (nonempty : types ≠ [])
      (full : 2 ^ bitCount - 1 < types.length) :
      LevelViolates owner remaining bitCount types
        (.categoryOverflow (ownerPath owner) types.length bitCount (2 ^ bitCount - 1))
  | invalidName (fits : bitCount ≤ remaining) (nonempty : types ≠ [])
      (room : types.length ≤ 2 ^ bitCount - 1) {before after : List String} {name : String}
      (split : declaredNames types = before ++ name :: after)
      (valid : ∀ n ∈ before, Identifier n) (invalid : ¬Identifier name) :
      LevelViolates owner remaining bitCount types (.invalidName (ownerPath owner) name)
  | duplicateName (fits : bitCount ≤ remaining) (nonempty : types ≠ [])
      (room : types.length ≤ 2 ^ bitCount - 1) (names : ∀ n ∈ declaredNames types, Identifier n)
      {before after : List String} {name : String}
      (split : types.map (·.value.name) = before ++ name :: after)
      (distinct : before.Nodup) (repeated : name ∈ before) :
      LevelViolates owner remaining bitCount types (.duplicateName (ownerPath owner) name)

/-- The first name of a level that is no identifier. -/
theorem find?_invalid_eq_none_iff (names : List String) :
    names.find? (!isIdentifier ·) = none ↔ ∀ name ∈ names, Identifier name := by
  simp [← isIdentifier_iff]

theorem find?_invalid_eq_some_iff (names : List String) (name : String) :
    names.find? (!isIdentifier ·) = some name ↔
      ¬Identifier name ∧
        ∃ before after, names = before ++ name :: after ∧ ∀ n ∈ before, Identifier n := by
  rw [List.find?_eq_some_iff_append]
  simp [← isIdentifier_iff]

section Check

variable {owner : List String} {remaining bitCount : Nat} {types : List TypeNode}

/-- A level without violation passes its checks. -/
theorem LevelPasses.checkLevel_eq (h : LevelPasses remaining bitCount types) :
    checkLevel owner remaining bitCount types = .ok () := by
  have hshort : ¬remaining < bitCount := Nat.not_lt.mpr h.fits
  have hfull : ¬2 ^ bitCount - 1 < types.length := Nat.not_lt.mpr h.room
  simp only [checkLevel, capacity_eq]
  rw [if_neg hshort, if_neg (by simpa using h.nonempty), if_neg hfull,
    (find?_invalid_eq_none_iff _).mpr h.names]
  simp only [(firstRepeated?_empty_eq_none_iff _).mpr h.distinct]

/-- The checks of a level stop at the first violation on it. -/
theorem LevelViolates.checkLevel_eq {error : AllocationError}
    (h : LevelViolates owner remaining bitCount types error) :
    checkLevel owner remaining bitCount types = .error error := by
  simp only [checkLevel, capacity_eq]
  cases h with
  | insufficientBits hshort => rw [if_pos hshort]
  | emptyCategory hfits hempty =>
    rw [if_neg (Nat.not_lt.mpr hfits), if_pos (by simpa using hempty)]
  | categoryOverflow hfits hnonempty hfull =>
    rw [if_neg (Nat.not_lt.mpr hfits), if_neg (by simpa using hnonempty), if_pos hfull]
  | invalidName hfits hnonempty hroom hsplit hvalid hinvalid =>
    rw [if_neg (Nat.not_lt.mpr hfits), if_neg (by simpa using hnonempty),
      if_neg (Nat.not_lt.mpr hroom),
      (find?_invalid_eq_some_iff _ _).mpr ⟨hinvalid, _, _, hsplit, hvalid⟩]
  | duplicateName hfits hnonempty hroom hnames hsplit hdistinct hrepeated =>
    rw [if_neg (Nat.not_lt.mpr hfits), if_neg (by simpa using hnonempty),
      if_neg (Nat.not_lt.mpr hroom), (find?_invalid_eq_none_iff _).mpr hnames]
    simp only [(firstRepeated?_empty_eq_some_iff _ _).mpr ⟨_, _, hsplit, hdistinct, hrepeated⟩]

variable (owner remaining bitCount types)

/-- Nothing is wrong with a level, or there is a first violation on it. -/
theorem levelPasses_or_exists_levelViolates :
    LevelPasses remaining bitCount types ∨
      ∃ error, LevelViolates owner remaining bitCount types error := by
  rcases Nat.lt_or_ge remaining bitCount with hshort | hfits
  · exact Or.inr ⟨_, .insufficientBits hshort⟩
  by_cases hnonempty : types = []
  · exact Or.inr ⟨_, .emptyCategory hfits hnonempty⟩
  rcases Nat.lt_or_ge (2 ^ bitCount - 1) types.length with hfull | hroom
  · exact Or.inr ⟨_, .categoryOverflow hfits hnonempty hfull⟩
  cases hinvalid : (declaredNames types).find? (!isIdentifier ·) with
  | some name =>
    obtain ⟨hname, before, after, hsplit, hvalid⟩ := (find?_invalid_eq_some_iff _ _).mp hinvalid
    exact Or.inr ⟨_, .invalidName hfits hnonempty hroom hsplit hvalid hname⟩
  | none =>
    have hnames := (find?_invalid_eq_none_iff _).mp hinvalid
    cases hrepeated : firstRepeated? ∅ (types.map (·.value.name)) with
    | some name =>
      obtain ⟨before, after, hsplit, hdistinct, hmem⟩ :=
        (firstRepeated?_empty_eq_some_iff _ _).mp hrepeated
      exact Or.inr ⟨_, .duplicateName hfits hnonempty hroom hnames hsplit hdistinct hmem⟩
    | none =>
      have hdistinct := (firstRepeated?_empty_eq_none_iff _).mp hrepeated
      exact Or.inl ⟨hfits, hnonempty, hroom, hnames, hdistinct⟩

/-- A level passes its checks if and only if nothing is wrong with it. -/
theorem checkLevel_eq_ok_iff :
    checkLevel owner remaining bitCount types = .ok () ↔ LevelPasses remaining bitCount types := by
  refine ⟨fun h => ?_, LevelPasses.checkLevel_eq⟩
  rcases levelPasses_or_exists_levelViolates owner remaining bitCount types with
    hpasses | ⟨error, hviolates⟩
  · exact hpasses
  · cases h.symm.trans hviolates.checkLevel_eq

/-- The checks of a level fail with the first violation on it. -/
theorem checkLevel_eq_error_iff (error : AllocationError) :
    checkLevel owner remaining bitCount types = .error error ↔
      LevelViolates owner remaining bitCount types error := by
  refine ⟨fun h => ?_, LevelViolates.checkLevel_eq⟩
  rcases levelPasses_or_exists_levelViolates owner remaining bitCount types with
    hpasses | ⟨first, hviolates⟩
  · cases h.symm.trans hpasses.checkLevel_eq
  · obtain rfl := Except.error.inj (h.symm.trans hviolates.checkLevel_eq)
    exact hviolates

end Check

end PlugTaxonomy
