import PlugTaxonomy.Proofs.Allocation.Level
import PlugTaxonomy.Proofs.Allocation.Placement

/-!
# The first violation of a schema

A schema can be wrong in many places at once.  What is reported is the violation that comes
first when the levels are visited in pre-order, the level below a type before the next sibling
of that type.

* `EnclosedLevel`, `Schema.levels` — a level with the widths of all levels around it, and the
  levels of a schema in the order of the visits;
* `Schema.LevelsPass`, `Schema.FirstViolation` — no level is wrong, and what comes first
  otherwise;
* `allocate_first_violation` — allocation reports the first violation and no other, and it comes
  to the constants if and only if there is none.

The widths around a level are those of levels visited before it.  Once these have passed, what
they take of the type field is no more than there is, so the bits that remain are a difference of
numbers that does not stop at zero.
-/

namespace PlugTaxonomy

/-! ### Levels in pre-order -/

/-- A level that a schema declares, and what it stands in. -/
structure EnclosedLevel where
  /-- The names from the root down to the owner of the level, none for the root level. -/
  owner : List String
  /-- The widths of the levels around it, the root level first. -/
  enclosing : List Nat
  bitCount : Nat
  types : List TypeNode

mutual

/-- The levels below a type, each before the levels below the types on it. -/
def TypeNode.levels (owner : List String) (enclosing : List Nat) : TypeNode → List EnclosedLevel
  | .leaf _ => []
  | .branch info bitCount children =>
    ⟨owner ++ [info.name], enclosing, bitCount.toNat, children⟩ ::
      TypeNode.levelsOf (owner ++ [info.name]) (enclosing ++ [bitCount.toNat]) children

/-- The levels below the types of a list. -/
def TypeNode.levelsOf (owner : List String) (enclosing : List Nat) :
    List TypeNode → List EnclosedLevel
  | [] => []
  | type :: types => type.levels owner enclosing ++ TypeNode.levelsOf owner enclosing types

end

/-- All levels of a schema in pre-order. -/
def Schema.levels (schema : Schema) : List EnclosedLevel :=
  ⟨[], [], schema.bitCount.toNat, schema.types⟩ ::
    TypeNode.levelsOf [] [schema.bitCount.toNat] schema.types

/-! ### Violations -/

/-- A level with nothing wrong in the bits that the levels around it leave. -/
def EnclosedLevel.Passes (typeBits : Nat) (level : EnclosedLevel) : Prop :=
  ∃ remaining, level.enclosing.sum + remaining = typeBits ∧
    LevelPasses remaining level.bitCount level.types

/-- A level with a violation in the bits that the levels around it leave. -/
def EnclosedLevel.Violates (typeBits : Nat) (level : EnclosedLevel) (error : AllocationError) :
    Prop :=
  ∃ remaining, level.enclosing.sum + remaining = typeBits ∧
    LevelViolates level.owner remaining level.bitCount level.types error

/-- A type field that leaves room for the flags, and no level with a violation. -/
def Schema.LevelsPass (schema : Schema) : Prop :=
  schema.typeBits.toNat ≤ Code.maxTypeBits ∧
    ∀ level ∈ schema.levels, level.Passes schema.typeBits.toNat

/-- The violation of a schema that comes first. -/
inductive Schema.FirstViolation (schema : Schema) : AllocationError → Prop where
  | typeBits (wide : Code.maxTypeBits < schema.typeBits.toNat) :
      FirstViolation schema (.typeBitsTooWide schema.typeBits.toNat Code.maxTypeBits)
  | level (narrow : schema.typeBits.toNat ≤ Code.maxTypeBits)
      {before after : List EnclosedLevel} {level : EnclosedLevel} {error : AllocationError}
      (split : schema.levels = before ++ level :: after)
      (earlier : ∀ l ∈ before, l.Passes schema.typeBits.toNat)
      (violates : level.Violates schema.typeBits.toNat error) : FirstViolation schema error

/-! ### The sites of the visits -/

/-- A level as allocation meets it, the widths around it taken off the type field. -/
def EnclosedLevel.site (typeBits : Nat) (level : EnclosedLevel) : LevelSite :=
  ⟨level.owner, typeBits - level.enclosing.sum, level.bitCount, level.types⟩

mutual

theorem sites_eq_map_levels (typeBits : Nat) (owner : List String) (enclosing : List Nat)
    (type : TypeNode) :
    type.sites owner (typeBits - enclosing.sum) =
      (type.levels owner enclosing).map (·.site typeBits) := by
  cases type with
  | leaf info => rfl
  | branch info bitCount children =>
    have hsum : typeBits - enclosing.sum - bitCount.toNat =
        typeBits - (enclosing ++ [bitCount.toNat]).sum := by
      rw [List.sum_append, List.sum_singleton, Nat.sub_sub]
    rw [TypeNode.sites, TypeNode.levels, List.map_cons, hsum, sitesOf_eq_map_levelsOf]
    rfl

theorem sitesOf_eq_map_levelsOf (typeBits : Nat) (owner : List String) (enclosing : List Nat)
    (types : List TypeNode) :
    TypeNode.sitesOf owner (typeBits - enclosing.sum) types =
      (TypeNode.levelsOf owner enclosing types).map (·.site typeBits) := by
  cases types with
  | nil => rfl
  | cons type types =>
    rw [TypeNode.sitesOf, TypeNode.levelsOf, List.map_append, sites_eq_map_levels,
      sitesOf_eq_map_levelsOf]

end

theorem schema_sites_eq_map_levels (schema : Schema) :
    schema.sites = schema.levels.map (·.site schema.typeBits.toNat) := by
  have hsites := sitesOf_eq_map_levelsOf schema.typeBits.toNat [] [schema.bitCount.toNat]
    schema.types
  rw [List.sum_singleton] at hsites
  rw [Schema.sites, Schema.levels, List.map_cons, hsites]
  rfl

/-- The check of a level passes if and only if the level does.  Where the levels around it take
more than there is, no bits remain, and a level without bits has no room for a type. -/
theorem check_site_eq_ok_iff (typeBits : Nat) (level : EnclosedLevel) :
    (level.site typeBits).check = .ok () ↔ level.Passes typeBits := by
  rw [LevelSite.check, checkLevel_eq_ok_iff]
  constructor
  · intro h
    refine ⟨typeBits - level.enclosing.sum, ?_, h⟩
    have hfits : level.bitCount ≤ typeBits - level.enclosing.sum := h.fits
    have hpos : 0 < level.bitCount := h.bitCount_pos
    omega
  · rintro ⟨remaining, hsum, h⟩
    obtain rfl : remaining = typeBits - level.enclosing.sum := by omega
    exact h

theorem check_site_eq_error_iff {typeBits : Nat} {level : EnclosedLevel}
    (henclosing : level.enclosing.sum ≤ typeBits) (error : AllocationError) :
    (level.site typeBits).check = .error error ↔ level.Violates typeBits error := by
  rw [LevelSite.check, checkLevel_eq_error_iff]
  constructor
  · intro h
    exact ⟨typeBits - level.enclosing.sum, by omega, h⟩
  · rintro ⟨remaining, hsum, h⟩
    obtain rfl : remaining = typeBits - level.enclosing.sum := by omega
    exact h

/-! ### What the levels around a level take -/

section Enclosing

variable {typeBits : Nat}

mutual

/-- Where all levels visited before have passed, the levels around the next one fit. -/
theorem enclosing_sum_le_of_levels {owner : List String} {enclosing : List Nat} (type : TypeNode)
    (hin : enclosing.sum ≤ typeBits) {before after : List EnclosedLevel} {level : EnclosedLevel}
    (hsplit : type.levels owner enclosing = before ++ level :: after)
    (hbefore : ∀ l ∈ before, l.Passes typeBits) : level.enclosing.sum ≤ typeBits := by
  cases type with
  | leaf info => simp [TypeNode.levels] at hsplit
  | branch info bitCount children =>
    rw [TypeNode.levels] at hsplit
    cases before with
    | nil =>
      obtain ⟨rfl, -⟩ := List.cons.inj hsplit
      exact hin
    | cons here before =>
      obtain ⟨hhere, hrest⟩ := List.cons.inj hsplit
      -- the level of this type has passed, so its width fits behind those around it
      obtain ⟨remaining, hsum, hpasses⟩ := hbefore here (by simp)
      have hfits := hpasses.fits
      rw [← hhere] at hsum hfits
      have hin' : (enclosing ++ [bitCount.toNat]).sum ≤ typeBits := by
        rw [List.sum_append, List.sum_singleton]
        dsimp only at hsum hfits
        omega
      exact enclosing_sum_le_of_levelsOf children hin' hrest fun l hl => hbefore l (by simp [hl])

theorem enclosing_sum_le_of_levelsOf {owner : List String} {enclosing : List Nat}
    (types : List TypeNode) (hin : enclosing.sum ≤ typeBits) {before after : List EnclosedLevel}
    {level : EnclosedLevel}
    (hsplit : TypeNode.levelsOf owner enclosing types = before ++ level :: after)
    (hbefore : ∀ l ∈ before, l.Passes typeBits) : level.enclosing.sum ≤ typeBits := by
  cases types with
  | nil => simp [TypeNode.levelsOf] at hsplit
  | cons type types =>
    rw [TypeNode.levelsOf] at hsplit
    rcases List.append_eq_append_iff.mp hsplit with ⟨front, rfl, hrest⟩ | ⟨rest, hfirst, hrest⟩
    · exact enclosing_sum_le_of_levelsOf types hin hrest fun l hl => hbefore l (by simp [hl])
    · cases rest with
      | nil =>
        have hrest' : TypeNode.levelsOf owner enclosing types = [] ++ level :: after := hrest.symm
        exact enclosing_sum_le_of_levelsOf types hin hrest' (by simp)
      | cons l rest =>
        obtain ⟨rfl, -⟩ := List.cons.inj hrest
        exact enclosing_sum_le_of_levels type hin hfirst hbefore

end

end Enclosing

theorem enclosing_sum_le_of_schema {schema : Schema} {before after : List EnclosedLevel}
    {level : EnclosedLevel} (hsplit : schema.levels = before ++ level :: after)
    (hbefore : ∀ l ∈ before, l.Passes schema.typeBits.toNat) :
    level.enclosing.sum ≤ schema.typeBits.toNat := by
  rw [Schema.levels] at hsplit
  cases before with
  | nil =>
    obtain ⟨rfl, -⟩ := List.cons.inj hsplit
    exact Nat.zero_le _
  | cons root before =>
    obtain ⟨hroot, hrest⟩ := List.cons.inj hsplit
    obtain ⟨remaining, hsum, hpasses⟩ := hbefore root (by simp)
    have hfits := hpasses.fits
    rw [← hroot] at hsum hfits
    have hin : [schema.bitCount.toNat].sum ≤ schema.typeBits.toNat := by
      rw [List.sum_singleton]
      dsimp only [List.sum_nil] at hsum hfits
      omega
    exact enclosing_sum_le_of_levelsOf schema.types hin hrest fun l hl => hbefore l (by simp [hl])

/-! ### The outcome of allocation -/

theorem levelsPass_iff (schema : Schema) :
    schema.LevelsPass ↔
      schema.typeBits.toNat ≤ Code.maxTypeBits ∧ forM schema.sites LevelSite.check = .ok () := by
  rw [Schema.LevelsPass, schema_sites_eq_map_levels, forM_eq_ok_iff, List.forall_mem_map]
  simp only [check_site_eq_ok_iff]

/-- The checks of all sites fail with the violation of the first level that has one. -/
theorem forM_sites_eq_error_iff (schema : Schema) (error : AllocationError) :
    forM schema.sites LevelSite.check = .error error ↔
      ∃ before level after, schema.levels = before ++ level :: after ∧
        (∀ l ∈ before, l.Passes schema.typeBits.toNat) ∧
          level.Violates schema.typeBits.toNat error := by
  rw [schema_sites_eq_map_levels, List.forM_map, forM_eq_error_iff]
  simp only [check_site_eq_ok_iff]
  constructor
  · rintro ⟨before, level, after, hsplit, hbefore, herror⟩
    exact ⟨before, level, after, hsplit, hbefore,
      (check_site_eq_error_iff (enclosing_sum_le_of_schema hsplit hbefore) error).mp herror⟩
  · rintro ⟨before, level, after, hsplit, hbefore, herror⟩
    exact ⟨before, level, after, hsplit, hbefore,
      (check_site_eq_error_iff (enclosing_sum_le_of_schema hsplit hbefore) error).mpr herror⟩

/-- No level is to blame for a constant that is taken twice. -/
theorem EnclosedLevel.Violates.ne_duplicateConstant {typeBits : Nat} {level : EnclosedLevel}
    {error : AllocationError} (h : level.Violates typeBits error) (name path : String) :
    error ≠ .duplicateConstant name path := by
  obtain ⟨remaining, -, hviolates⟩ := h
  cases hviolates <;> nofun

theorem Schema.FirstViolation.ne_duplicateConstant {schema : Schema} {error : AllocationError}
    (h : schema.FirstViolation error) (name path : String) :
    error ≠ .duplicateConstant name path := by
  cases h with
  | typeBits hwide => nofun
  | level hnarrow hsplit hearlier hviolates => exact hviolates.ne_duplicateConstant name path

/-- The first violation is reported. -/
theorem Schema.FirstViolation.allocate_eq_error {schema : Schema} {error : AllocationError}
    (h : schema.FirstViolation error) : allocate schema = .error error := by
  rw [allocate_eq]
  cases h with
  | typeBits hwide => rw [if_pos hwide]
  | level hnarrow hsplit hearlier hviolates =>
    rw [if_neg (Nat.not_lt.mpr hnarrow),
      (forM_sites_eq_error_iff schema error).mpr ⟨_, _, _, hsplit, hearlier, hviolates⟩]
    rfl

/-- A level to blame apart, allocation comes to the constants, and to the table behind them. -/
theorem Schema.LevelsPass.allocate_eq {schema : Schema} (h : schema.LevelsPass) :
    allocate schema =
      (do
        checkClaims takenNames schema.table.claims
        return schema.table) := by
  obtain ⟨hnarrow, hchecks⟩ := (levelsPass_iff schema).mp h
  rw [PlugTaxonomy.allocate_eq, if_neg (Nat.not_lt.mpr hnarrow), hchecks]
  rfl

/-- Either all levels pass, or there is a first violation. -/
theorem levelsPass_or_exists_firstViolation (schema : Schema) :
    schema.LevelsPass ∨ ∃ error, schema.FirstViolation error := by
  rcases Nat.lt_or_ge Code.maxTypeBits schema.typeBits.toNat with hwide | hnarrow
  · exact Or.inr ⟨_, .typeBits hwide⟩
  · cases hchecks : forM schema.sites LevelSite.check with
    | ok u => exact Or.inl ((levelsPass_iff schema).mpr ⟨hnarrow, hchecks⟩)
    | error error =>
      obtain ⟨before, level, after, hsplit, hbefore, hviolates⟩ :=
        (forM_sites_eq_error_iff schema error).mp hchecks
      exact Or.inr ⟨error, .level hnarrow hsplit hbefore hviolates⟩

theorem Schema.LevelsPass.outcome {schema : Schema} (h : schema.LevelsPass) :
    (∃ table, allocate schema = .ok table) ∨
      ∃ name path, allocate schema = .error (.duplicateConstant name path) := by
  rw [h.allocate_eq]
  cases hclaims : checkClaims takenNames schema.table.claims with
  | ok u => exact Or.inl ⟨schema.table, rfl⟩
  | error error =>
    obtain ⟨name, path, rfl⟩ := exists_of_checkClaims_eq_error hclaims
    exact Or.inr ⟨name, path, rfl⟩

/-- **Allocation reports the first violation.**  An error other than a constant that is taken
twice is reported if and only if it is the violation that comes first, and a table or a constant
taken twice is the outcome if and only if no level has a violation. -/
theorem allocate_first_violation (schema : Schema) :
    (∀ error, schema.FirstViolation error ↔
        allocate schema = .error error ∧ ∀ name path, error ≠ .duplicateConstant name path) ∧
      (schema.LevelsPass ↔
        (∃ table, allocate schema = .ok table) ∨
          ∃ name path, allocate schema = .error (.duplicateConstant name path)) := by
  constructor
  · intro error
    constructor
    · intro h
      exact ⟨h.allocate_eq_error, h.ne_duplicateConstant⟩
    · rintro ⟨herror, hother⟩
      rcases levelsPass_or_exists_firstViolation schema with hpass | ⟨first, hfirst⟩
      · rcases hpass.outcome with ⟨table, hok⟩ | ⟨name, path, hdup⟩
        · cases herror.symm.trans hok
        · exact absurd (Except.error.inj (herror.symm.trans hdup)) (hother name path)
      · obtain rfl := Except.error.inj (herror.symm.trans hfirst.allocate_eq_error)
        exact hfirst
  · constructor
    · exact Schema.LevelsPass.outcome
    · intro houtcome
      rcases levelsPass_or_exists_firstViolation schema with hpass | ⟨first, hfirst⟩
      · exact hpass
      · have herror := hfirst.allocate_eq_error
        rcases houtcome with ⟨table, hok⟩ | ⟨name, path, hdup⟩
        · cases herror.symm.trans hok
        · exact absurd (Except.error.inj (herror.symm.trans hdup))
            (hfirst.ne_duplicateConstant name path)

end PlugTaxonomy
