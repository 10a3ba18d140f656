import PlugTaxonomy.Artifacts
import PlugTaxonomy.Proofs.Allocation.Order
import PlugTaxonomy.Proofs.Keyed
import PlugTaxonomy.Proofs.Table.Names

/-!
# The constants of an accepted schema

Once all levels have passed their checks, only the constants can be to blame: one of them may have
been taken before.  The pass that finds this out and the enumeration follow the same producers, so
what is reported is the first repeated name of the enumeration itself.

* `checkClaims_eq_ok_iff`, `checkClaims_of_split`, `exists_split_of_checkClaims` — the pass goes
  through if no name is taken, and fails at the first one that is;
* `CodeTable.FirstRepeated` — the first repeated name of an enumeration and its producer's path;
* `lookup?_eq_of_nodup` — where no name repeats, each constant is looked up by its name;
* `allocate_constants` — what allocation says of the constants, and what an accepted enumeration
  is like.
-/

namespace PlugTaxonomy

/-! ### The pass over the constants -/

theorem mem_takenNames {name : String} :
    name ∈ takenNames ↔ name ∈ Symbol.flags.map (·.name) := by
  rw [takenNames, Std.TreeSet.mem_ofList, List.contains_iff_mem]

/-- The pass goes through if no name is taken and none comes twice. -/
theorem checkClaims_eq_ok_iff (taken : Std.TreeSet String) (claims : List (String × String)) :
    checkClaims taken claims = .ok () ↔
      (claims.map (·.1)).Nodup ∧ ∀ name ∈ claims.map (·.1), name ∉ taken := by
  rw [← firstRepeated?_eq_none_iff]
  induction claims generalizing taken with
  | nil => exact iff_of_true rfl rfl
  | cons claim claims ih =>
    rw [checkClaims, List.map_cons, firstRepeated?]
    split
    · constructor
      · intro hok
        cases hok
      · intro hnone
        cases hnone
    · exact ih _

section Pass

variable {taken : Std.TreeSet String} {claims : List (String × String)} {name path : String}

theorem checkClaims_cons_of_mem (h : name ∈ taken) :
    checkClaims taken ((name, path) :: claims) = .error (.duplicateConstant name path) := by
  rw [checkClaims, if_pos (by simpa using h)]

theorem checkClaims_cons_of_not_mem (h : name ∉ taken) :
    checkClaims taken ((name, path) :: claims) = checkClaims (taken.insert name) claims := by
  rw [checkClaims, if_neg (by simpa using h)]

/-- A name that is taken, or that an earlier one equals, is refused if nothing in front of it is. -/
theorem checkClaims_of_split {before : List (String × String)} (after : List (String × String))
    (hbefore : checkClaims taken before = .ok ())
    (hname : name ∈ taken ∨ name ∈ before.map (·.1)) :
    checkClaims taken (before ++ (name, path) :: after) = .error (.duplicateConstant name path) := by
  induction before generalizing taken with
  | nil => exact checkClaims_cons_of_mem (hname.resolve_right List.not_mem_nil)
  | cons first before ih =>
    obtain ⟨first, firstPath⟩ := first
    by_cases hfirst : first ∈ taken
    · rw [checkClaims_cons_of_mem hfirst] at hbefore
      cases hbefore
    · rw [checkClaims_cons_of_not_mem hfirst] at hbefore
      rw [List.cons_append, checkClaims_cons_of_not_mem hfirst]
      refine ih hbefore ?_
      rw [Std.TreeSet.mem_insert, Std.compare_eq_iff_eq]
      rw [List.map_cons, List.mem_cons] at hname
      rcases hname with hname | rfl | hname
      · exact Or.inl (Or.inr hname)
      · exact Or.inl (Or.inl rfl)
      · exact Or.inr hname

/-- What is refused is taken, or equals an earlier name, and nothing in front of it is refused. -/
theorem exists_split_of_checkClaims {error : AllocationError}
    (h : checkClaims taken claims = .error error) :
    ∃ before name path after, claims = before ++ (name, path) :: after ∧
      error = .duplicateConstant name path ∧ checkClaims taken before = .ok () ∧
        (name ∈ taken ∨ name ∈ before.map (·.1)) := by
  induction claims generalizing taken with
  | nil => cases h
  | cons first claims ih =>
    obtain ⟨first, firstPath⟩ := first
    by_cases hfirst : first ∈ taken
    · rw [checkClaims_cons_of_mem hfirst] at h
      obtain rfl := Except.error.inj h
      exact ⟨[], first, firstPath, claims, rfl, rfl, rfl, Or.inl hfirst⟩
    · rw [checkClaims_cons_of_not_mem hfirst] at h
      obtain ⟨before, name, path, after, rfl, rfl, hbefore, hname⟩ := ih h
      refine ⟨(first, firstPath) :: before, name, path, after, rfl, rfl, ?_, ?_⟩
      · rw [checkClaims_cons_of_not_mem hfirst]
        exact hbefore
      · rw [Std.TreeSet.mem_insert, Std.compare_eq_iff_eq] at hname
        rw [List.map_cons, List.mem_cons]
        rcases hname with (rfl | hname) | hname
        · exact Or.inr (Or.inl rfl)
        · exact Or.inl hname
        · exact Or.inr (Or.inr hname)

end Pass

/-! ### Repeated names of an enumeration -/

/-- A name is the first one in the enumeration of a table that an earlier constant has, and it is
reported under a path: the flags come first, and then what levels and types produce. -/
def CodeTable.FirstRepeated (table : CodeTable) (name path : String) : Prop :=
  ∃ before producer after, table.produced = before ++ (name, producer) :: after ∧
    path = producer.path ∧
    (Symbol.flags.map (·.name) ++ before.map (·.1)).Nodup ∧
    name ∈ Symbol.flags.map (·.name) ++ before.map (·.1)

/-- The flags themselves differ in their names. -/
theorem nodup_flags : (Symbol.flags.map (·.name)).Nodup := by
  decide

/-- Names that neither repeat nor are taken by a flag do not repeat behind the flags. -/
theorem nodup_flags_append_iff {names : List String} :
    (Symbol.flags.map (·.name) ++ names).Nodup ↔
      names.Nodup ∧ ∀ name ∈ names, name ∉ takenNames := by
  rw [List.nodup_append', and_iff_right nodup_flags]
  refine and_congr_right fun _ => ?_
  simp only [mem_takenNames]
  exact ⟨fun h name hname hflag => h hflag hname, fun h name hflag hname => h name hname hflag⟩

theorem checkClaims_table_eq_ok_iff (table : CodeTable) :
    checkClaims takenNames table.claims = .ok () ↔ (table.enumeration.map (·.name)).Nodup := by
  rw [checkClaims_eq_ok_iff, map_name_enumeration, nodup_flags_append_iff, claims_eq_map_produced,
    List.map_map]
  rfl

theorem checkClaims_table_eq_error_iff (table : CodeTable) (name path : String) :
    checkClaims takenNames table.claims = .error (.duplicateConstant name path) ↔
      table.FirstRepeated name path := by
  rw [claims_eq_map_produced]
  constructor
  · intro herror
    obtain ⟨before, name, path, after, hsplit, ⟨⟩, hbefore, hname⟩ :=
      exists_split_of_checkClaims herror
    obtain ⟨front, rest, hproduced, rfl, hrest⟩ := List.map_eq_append_iff.mp hsplit
    obtain ⟨⟨name', producer⟩, back, rfl, ⟨⟩, -⟩ := List.map_eq_cons_iff.mp hrest
    rw [checkClaims_eq_ok_iff, ← nodup_flags_append_iff, List.map_map] at hbefore
    rw [mem_takenNames, List.map_map, ← List.mem_append] at hname
    exact ⟨front, producer, back, hproduced, rfl, hbefore, hname⟩
  · rintro ⟨front, producer, back, hproduced, rfl, hfront, hname⟩
    rw [hproduced, List.map_append, List.map_cons]
    apply checkClaims_of_split
    · rw [checkClaims_eq_ok_iff, ← nodup_flags_append_iff, List.map_map]
      exact hfront
    · rw [mem_takenNames, List.map_map, ← List.mem_append]
      exact hname

/-! ### Look-up -/

/-- Where no name of the enumeration repeats, each constant is looked up by its name. -/
theorem lookup?_eq_of_nodup {artifacts : Artifacts}
    (h : (artifacts.enumeration.map (·.name)).Nodup) {constant : Constant}
    (hconstant : constant ∈ artifacts.enumeration) :
    artifacts.lookup? constant.name = some constant.code := by
  rw [Artifacts.lookup?, find?_key_eq h hconstant, Option.map_some]

/-! ### The outcome for the constants -/

/-- The flags are identifiers, and so are all constants of an allocated table. -/
theorem identifier_of_mem_enumeration {typeBits : Nat} {table : CodeTable}
    (h : LevelPlaced typeBits .unknown [] table.typeBits table.root table.nodes) :
    ∀ name ∈ table.enumeration.map (·.name), Identifier name := by
  have hproduced : ∀ producer ∈ table.producers, ∀ symbol ∈ producer.symbols,
      Identifier symbol.name := by
    rw [CodeTable.producers, List.forall_mem_cons]
    refine ⟨?_, h.identifier_of_mem_producersOf (List.forall_mem_nil _)⟩
    intro symbol hsymbol
    obtain rfl := List.mem_singleton.mp hsymbol
    refine Layout.identifier_maskName ?_
    rw [h.fits.layout_names]
    exact List.forall_mem_nil _
  intro name hname
  rw [map_name_enumeration, List.mem_append] at hname
  rcases hname with hflag | hname
  · rw [← isIdentifier_iff]
    revert name
    decide
  · obtain ⟨⟨_, producer⟩, hentry, rfl⟩ := List.mem_map.mp hname
    obtain ⟨producer', hproducer, hmem⟩ := List.mem_flatMap.mp hentry
    obtain ⟨symbol, hsymbol, ⟨⟩⟩ := List.mem_map.mp hmem
    exact hproduced producer hproducer symbol hsymbol

/-- The levels of a schema without violation are all placed. -/
theorem Schema.LevelsPass.levelPlaced {schema : Schema} (h : schema.LevelsPass) :
    LevelPlaced schema.table.typeBits .unknown [] schema.table.typeBits schema.table.root
      schema.table.nodes := by
  obtain ⟨htype, hchecks⟩ := (levelsPass_iff schema).mp h
  rw [forM_eq_ok_iff, Schema.sites, List.forall_mem_cons] at hchecks
  exact levelPlaced_of_sites htype schema.types .unknown [] _ _ (Nat.le_refl _)
    (Code.unknown_masked _) ((checkLevel_eq_ok_iff _ _ _ _).mp hchecks.1) hchecks.2

/-- **Only a repeated constant is left to refuse.**  Where no level has a violation, a constant is
refused if and only if a name of the enumeration repeats, and the one that is reported is the first
that an earlier constant has, under the path of the type, or of the level's owner, that produces it.
Otherwise the table is accepted, and its constants are identifiers that stand for one code each. -/
theorem allocate_constants {schema : Schema} (h : schema.LevelsPass) :
    ∃ table, allocateLevels schema = .ok table ∧
      table.enumeration.map Constant.symbol =
        Symbol.flags ++ table.producers.flatMap Producer.symbols ∧
      ((∃ name path, allocate schema = .error (.duplicateConstant name path)) ↔
        ¬(table.enumeration.map (·.name)).Nodup) ∧
      (∀ name path, allocate schema = .error (.duplicateConstant name path) ↔
        table.FirstRepeated name path) ∧
      ((table.enumeration.map (·.name)).Nodup →
        allocate schema = .ok table ∧
          (∀ name ∈ table.enumeration.map (·.name), Identifier name) ∧
          ∀ constant ∈ table.enumeration,
            (Artifacts.ofTable table).lookup? constant.name = some constant.code) := by
  have hallocate := h.allocate_eq
  have hlevels : allocateLevels schema = .ok schema.table := by
    rw [allocateLevels_eq, ((levelsPass_iff schema).mp h).2]
    rfl
  have herror : ∀ name path, allocate schema = .error (.duplicateConstant name path) ↔
      schema.table.FirstRepeated name path := by
    intro name path
    rw [hallocate, ← checkClaims_table_eq_error_iff]
    cases checkClaims takenNames schema.table.claims with
    | error error => simp only [bind, Except.bind, Except.error.injEq]
    | ok u => exact iff_of_false nofun nofun
  have hok : (schema.table.enumeration.map (·.name)).Nodup → allocate schema = .ok schema.table := by
    intro hnodup
    rw [hallocate, (checkClaims_table_eq_ok_iff schema.table).mpr hnodup]
    rfl
  refine ⟨schema.table, hlevels, map_symbol_enumeration _, ?_, herror, ?_⟩
  · constructor
    · rintro ⟨name, path, hduplicate⟩ hnodup
      cases hduplicate.symm.trans (hok hnodup)
    · intro hrepeats
      rcases h.outcome with ⟨table, htable⟩ | hduplicate
      · obtain ⟨-, -, hclaims, -⟩ := (allocate_eq_ok_iff schema table).mp htable
        exact absurd ((checkClaims_table_eq_ok_iff _).mp hclaims) hrepeats
      · exact hduplicate
  · intro hnodup
    exact ⟨hok hnodup, identifier_of_mem_enumeration h.levelPlaced,
      fun constant hconstant => lookup?_eq_of_nodup hnodup hconstant⟩

/-- A taxonomy in which two types on different levels produce the same constant. -/
def Schema.colliding : Schema :=
  { typeBits := 13
    bitCount := 3
    types :=
      [.branch ⟨"A", .none, "A", none, ""⟩ 2 [.leaf ⟨"B_C", .none, "B C", none, ""⟩],
        .branch ⟨"A_B", .none, "A B", none, ""⟩ 2 [.leaf ⟨"C", .none, "C", none, ""⟩]] }

/-- The second of the two types is the one that is reported. -/
theorem constants_colliding : Schema.colliding.LevelsPass ∧
    ∃ table, allocateLevels Schema.colliding = .ok table ∧
      table.FirstRepeated "A_B_C" "A_B.C" ∧ ¬(table.enumeration.map (·.name)).Nodup := by
  have hpass : Schema.colliding.LevelsPass :=
    (levelsPass_iff _).mpr ⟨by decide, by decide +kernel⟩
  have hrefused : allocate Schema.colliding = .error (.duplicateConstant "A_B_C" "A_B.C") := by
    decide +kernel
  obtain ⟨table, hlevels, -, hrepeats, hfirst, -⟩ := allocate_constants hpass
  exact ⟨hpass, table, hlevels, (hfirst _ _).mp hrefused, hrepeats.mp ⟨_, _, hrefused⟩⟩

end PlugTaxonomy
