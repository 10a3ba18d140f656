import PlugTaxonomy.Allocation.Site

/-!
# Allocation as checks and placement

Allocation checks a level, gives its types their codes, and goes on with the level below each
of them.  The two concerns come apart: first all levels are checked in the order of the visits,
and what remains is a plain function from schemas to tables that cannot fail.

* `placeNode`, `placeNodes`, `Schema.table` — the table of a schema, nothing being checked;
* `allocateLevels_eq` — allocation is the check of all sites, followed by the placement;
* `allocate_eq_ok_iff` — a schema is accepted if and only if each site passes and no constant
  is taken twice, and its table is then the one of the placement.
-/

namespace PlugTaxonomy

/-! ### Placement -/

mutual

/-- The slot of a type and the places of all types below it. -/
def placeNode (typeBits : Nat) (layout : Layout) (owner : Code) (index : Nat) :
    TypeNode → TableNode
  | .leaf info => .leaf (Slot.place layout owner index info)
  | .branch info bitCount children =>
    let slot := Slot.place layout owner index info
    let below := Layout.place typeBits slot.names layout.offset bitCount.toNat
    .branch slot below (placeNodes typeBits below slot.code 1 children)

/-- The places of siblings, their selector values counted from an index on. -/
def placeNodes (typeBits : Nat) (layout : Layout) (owner : Code) (index : Nat) :
    List TypeNode → List TableNode
  | [] => []
  | type :: types =>
    placeNode typeBits layout owner index type ::
      placeNodes typeBits layout owner (index + 1) types

end

/-- The layout of the root level. -/
def Schema.rootLayout (schema : Schema) : Layout :=
  Layout.place schema.typeBits.toNat [] schema.typeBits.toNat schema.bitCount.toNat

/-- The table of a schema, whether its levels pass their checks or not. -/
def Schema.table (schema : Schema) : CodeTable :=
  { typeBits := schema.typeBits.toNat
    root := schema.rootLayout
    nodes := placeNodes schema.typeBits.toNat schema.rootLayout .unknown 1 schema.types }

/-! ### Checks in order -/

/-- Checks of which all pass, and then a value: the value comes out. -/
theorem forM_eq_ok_iff {α ε : Type} (check : α → Except ε Unit) (items : List α) :
    forM items check = .ok () ↔ ∀ item ∈ items, check item = .ok () := by
  induction items with
  | nil => simp [pure, Except.pure]
  | cons item items ih =>
    rw [List.forM_cons, List.forall_mem_cons, ← ih]
    cases check item <;> simp [bind, Except.bind]

/-- Checks that fail do so at the first one that does not pass. -/
theorem exists_of_forM_eq_error {α ε : Type} {check : α → Except ε Unit} {items : List α}
    {error : ε} (h : forM items check = .error error) :
    ∃ before item after, items = before ++ item :: after ∧
      (∀ earlier ∈ before, check earlier = .ok ()) ∧ check item = .error error := by
  induction items with
  | nil => cases h
  | cons first items ih =>
    rw [List.forM_cons] at h
    cases hfirst : check first with
    | error e =>
      rw [hfirst] at h
      exact ⟨[], first, items, rfl, nofun, hfirst.trans h⟩
    | ok u =>
      rw [hfirst] at h
      obtain ⟨before, item, after, rfl, hbefore, hitem⟩ := ih h
      exact ⟨first :: before, item, after, rfl, List.forall_mem_cons.mpr ⟨hfirst, hbefore⟩, hitem⟩

/-- Checks fail with the error of the first one that fails. -/
theorem forM_eq_error_iff {α ε : Type} (check : α → Except ε Unit) (items : List α) (error : ε) :
    forM items check = .error error ↔
      ∃ before item after, items = before ++ item :: after ∧
        (∀ earlier ∈ before, check earlier = .ok ()) ∧ check item = .error error := by
  constructor
  · exact exists_of_forM_eq_error
  · rintro ⟨before, item, after, rfl, hbefore, hitem⟩
    rw [List.forM_append, (forM_eq_ok_iff check before).mpr hbefore, List.forM_cons, hitem]
    rfl

/-! ### Allocation -/

section Nodes

variable (typeBits : Nat)

mutual

/-- The levels below a type are checked in order, and then its codes are placed. -/
theorem allocateNode_eq (layout : Layout) (owner : Code) (index : Nat) (type : TypeNode) :
    allocateNode typeBits layout owner index type =
      (do
        forM (type.sites layout.names layout.offset) LevelSite.check
        return placeNode typeBits layout owner index type) := by
  cases type with
  | leaf info => rfl
  | branch info bitCount children =>
    simp only [allocateNode, allocateNodes_eq, placeNode, TypeNode.sites, List.forM_cons,
      bind_assoc, pure_bind]
    rfl

theorem allocateNodes_eq (layout : Layout) (owner : Code) (index : Nat) (types : List TypeNode) :
    allocateNodes typeBits layout owner index types =
      (do
        forM (TypeNode.sitesOf layout.names layout.offset types) LevelSite.check
        return placeNodes typeBits layout owner index types) := by
  cases types with
  | nil => rfl
  | cons type types =>
    rw [allocateNodes, allocateNode_eq layout owner index type,
      allocateNodes_eq layout owner (index + 1) types]
    simp only [placeNodes, TypeNode.sitesOf, List.forM_append, bind_assoc, pure_bind]

end

end Nodes

/-- All sites of a schema are checked in order, and then the table is placed. -/
theorem allocateLevels_eq (schema : Schema) :
    allocateLevels schema =
      (do
        forM schema.sites LevelSite.check
        return schema.table) := by
  simp only [allocateLevels, allocateNodes_eq, Schema.sites, List.forM_cons, bind_assoc,
    pure_bind]
  rfl

/-- The constants that no table may produce a second time. -/
def takenNames : Std.TreeSet String :=
  .ofList (Symbol.flags.map (·.name))

/-- Behind the check of the type field come those of all sites, and then those of the
constants. -/
theorem allocate_eq (schema : Schema) :
    allocate schema =
      if Code.maxTypeBits < schema.typeBits.toNat then
        .error (.typeBitsTooWide schema.typeBits.toNat Code.maxTypeBits)
      else do
        forM schema.sites LevelSite.check
        checkClaims takenNames schema.table.claims
        return schema.table := by
  rw [allocate]
  split
  · rfl
  · simp only [allocateLevels_eq, bind_assoc, pure_bind]
    rfl

/-- A schema is accepted with the table of its placement, or not at all. -/
theorem allocate_eq_ok_iff (schema : Schema) (table : CodeTable) :
    allocate schema = .ok table ↔
      schema.typeBits.toNat ≤ Code.maxTypeBits ∧ (∀ site ∈ schema.sites, site.check = .ok ()) ∧
        checkClaims takenNames schema.table.claims = .ok () ∧ table = schema.table := by
  rw [allocate_eq, ← forM_eq_ok_iff]
  split
  · rename_i hwide
    simp [Nat.not_le.mpr hwide]
  · rename_i hwide
    rw [and_iff_right (Nat.not_lt.mp hwide)]
    cases forM schema.sites LevelSite.check with
    | error e => simp [bind, Except.bind]
    | ok u =>
      cases checkClaims takenNames schema.table.claims with
      | error e => simp [bind, Except.bind]
      | ok v => simp [bind, Except.bind, pure, Except.pure, eq_comm]

/-- What is wrong with the constants is that one of them is taken twice. -/
theorem exists_of_checkClaims_eq_error {taken : Std.TreeSet String}
    {claims : List (String × String)} {error : AllocationError}
    (h : checkClaims taken claims = .error error) :
    ∃ name path, error = .duplicateConstant name path := by
  induction claims generalizing taken with
  | nil => cases h
  | cons claim claims ih =>
    rw [checkClaims] at h
    split at h
    · obtain rfl := Except.error.inj h
      exact ⟨_, _, rfl⟩
    · exact ih h

end PlugTaxonomy
