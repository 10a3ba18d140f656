import PlugTaxonomy.Proofs.Allocation.Level
import PlugTaxonomy.Proofs.Allocation.Placement
import PlugTaxonomy.Proofs.Code.Mask
import PlugTaxonomy.Proofs.Tree
import Mathlib.Data.List.Nodup

/-!
# The layout of allocated tables

What allocation guarantees of a table is said level by level.  A level takes the bits right
below those of its owner; each type on it has the owner's code with a selector value from one on
put in, and no two types have the same one.

* `LevelFits` — one level of a table: its bits, its mask, the slots on it and their names;
* `LevelPlaced` — a level that fits, with all levels below it;
* `levelPlaced_of_allocate` — an accepted schema has a table whose levels are all placed;
* `LevelFits.code_masked`, `code_masked_owner`, `code_ne_owner`, `eq_of_code_eq` — what the codes
  on a level are like: the mask of the level keeps them, the mask above gives the owner, and all
  of them differ from one another and from the owner.
-/

namespace PlugTaxonomy

/-- A level of a table, given its owner's code and names and the bits that remain for it. -/
structure LevelFits (typeBits : Nat) (owner : Code) (names : List String) (remaining : Nat)
    (layout : Layout) (nodes : List TableNode) : Prop where
  typeBits_le : typeBits ≤ Code.maxTypeBits
  remaining_le : remaining ≤ typeBits
  /-- The owner takes no bit of those that remain. -/
  owner_masked : owner.masked (Code.categoryMask remaining typeBits) = owner
  layout_names : layout.names = names
  bitCount_pos : 0 < layout.bitCount
  offset_add_bitCount : layout.offset + layout.bitCount = remaining
  mask_eq : layout.mask = Code.categoryMask layout.offset typeBits
  nonempty : nodes ≠ []
  length_lt : nodes.length < 2 ^ layout.bitCount
  /-- Selector values count the types from one on. -/
  indices : nodes.map (·.value.index) = List.range' 1 nodes.length
  slots : ∀ node ∈ nodes, node.value = Slot.place layout owner node.value.index node.value.info
  identifiers : ∀ node ∈ nodes,
    Identifier node.value.info.name ∧ ∀ usage ∈ node.value.info.usage, Identifier usage
  distinct : (nodes.map (·.value.info.name)).Nodup

/-- A level that fits, and below each type on it a level that does. -/
inductive LevelPlaced (typeBits : Nat) :
    Code → List String → Nat → Layout → List TableNode → Prop where
  | intro {owner : Code} {names : List String} {remaining : Nat} {layout : Layout}
      {nodes : List TableNode} (fits : LevelFits typeBits owner names remaining layout nodes)
      (below : ∀ slot layout' children, Tree.branch slot layout' children ∈ nodes →
        LevelPlaced typeBits slot.code slot.names layout.offset layout' children) :
      LevelPlaced typeBits owner names remaining layout nodes

/-! ### The codes on a level -/

namespace LevelFits

variable {typeBits : Nat} {owner : Code} {names : List String} {remaining : Nat}
  {layout : Layout} {nodes : List TableNode}

theorem offset_le (h : LevelFits typeBits owner names remaining layout nodes) :
    layout.offset ≤ remaining := by
  have hsum := h.offset_add_bitCount
  omega

/-- The selector value of a type on a level lies between one and the last that fits. -/
theorem index_bounds (h : LevelFits typeBits owner names remaining layout nodes)
    {node : TableNode} (hnode : node ∈ nodes) :
    1 ≤ node.value.index ∧ node.value.index < 2 ^ layout.bitCount := by
  have hmem : node.value.index ∈ List.range' 1 nodes.length := by
    rw [← h.indices]
    exact List.mem_map_of_mem hnode
  rw [List.mem_range'_1] at hmem
  have hlength := h.length_lt
  omega

theorem code_eq (h : LevelFits typeBits owner names remaining layout nodes)
    {node : TableNode} (hnode : node ∈ nodes) :
    node.value.code = owner.union (Code.ofNat (node.value.index <<< layout.offset)) := by
  conv_lhs => rw [h.slots node hnode]
  rfl

theorem categoryMask_eq (h : LevelFits typeBits owner names remaining layout nodes)
    {node : TableNode} (hnode : node ∈ nodes) :
    node.value.categoryMask = Code.categoryMask layout.offset typeBits := by
  rw [h.slots node hnode, ← h.mask_eq]
  rfl

/-- The mask of a level keeps the codes on it. -/
theorem code_masked (h : LevelFits typeBits owner names remaining layout nodes)
    {node : TableNode} (hnode : node ∈ nodes) :
    node.value.code.masked (Code.categoryMask layout.offset typeBits) = node.value.code := by
  have howner := h.owner_masked
  rw [← h.offset_add_bitCount] at howner
  have hfit : layout.offset + layout.bitCount ≤ typeBits := h.offset_add_bitCount ▸ h.remaining_le
  rw [h.code_eq hnode]
  exact Code.masked_place h.typeBits_le hfit howner (h.index_bounds hnode).2

/-- The mask above a level gives the owner of the codes on it. -/
theorem code_masked_owner (h : LevelFits typeBits owner names remaining layout nodes)
    {node : TableNode} (hnode : node ∈ nodes) :
    node.value.code.masked (Code.categoryMask remaining typeBits) = owner := by
  have howner := h.owner_masked
  rw [← h.offset_add_bitCount] at howner ⊢
  rw [h.code_eq hnode]
  exact Code.masked_place_owner howner (h.index_bounds hnode).2

/-- The mask of a level keeps the code of the level's owner. -/
theorem owner_masked_mask (h : LevelFits typeBits owner names remaining layout nodes) :
    owner.masked layout.mask = owner := by
  conv_lhs => rw [← h.owner_masked]
  rw [h.mask_eq, Code.masked_masked, Code.categoryMask_masked, Nat.max_eq_left h.offset_le,
    Nat.min_self, h.owner_masked]

/-- What the mask of a level takes to the owner, the mask above takes there too. -/
theorem masked_owner (h : LevelFits typeBits owner names remaining layout nodes) {c : Code}
    (hc : c.masked layout.mask = owner) :
    c.masked (Code.categoryMask remaining typeBits) = owner := by
  have howner := h.owner_masked
  rw [← hc, h.mask_eq, Code.masked_masked_of_le c typeBits h.offset_le, ← h.mask_eq, hc] at howner
  exact howner

/-- The selector of a level holds the selector value in the codes on the level. -/
theorem selector_code (h : LevelFits typeBits owner names remaining layout nodes)
    {node : TableNode} (hnode : node ∈ nodes) :
    node.value.code.selector layout.offset layout.bitCount = node.value.index := by
  have howner := h.owner_masked
  have hword : layout.offset + layout.bitCount ≤ 16 := by
    have htype : typeBits ≤ 13 := h.typeBits_le
    have hremaining := h.remaining_le
    rw [h.offset_add_bitCount]
    omega
  rw [← h.offset_add_bitCount] at howner
  rw [h.code_eq hnode]
  exact Code.selector_place hword howner (h.index_bounds hnode).2

theorem typeCode_code (h : LevelFits typeBits owner names remaining layout nodes)
    {node : TableNode} (hnode : node ∈ nodes) :
    node.value.code.typeCode = node.value.code :=
  Code.typeCode_eq_self h.typeBits_le (h.code_masked hnode)

theorem typeCode_owner (h : LevelFits typeBits owner names remaining layout nodes) :
    owner.typeCode = owner :=
  Code.typeCode_eq_self h.typeBits_le h.owner_masked

/-- No type on a level has the code of the level's owner, whose selector is zero. -/
theorem code_ne_owner (h : LevelFits typeBits owner names remaining layout nodes)
    {node : TableNode} (hnode : node ∈ nodes) : node.value.code ≠ owner := by
  intro heq
  have howner := h.owner_masked
  rw [← h.offset_add_bitCount] at howner
  have hzero := Code.selector_owner howner
  rw [← heq, h.selector_code hnode] at hzero
  have hpos := (h.index_bounds hnode).1
  omega

theorem nodup_indices (h : LevelFits typeBits owner names remaining layout nodes) :
    (nodes.map (·.value.index)).Nodup := by
  rw [h.indices]
  exact List.nodup_range'

/-- Types on one level with the same code are the same. -/
theorem eq_of_code_eq (h : LevelFits typeBits owner names remaining layout nodes)
    {node node' : TableNode} (hnode : node ∈ nodes) (hnode' : node' ∈ nodes)
    (heq : node.value.code = node'.value.code) : node = node' := by
  have hindex : node.value.index = node'.value.index := by
    rw [← h.selector_code hnode, ← h.selector_code hnode', heq]
  exact List.inj_on_of_nodup_map h.nodup_indices hnode hnode' hindex

/-- The codes on a level are pairwise different. -/
theorem nodup_codes (h : LevelFits typeBits owner names remaining layout nodes) :
    (nodes.map (·.value.code)).Nodup := by
  have hnodup : nodes.Nodup := h.nodup_indices.of_map _
  exact hnodup.map_on fun node hnode node' hnode' => h.eq_of_code_eq hnode hnode'

end LevelFits

/-! ### Placement -/

theorem value_placeNode (typeBits : Nat) (layout : Layout) (owner : Code) (index : Nat)
    (type : TypeNode) :
    (placeNode typeBits layout owner index type).value =
      Slot.place layout owner index type.value := by
  cases type <;> rfl

/-- Siblings are placed one by one, with consecutive selector values. -/
theorem placeNodes_eq_map (typeBits : Nat) (layout : Layout) (owner : Code) (index : Nat)
    (types : List TypeNode) :
    placeNodes typeBits layout owner index types =
      (types.zipIdx index).map fun entry => placeNode typeBits layout owner entry.2 entry.1 := by
  induction types generalizing index with
  | nil => rfl
  | cons type types ih => rw [placeNodes, ih, List.zipIdx_cons, List.map_cons]

mutual

/-- Placement keeps the declarations of all types, and their order. -/
theorem map_info_preorder_placeNode (typeBits : Nat) (layout : Layout) (owner : Code) (index : Nat)
    (type : TypeNode) :
    (placeNode typeBits layout owner index type).preorder.map (·.value.info) =
      type.preorder.map (·.value) := by
  cases type with
  | leaf info => rfl
  | branch info bitCount children =>
    simp only [placeNode, Tree.preorder, List.map_cons, map_info_preorders_placeNodes]
    rfl

theorem map_info_preorders_placeNodes (typeBits : Nat) (layout : Layout) (owner : Code)
    (index : Nat) (types : List TypeNode) :
    (Tree.preorders (placeNodes typeBits layout owner index types)).map (·.value.info) =
      (Tree.preorders types).map (·.value) := by
  cases types with
  | nil => rfl
  | cons type types =>
    simp only [placeNodes, Tree.preorders, List.map_append, map_info_preorders_placeNodes,
      map_info_preorder_placeNode]

end

/-- The table of an accepted schema has the declarations of the schema, in the same order. -/
theorem map_info_preorder {schema : Schema} {table : CodeTable}
    (h : allocate schema = .ok table) :
    table.preorder.map (·.value.info) = (Tree.preorders schema.types).map (·.value) := by
  obtain ⟨-, -, -, rfl⟩ := (allocate_eq_ok_iff schema table).mp h
  exact map_info_preorders_placeNodes _ _ _ _ _

section Placement

variable (typeBits : Nat) (layout : Layout) (owner : Code) (types : List TypeNode)

/-- The declarations of the types come out unchanged and in order. -/
theorem map_info_placeNodes :
    (placeNodes typeBits layout owner 1 types).map (·.value.info) = types.map (·.value) := by
  rw [placeNodes_eq_map, List.map_map]
  have hinfo : ((fun node : TableNode => node.value.info) ∘ fun entry : TypeNode × Nat =>
      placeNode typeBits layout owner entry.2 entry.1) = (fun type => type.value) ∘ Prod.fst := by
    funext entry
    exact congrArg Slot.info (value_placeNode typeBits layout owner entry.2 entry.1)
  rw [hinfo, ← List.map_map, List.zipIdx_map_fst]

theorem map_index_placeNodes :
    (placeNodes typeBits layout owner 1 types).map (·.value.index) =
      List.range' 1 types.length := by
  rw [placeNodes_eq_map, List.map_map]
  have hindex : ((fun node : TableNode => node.value.index) ∘ fun entry : TypeNode × Nat =>
      placeNode typeBits layout owner entry.2 entry.1) = Prod.snd := by
    funext entry
    exact congrArg Slot.index (value_placeNode typeBits layout owner entry.2 entry.1)
  rw [hindex, List.zipIdx_map_snd]

variable {typeBits layout owner types}

/-- A placed type comes from a declared one. -/
theorem exists_of_mem_placeNodes {node : TableNode}
    (hnode : node ∈ placeNodes typeBits layout owner 1 types) :
    ∃ type ∈ types, ∃ index, node = placeNode typeBits layout owner index type := by
  rw [placeNodes_eq_map] at hnode
  obtain ⟨⟨type, index⟩, hentry, rfl⟩ := List.mem_map.mp hnode
  exact ⟨type, List.fst_mem_of_mem_zipIdx hentry, index, rfl⟩

end Placement

/-- A name or usage that is declared on a level. -/
theorem mem_declaredNames {types : List TypeNode} {type : TypeNode} (htype : type ∈ types) :
    type.value.name ∈ declaredNames types ∧
      ∀ usage ∈ type.value.usage, usage ∈ declaredNames types := by
  simp only [declaredNames, List.mem_flatMap, List.mem_cons, Option.mem_toList]
  exact ⟨⟨type, htype, Or.inl rfl⟩, fun usage husage => ⟨type, htype, Or.inr husage⟩⟩

/-- A level that passes its checks fits where it is placed. -/
theorem levelFits_of_passes {typeBits : Nat} {owner : Code} (names : List String)
    {remaining bitCount : Nat} {types : List TypeNode} (htype : typeBits ≤ Code.maxTypeBits)
    (hremaining : remaining ≤ typeBits)
    (howner : owner.masked (Code.categoryMask remaining typeBits) = owner)
    (hpasses : LevelPasses remaining bitCount types) :
    LevelFits typeBits owner names remaining (Layout.place typeBits names remaining bitCount)
      (placeNodes typeBits (Layout.place typeBits names remaining bitCount) owner 1 types) where
  typeBits_le := htype
  remaining_le := hremaining
  owner_masked := howner
  layout_names := rfl
  bitCount_pos := hpasses.bitCount_pos
  offset_add_bitCount := Nat.sub_add_cancel hpasses.fits
  mask_eq := rfl
  nonempty := by
    rw [placeNodes_eq_map, Ne, List.map_eq_nil_iff, List.zipIdx_eq_nil_iff]
    exact hpasses.nonempty
  length_lt := by
    have hroom := hpasses.room
    have hpos := Nat.two_pow_pos bitCount
    rw [placeNodes_eq_map, List.length_map, List.length_zipIdx]
    show types.length < 2 ^ bitCount
    omega
  indices := by
    rw [map_index_placeNodes, placeNodes_eq_map, List.length_map, List.length_zipIdx]
  slots := by
    intro node hnode
    obtain ⟨type, -, index, rfl⟩ := exists_of_mem_placeNodes hnode
    rw [value_placeNode]
    rfl
  identifiers := by
    intro node hnode
    obtain ⟨type, hmem, index, rfl⟩ := exists_of_mem_placeNodes hnode
    obtain ⟨hname, husage⟩ := mem_declaredNames hmem
    rw [value_placeNode]
    exact ⟨hpasses.names _ hname, fun usage h => hpasses.names usage (husage usage h)⟩
  distinct := by
    have hnames := congrArg (List.map TypeInfo.name) (map_info_placeNodes typeBits
      (Layout.place typeBits names remaining bitCount) owner types)
    rw [List.map_map, List.map_map] at hnames
    show (List.map (TypeInfo.name ∘ fun node : TableNode => node.value.info) _).Nodup
    rw [hnames]
    exact hpasses.distinct

/-- The sites below a type are among those of its level. -/
theorem mem_sitesOf {owner : List String} {remaining : Nat} {types : List TypeNode}
    {type : TypeNode} {site : LevelSite} (htype : type ∈ types)
    (hsite : site ∈ type.sites owner remaining) :
    site ∈ TypeNode.sitesOf owner remaining types := by
  induction types with
  | nil => cases htype
  | cons first types ih =>
    rw [TypeNode.sitesOf, List.mem_append]
    rcases List.mem_cons.mp htype with rfl | htype
    · exact Or.inl hsite
    · exact Or.inr (ih htype)

/-- Levels that all pass their checks are all placed. -/
theorem levelPlaced_of_sites {typeBits : Nat} (htype : typeBits ≤ Code.maxTypeBits)
    (types : List TypeNode) :
    ∀ (owner : Code) (names : List String) (remaining bitCount : Nat), remaining ≤ typeBits →
      owner.masked (Code.categoryMask remaining typeBits) = owner →
      LevelPasses remaining bitCount types →
      (∀ site ∈ TypeNode.sitesOf names (remaining - bitCount) types, site.check = .ok ()) →
      LevelPlaced typeBits owner names remaining (Layout.place typeBits names remaining bitCount)
        (placeNodes typeBits (Layout.place typeBits names remaining bitCount) owner 1 types) := by
  induction types using Tree.level_induction with
  | step types ih =>
    intro owner names remaining bitCount hremaining howner hpasses hsites
    have hfits := levelFits_of_passes names htype hremaining howner hpasses
    refine LevelPlaced.intro hfits ?_
    intro slot layout' children hmem
    have hmasked := hfits.code_masked hmem
    have hoffset := hfits.offset_le
    obtain ⟨type, hdeclared, index, hplaced⟩ := exists_of_mem_placeNodes hmem
    cases type with
    | leaf info => cases hplaced
    | branch info bits below =>
      obtain ⟨rfl, rfl, rfl⟩ := Tree.branch.inj hplaced
      have hbelow : ∀ site ∈ TypeNode.sites names (remaining - bitCount)
          (.branch info bits below), site.check = .ok () :=
        fun site hsite => hsites site (mem_sitesOf hdeclared hsite)
      rw [TypeNode.sites] at hbelow
      have hhere := (checkLevel_eq_ok_iff _ _ _ _).mp (hbelow _ List.mem_cons_self)
      exact ih info bits below hdeclared _ _ _ _ (Nat.le_trans hoffset hremaining) hmasked hhere
        fun site hsite => hbelow site (List.mem_cons_of_mem _ hsite)

/-- **Tables are laid out level by level.**  All levels of the table of an accepted schema are
placed, the root level at the top of the type field. -/
theorem levelPlaced_of_allocate {schema : Schema} {table : CodeTable}
    (h : allocate schema = .ok table) :
    LevelPlaced table.typeBits .unknown [] table.typeBits table.root table.nodes := by
  obtain ⟨htype, hsites, -, rfl⟩ := (allocate_eq_ok_iff schema table).mp h
  rw [Schema.sites, List.forall_mem_cons] at hsites
  exact levelPlaced_of_sites htype schema.types .unknown [] _ _ (Nat.le_refl _)
    (Code.unknown_masked _) ((checkLevel_eq_ok_iff _ _ _ _).mp hsites.1) hsites.2

/-- A taxonomy whose branches have selectors of different widths, on a type field that no path
takes in full. -/
def Schema.sample : Schema :=
  { typeBits := 9
    bitCount := 2
    types :=
      [.branch ⟨"BINARY", .toggle, "Binary", some "OFF_ON", ""⟩ 3
        [.leaf ⟨"SWITCH", .none, "Switch", none, ""⟩,
          .branch ⟨"POWER", .compatible, "Power", none, ""⟩ 2
            [.leaf ⟨"LIGHT", .command, "Light", none, ""⟩,
              .leaf ⟨"FAN", .command, "Fan", some "SPEED", ""⟩]],
        .branch ⟨"ENCODER", .none, "Encoder", none, ""⟩ 1
          [.leaf ⟨"ROTARY", .none, "Rotary", some "STEPS", ""⟩],
        .leaf ⟨"LEVEL", .none, "Level", none, ""⟩] }

theorem allocate_sample : allocate Schema.sample = .ok Schema.sample.table := by
  decide +kernel

end PlugTaxonomy
