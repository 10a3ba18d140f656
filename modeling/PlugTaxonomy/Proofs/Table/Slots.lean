import PlugTaxonomy.Proofs.Table.Chain
import Mathlib.Data.Nat.Bitwise

/-!
# Slots of levels and types

An allocated table cuts the type field into slots.  The root level takes the topmost bits, each
level below takes the bits right under its owner's level, and a type is its owner's code with its
place among the siblings written into the slot.

* `TableLevel`, `CodeTable.levels` — a level with its owner's code and the position that its bits
  reach up to, and all levels of a table in pre-order;
* `TableLevel.SlotLayout` — what is promised of one level and of the types on it;
* `LevelFits.code_ne_unknown` — no type has the code of no type;
* `LevelPlaced.placed_levelsOf` — the levels below a placed level are placed;
* `LevelPlaced.nodup_codes` — no two types on a level or below it have the same code;
* `allocate_slot_layout` — all levels of the table of an accepted schema are laid out like that, so
  masks tell the types apart.
-/

namespace PlugTaxonomy

/-! ### Levels of a table -/

/-- A level of a table, and where it stands. -/
structure TableLevel where
  /-- The code of the type that owns the level, no code at all for the root level. -/
  owner : Code
  /-- The offset of the level that the owner stands on, the width of the type field for the root
  level. -/
  top : Nat
  layout : Layout
  nodes : List TableNode

mutual

/-- The levels below a type, given the offset of the level that it stands on. -/
def TableNode.levels (offset : Nat) : TableNode → List TableLevel
  | .leaf _ => []
  | .branch slot layout children =>
    ⟨slot.code, offset, layout, children⟩ :: TableNode.levelsOf layout.offset children

/-- The levels below the types of a list. -/
def TableNode.levelsOf (offset : Nat) : List TableNode → List TableLevel
  | [] => []
  | node :: nodes => node.levels offset ++ TableNode.levelsOf offset nodes

end

/-- All levels of a table in pre-order. -/
def CodeTable.levels (table : CodeTable) : List TableLevel :=
  ⟨.unknown, table.typeBits, table.root, table.nodes⟩ ::
    TableNode.levelsOf table.root.offset table.nodes

theorem TableNode.mem_levelsOf {offset : Nat} {nodes : List TableNode} {level : TableLevel} :
    level ∈ TableNode.levelsOf offset nodes ↔ ∃ node ∈ nodes, level ∈ node.levels offset := by
  induction nodes with
  | nil => simp [TableNode.levelsOf]
  | cons node nodes ih =>
    simp only [TableNode.levelsOf, List.mem_append, ih, List.mem_cons, exists_eq_or_imp]

/-- The slots of a level: its selector reaches from its offset up to the top that is left to it, its
mask from there up to the top of the type field, and the types on it count from one on. -/
structure TableLevel.SlotLayout (typeBits : Nat) (level : TableLevel) : Prop where
  offset_add_bitCount : level.layout.offset + level.layout.bitCount = level.top
  bitCount_pos : 1 ≤ level.layout.bitCount
  mask_bit : ∀ i, level.layout.mask.bit i = true ↔ level.layout.offset ≤ i ∧ i < typeBits
  index_eq : ∀ i node, level.nodes[i]? = some node → node.value.index = i + 1
  index_bounds : ∀ node ∈ level.nodes,
    1 ≤ node.value.index ∧ node.value.index < 2 ^ level.layout.bitCount
  categoryMask_eq : ∀ node ∈ level.nodes, node.value.categoryMask = level.layout.mask
  code_eq : ∀ node ∈ level.nodes, node.value.code.toNat =
    level.owner.toNat ||| node.value.index <<< level.layout.offset
  code_lt : ∀ node ∈ level.nodes, node.value.code.toNat < 2 ^ typeBits
  low_bits : ∀ node ∈ level.nodes, node.value.code.toNat % 2 ^ level.layout.offset = 0

/-! ### One level -/

namespace LevelFits

variable {typeBits : Nat} {owner : Code} {names : List String} {remaining : Nat}
  {layout : Layout} {nodes : List TableNode}

/-- The selector values of a level stay within the word. -/
theorem index_shift_lt (h : LevelFits typeBits owner names remaining layout nodes)
    {node : TableNode} (hnode : node ∈ nodes) : node.value.index <<< layout.offset < 2 ^ 16 := by
  have htype : typeBits ≤ 13 := h.typeBits_le
  have hremaining := h.remaining_le
  have hsum := h.offset_add_bitCount
  have hindex := (h.index_bounds hnode).2
  calc node.value.index <<< layout.offset
      < 2 ^ (layout.bitCount + layout.offset) := Nat.shiftLeft_lt hindex
    _ ≤ 2 ^ 16 := Nat.pow_le_pow_right (by omega) (by omega)

/-- The code of a type on a level is not that of no type, since its selector value is not zero. -/
theorem code_ne_unknown (h : LevelFits typeBits owner names remaining layout nodes)
    {node : TableNode} (hnode : node ∈ nodes) : node.value.code ≠ .unknown := by
  intro hcode
  have hindex := h.selector_code hnode
  have hpos := (h.index_bounds hnode).1
  rw [hcode, Code.selector_owner (Code.unknown_masked (Code.categoryMask _ typeBits))] at hindex
  omega

/-- A level that fits has the layout of its slots. -/
theorem slotLayout (h : LevelFits typeBits owner names remaining layout nodes) :
    TableLevel.SlotLayout typeBits ⟨owner, remaining, layout, nodes⟩ where
  offset_add_bitCount := h.offset_add_bitCount
  bitCount_pos := h.bitCount_pos
  mask_bit := by
    intro i
    have htype : typeBits ≤ 13 := h.typeBits_le
    show layout.mask.bit i = true ↔ layout.offset ≤ i ∧ i < typeBits
    rw [h.mask_eq, Code.bit_categoryMask, decide_eq_true_iff]
    omega
  index_eq := by
    intro i node hnode
    have hindex : (nodes.map (·.value.index))[i]? = some node.value.index := by
      rw [List.getElem?_map, hnode, Option.map_some]
    obtain ⟨hlt, -⟩ := List.getElem?_eq_some_iff.mp hnode
    rw [h.indices, List.getElem?_range' hlt, Option.some.injEq] at hindex
    omega
  index_bounds := fun node hnode => h.index_bounds hnode
  categoryMask_eq := by
    intro node hnode
    rw [h.categoryMask_eq hnode, h.mask_eq]
  code_eq := by
    intro node hnode
    rw [h.code_eq hnode]
    exact Code.toNat_union_ofNat owner (h.index_shift_lt hnode)
  code_lt := fun node hnode => Code.toNat_lt_of_masked (h.code_masked hnode)
  low_bits := fun node hnode => Code.toNat_mod_of_masked (h.code_masked hnode)

end LevelFits

/-! ### All levels -/

namespace LevelPlaced

variable {typeBits : Nat} {owner : Code} {names : List String} {remaining : Nat}
  {layout : Layout} {nodes : List TableNode}

/-- All levels below a placed level are placed. -/
theorem placed_levelsOf (h : LevelPlaced typeBits owner names remaining layout nodes) :
    ∀ level ∈ TableNode.levelsOf layout.offset nodes,
      ∃ names', LevelPlaced typeBits level.owner names' level.top level.layout level.nodes := by
  induction h with
  | intro fits below ih =>
    intro level hlevel
    obtain ⟨node, hnode, hmem⟩ := TableNode.mem_levelsOf.mp hlevel
    cases node with
    | leaf slot => cases hmem
    | branch slot layout' children =>
      rw [TableNode.levels] at hmem
      rcases List.mem_cons.mp hmem with rfl | hmem
      · exact ⟨slot.names, below slot layout' children hnode⟩
      · exact ih slot layout' children hnode level hmem

/-- A placed level and all levels below it are placed. -/
theorem placed_levels (h : LevelPlaced typeBits owner names remaining layout nodes) :
    ∀ level ∈ ⟨owner, remaining, layout, nodes⟩ :: TableNode.levelsOf layout.offset nodes,
      ∃ names', LevelPlaced typeBits level.owner names' level.top level.layout level.nodes :=
  List.forall_mem_cons.mpr ⟨⟨names, h⟩, h.placed_levelsOf⟩

/-- All levels below a placed level have the layout of their slots. -/
theorem slotLayout_levelsOf (h : LevelPlaced typeBits owner names remaining layout nodes) :
    ∀ level ∈ TableNode.levelsOf layout.offset nodes, level.SlotLayout typeBits := by
  intro level hlevel
  obtain ⟨names', hplaced⟩ := h.placed_levelsOf level hlevel
  exact hplaced.fits.slotLayout

/-- The codes of all types on a level and below it are pairwise different. -/
theorem nodup_codes (h : LevelPlaced typeBits owner names remaining layout nodes) :
    ((Tree.preorders nodes).map (·.value.code)).Nodup := by
  induction h with
  | @intro owner names remaining layout nodes fits below ih =>
    have h := LevelPlaced.intro fits below
    rw [Tree.preorders_eq_flatMap, List.map_flatMap, List.nodup_flatMap]
    constructor
    · intro node hnode
      rw [Tree.preorder_eq, List.map_cons, List.nodup_cons]
      constructor
      · -- the code of a type lies in nothing below the type
        intro hmem
        obtain ⟨sub, hsub, hcode⟩ := List.mem_map.mp hmem
        have hchain := h.chain_children_eq_nil hnode (fits.typeCode_code hnode)
        have hpreorder : sub ∈ Tree.preorders nodes :=
          Tree.mem_preorders_iff.mpr ⟨node, hnode, Or.inr hsub⟩
        have hcovers := h.covers_self hpreorder
        rw [hcode] at hcovers
        have hmem := TableNode.mem_chain_iff.mpr ⟨hsub, hcovers⟩
        rw [hchain] at hmem
        cases hmem
      · cases node with
        | leaf slot => exact List.nodup_nil
        | branch slot layout' children => exact ih slot layout' children hnode
    · -- a code that two siblings share, or types below them, would lie in both
      refine (List.pairwise_map.mp fits.nodup_codes).imp_of_mem ?_
      intro node node' hnode hnode' hne code hcode hcode'
      obtain ⟨sub, hsub, rfl⟩ := List.mem_map.mp hcode
      obtain ⟨sub', hsub', hsame⟩ := List.mem_map.mp hcode'
      have hmem := Tree.mem_preorders_iff.mpr ⟨node, hnode, Tree.mem_preorder_iff.mp hsub⟩
      have hmem' := Tree.mem_preorders_iff.mpr ⟨node', hnode', Tree.mem_preorder_iff.mp hsub'⟩
      have hcovers := (h.mem_preorder_iff_covers (Tree.mem_preorders_of_mem hnode) hmem).mp hsub
      have hcovers' :=
        (h.mem_preorder_iff_covers (Tree.mem_preorders_of_mem hnode') hmem').mp hsub'
      rw [hsame] at hcovers'
      exact hne (congrArg (·.value.code) (fits.eq_of_covers hnode hnode' hcovers hcovers'))

end LevelPlaced

/-- **Codes are cut into slots.**  On each level of an allocated table the selector stands right
below the bits of the owner's level, masks reach down to it, and each type has its owner's code with
its place among the siblings written into the slot.  So the mask of a type takes just the codes of
that type and of those below it to the type's code, and no two types have the same code. -/
theorem allocate_slot_layout {schema : Schema} {table : CodeTable}
    (h : allocate schema = .ok table) :
    (∀ level ∈ table.levels, level.SlotLayout table.typeBits) ∧
      (∀ m ∈ table.preorder, ∀ n ∈ table.preorder,
        n.value.code.masked m.value.categoryMask = m.value.code ↔ n ∈ m.preorder) ∧
      (table.preorder.map (·.value.code)).Nodup := by
  have hplaced := levelPlaced_of_allocate h
  refine ⟨?_, ?_, hplaced.nodup_codes⟩
  · rw [CodeTable.levels, List.forall_mem_cons]
    exact ⟨hplaced.fits.slotLayout, hplaced.slotLayout_levelsOf⟩
  · intro m hm n hn
    rw [hplaced.mem_preorder_iff_covers hm hn, Slot.covers_iff, hplaced.typeCode_code hn]

/-- The light and the rotary encoder stand on levels of different offsets.  The mask of neither takes
the other's code to its own, that of the power switch takes the light's. -/
theorem slot_layout_sample : allocate Schema.sample = .ok Schema.sample.table ∧
    (∀ level ∈ Schema.sample.table.levels, level.SlotLayout 9) ∧
    (⟨0xa4⟩ : Code).masked ⟨0x1c0⟩ ≠ ⟨0x140⟩ := by
  have hlayout := allocate_slot_layout allocate_sample
  refine ⟨allocate_sample, hlayout.1, ?_⟩
  have hlight : .leaf ⟨⟨"LIGHT", .command, "Light", none, ""⟩, ["BINARY", "POWER", "LIGHT"], 1,
      ⟨0xa4⟩, ⟨0x1fc⟩⟩ ∈ Schema.sample.table.preorder := by decide
  have hrotary : .leaf ⟨⟨"ROTARY", .none, "Rotary", some "STEPS", ""⟩, ["ENCODER", "ROTARY"], 1,
      ⟨0x140⟩, ⟨0x1c0⟩⟩ ∈ Schema.sample.table.preorder := by decide
  exact (hlayout.2.1 _ hrotary _ hlight).not.mpr (by decide)

end PlugTaxonomy
