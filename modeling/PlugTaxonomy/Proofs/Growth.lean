import PlugTaxonomy.Proofs.Declared
import PlugTaxonomy.Proofs.Extension

/-!
# Codes outlast growth of a schema

A device in the field keeps the codes that it was built with.  A schema that grows at the ends of
its levels and below its leaves, and changes nothing else, gives them out again: the bits of a level
depend on the levels above it only, and the selector value of a type on the types in front of it.

* `Tree.Grows`, `Tree.LevelGrows`, `Schema.Grows` — growth of trees, of levels, and of schemas;
* `grows_placeNode`, `levelGrows_placeNodes` — with a schema its table grows;
* `LevelGrows.sublist_values`, `LevelGrows.sublist_constants` — what a table has, the grown one has
  too, in the same order;
* `codes_of_growth` — constants and types keep their codes.
-/

namespace PlugTaxonomy

/-! ### Growth -/

namespace Tree

variable {α β : Type}

mutual

/-- A tree grows: below a leaf there may come a level, and the levels below it may grow. -/
inductive Grows : Tree α β → Tree α β → Prop
  | leaf (value : α) : Grows (.leaf value) (.leaf value)
  | planted (value : α) (heading : β) (children : List (Tree α β)) :
    Grows (.leaf value) (.branch value heading children)
  | branch (value : α) (heading : β) {children children' : List (Tree α β)}
    (below : LevelGrows children children') :
    Grows (.branch value heading children) (.branch value heading children')

/-- A level grows: its trees may grow, and others may come behind the last one. -/
inductive LevelGrows : List (Tree α β) → List (Tree α β) → Prop
  | appended (trees : List (Tree α β)) : LevelGrows [] trees
  | cons {tree tree' : Tree α β} {trees trees' : List (Tree α β)} (first : Grows tree tree')
    (others : LevelGrows trees trees') : LevelGrows (tree :: trees) (tree' :: trees')

end

mutual

/-- A tree that grows keeps its values in their order. -/
theorem Grows.sublist_values {tree tree' : Tree α β} (h : Grows tree tree') :
    (tree.preorder.map value).Sublist (tree'.preorder.map value) := by
  cases h with
  | leaf value => exact .refl _
  | planted value heading children => exact (List.nil_sublist _).cons_cons value
  | branch value heading below => exact below.sublist_values.cons_cons value

theorem LevelGrows.sublist_values {trees trees' : List (Tree α β)} (h : LevelGrows trees trees') :
    ((preorders trees).map value).Sublist ((preorders trees').map value) := by
  cases h with
  | appended trees => exact List.nil_sublist _
  | cons first others =>
    rw [preorders, preorders, List.map_append, List.map_append]
    exact first.sublist_values.append others.sublist_values

end

end Tree

/-- A schema grows at the ends of its levels and below its leaves, and nothing else changes. -/
structure Schema.Grows (schema schema' : Schema) : Prop where
  typeBits : schema'.typeBits = schema.typeBits
  bitCount : schema'.bitCount = schema.bitCount
  types : Tree.LevelGrows schema.types schema'.types

/-! ### Tables of grown schemas -/

section Placed

variable (typeBits : Nat)

mutual

/-- The slot of a type does not depend on the types below it. -/
theorem grows_placeNode {type type' : TypeNode} (h : type.Grows type') (layout : Layout)
    (owner : Code) (index : Nat) :
    (placeNode typeBits layout owner index type).Grows
      (placeNode typeBits layout owner index type') := by
  cases h with
  | leaf info => exact .leaf _
  | planted info bitCount children => exact .planted _ _ _
  | branch info bitCount below => exact .branch _ _ (levelGrows_placeNodes below _ _ _)

/-- The slots of types do not depend on the types behind them. -/
theorem levelGrows_placeNodes {types types' : List TypeNode} (h : Tree.LevelGrows types types')
    (layout : Layout) (owner : Code) (index : Nat) :
    Tree.LevelGrows (placeNodes typeBits layout owner index types)
      (placeNodes typeBits layout owner index types') := by
  cases h with
  | appended types => exact .appended _
  | cons first others =>
    exact .cons (grows_placeNode first _ _ _) (levelGrows_placeNodes others _ _ _)

end

end Placed

mutual

/-- A table that grows keeps its constants in their order. -/
theorem sublist_constants_of_grows {node node' : TableNode} (h : node.Grows node')
    (depth : Nat) : (node.constants depth).Sublist (node'.constants depth) := by
  cases h with
  | leaf slot => exact .refl _
  | planted slot layout children => exact List.sublist_append_left _ _
  | branch slot layout below =>
    exact ((sublist_constants_of_levelGrows below (depth + 1)).cons_cons _).append_left _

theorem sublist_constants_of_levelGrows {nodes nodes' : List TableNode}
    (h : Tree.LevelGrows nodes nodes') (depth : Nat) :
    (TableNode.constantsOf depth nodes).Sublist (TableNode.constantsOf depth nodes') := by
  cases h with
  | appended nodes => exact List.nil_sublist _
  | cons first others =>
    exact (sublist_constants_of_grows first depth).append
      (sublist_constants_of_levelGrows others depth)

end

section Grown

variable {schema schema' : Schema} {table table' : CodeTable} (h : allocate schema = .ok table)
  (h' : allocate schema' = .ok table') (hgrown : schema.Grows schema')
include h h' hgrown

/-- The root levels of both tables lie in the same place, and the level has grown. -/
theorem table_of_grows :
    table'.root = table.root ∧ Tree.LevelGrows table.nodes table'.nodes := by
  obtain ⟨-, -, -, rfl⟩ := (allocate_eq_ok_iff schema table).mp h
  obtain ⟨-, -, -, rfl⟩ := (allocate_eq_ok_iff schema' table').mp h'
  have hroot : schema'.rootLayout = schema.rootLayout := by
    rw [Schema.rootLayout, Schema.rootLayout, hgrown.typeBits, hgrown.bitCount]
  refine ⟨hroot, ?_⟩
  rw [Schema.table, Schema.table, hroot, hgrown.typeBits]
  exact levelGrows_placeNodes _ hgrown.types _ _ _

theorem sublist_enumeration_of_grows : table.enumeration.Sublist table'.enumeration := by
  obtain ⟨hroot, hnodes⟩ := table_of_grows h h' hgrown
  rw [CodeTable.enumeration, CodeTable.enumeration, hroot]
  exact ((sublist_constants_of_levelGrows hnodes 0).cons_cons _).append_left _

/-- In a grown table each type has a counterpart in the same slot. -/
theorem exists_counterpart_of_grows {node : TableNode} (hnode : node ∈ table.preorder) :
    ∃ node', Counterparts table table' node node' ∧ node'.value = node.value := by
  obtain ⟨-, hnodes⟩ := table_of_grows h h' hgrown
  obtain ⟨node', hnode', hvalue⟩ :=
    List.mem_map.mp (hnodes.sublist_values.subset (List.mem_map_of_mem hnode))
  exact ⟨node', ⟨hnode, hnode', by rw [hvalue]⟩, hvalue⟩

end Grown

/-! ### Codes -/

/-- **Codes outlast growth.**  If an accepted schema grows at the ends of its levels and below its
leaves to another accepted schema, all its constants are constants of the grown schema with the same
codes, in the same order, and are found there by their names; and each of its types is there on the
same path, in the same slot: with the same selector value, code and mask. -/
theorem codes_of_growth {schema schema' : Schema} {table table' : CodeTable}
    (h : allocate schema = .ok table) (h' : allocate schema' = .ok table')
    (hgrown : schema.Grows schema') :
    table.enumeration.Sublist table'.enumeration ∧
      (∀ constant ∈ table.enumeration,
        (Artifacts.ofTable table').lookup? constant.name = some constant.code) ∧
      (∀ node ∈ table.preorder, ∃ node', Counterparts table table' node node') ∧
      ∀ node node', Counterparts table table' node node' → node'.value = node.value := by
  have hconstants := sublist_enumeration_of_grows h h' hgrown
  refine ⟨hconstants, ?_, ?_, ?_⟩
  · intro constant hconstant
    exact lookup?_eq_of_nodup (nodup_enumeration h') (hconstants.subset hconstant)
  · intro node hnode
    obtain ⟨node', hpair, -⟩ := exists_counterpart_of_grows h h' hgrown hnode
    exact ⟨node', hpair⟩
  · intro node node' hpair
    obtain ⟨other, hother, hvalue⟩ := exists_counterpart_of_grows h h' hgrown hpair.mem
    obtain rfl := hpair.unique (levelPlaced_of_allocate h') hother
    exact hvalue

/-- The sample grown: one more type beside the switch and the power, and types below the light and
the level. -/
def Schema.grownSample : Schema :=
  { typeBits := 9
    bitCount := 2
    types :=
      [.branch ⟨"BINARY", .toggle, "Binary", some "OFF_ON", ""⟩ 3
        [.leaf ⟨"SWITCH", .none, "Switch", none, ""⟩,
          .branch ⟨"POWER", .compatible, "Power", none, ""⟩ 2
            [.branch ⟨"LIGHT", .command, "Light", none, ""⟩ 1
                [.leaf ⟨"DIMMED", .none, "Dimmed", none, ""⟩],
              .leaf ⟨"FAN", .command, "Fan", some "SPEED", ""⟩],
          .leaf ⟨"PUMP", .none, "Pump", none, ""⟩],
        .branch ⟨"ENCODER", .none, "Encoder", none, ""⟩ 1
          [.leaf ⟨"ROTARY", .none, "Rotary", some "STEPS", ""⟩],
        .branch ⟨"LEVEL", .none, "Level", none, ""⟩ 4
          [.leaf ⟨"GAIN", .command, "Gain", some "SLIDE", ""⟩]] }

theorem allocate_grownSample : allocate Schema.grownSample = .ok Schema.grownSample.table := by
  decide +kernel

/-- The fan stands behind more constants now, and has the code that it had. -/
theorem growth_sample : allocate Schema.sample = .ok Schema.sample.table ∧
    allocate Schema.grownSample = .ok Schema.grownSample.table ∧
    Schema.sample.Grows Schema.grownSample ∧
    (Artifacts.ofTable Schema.grownSample.table).lookup? "BINARY_POWER_FAN_CMD_IN" =
      some ⟨0xa0a8⟩ := by
  have hgrown : Schema.sample.Grows Schema.grownSample :=
    ⟨rfl, rfl,
      .cons (.branch _ _ (.cons (.leaf _)
        (.cons (.branch _ _ (.cons (.planted _ _ _) (.cons (.leaf _) (.appended _))))
          (.appended _))))
      (.cons (.branch _ _ (.cons (.leaf _) (.appended _)))
        (.cons (.planted _ _ _) (.appended _)))⟩
  obtain ⟨-, hlookup, -⟩ := codes_of_growth allocate_sample allocate_grownSample hgrown
  have hfan : ⟨"BINARY_POWER_FAN_CMD_IN", ⟨0xa0a8⟩, none, 2⟩ ∈ Schema.sample.table.enumeration := by
    decide
  exact ⟨allocate_sample, allocate_grownSample, hgrown, hlookup _ hfan⟩

end PlugTaxonomy
