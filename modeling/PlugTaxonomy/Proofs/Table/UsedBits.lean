import PlugTaxonomy.Proofs.Table.Routes
import PlugTaxonomy.Proofs.Table.Slots

/-!
# Used bits

The number of used bits is read off the least offset of all levels.  What it means is said along
routes: the levels on a route take the topmost bits of the type field one behind the other, so their
widths add up to what lies above the offset of the last one.

* `leastOffsets_min`, `le_leastOffsets_iff`, `leastOffsets_cases` — the least offset of a level and
  of the levels below it;
* `LevelPlaced.leastOffsets_add_le`, `LevelPlaced.exists_leastOffsets_add_eq` — no route takes more
  bits than lie above the least offset, and one takes them all;
* `leastOffset_le_typeBits`, `usedBits_eq_max` — used bits as the largest sum of widths.
-/

namespace PlugTaxonomy

/-! ### The least offset -/

namespace TableNode

mutual

theorem leastOffset_min (bound bound' : Nat) (node : TableNode) :
    TableNode.leastOffset (min bound bound') node =
      min bound (TableNode.leastOffset bound' node) := by
  cases node with
  | leaf slot => rfl
  | branch slot layout children =>
    rw [TableNode.leastOffset, TableNode.leastOffset, Nat.min_assoc, leastOffsets_min]

/-- Of two bounds either is taken before the levels are looked at or behind. -/
theorem leastOffsets_min (bound bound' : Nat) (nodes : List TableNode) :
    TableNode.leastOffsets (min bound bound') nodes =
      min bound (TableNode.leastOffsets bound' nodes) := by
  cases nodes with
  | nil => rfl
  | cons node nodes =>
    rw [TableNode.leastOffsets, TableNode.leastOffsets, leastOffset_min, leastOffsets_min]

end

/-- A number is no more than the least offset if it is no more than the bound and than the least
offset on each level below. -/
theorem le_leastOffsets_iff {n bound : Nat} {nodes : List TableNode} :
    n ≤ TableNode.leastOffsets bound nodes ↔ n ≤ bound ∧
      ∀ slot layout children, .branch slot layout children ∈ nodes →
        n ≤ TableNode.leastOffsets layout.offset children := by
  induction nodes generalizing bound with
  | nil => simp [TableNode.leastOffsets]
  | cons node nodes ih =>
    rw [TableNode.leastOffsets, ih]
    cases node with
    | leaf slot => simp [TableNode.leastOffset]
    | branch slot layout children =>
      rw [TableNode.leastOffset, leastOffsets_min, Nat.le_min]
      constructor
      · rintro ⟨⟨hbound, hfirst⟩, hothers⟩
        refine ⟨hbound, fun slot' layout' children' hmem => ?_⟩
        rcases List.mem_cons.mp hmem with heq | hmem
        · obtain ⟨rfl, rfl, rfl⟩ := Tree.branch.inj heq
          exact hfirst
        · exact hothers _ _ _ hmem
      · rintro ⟨hbound, hall⟩
        exact ⟨⟨hbound, hall _ _ _ List.mem_cons_self⟩,
          fun _ _ _ hmem => hall _ _ _ (List.mem_cons_of_mem _ hmem)⟩

/-- The least offset is the bound, or it stands on a level below. -/
theorem leastOffsets_cases (bound : Nat) (nodes : List TableNode) :
    TableNode.leastOffsets bound nodes = bound ∨
      ∃ slot layout children, .branch slot layout children ∈ nodes ∧
        TableNode.leastOffsets bound nodes = TableNode.leastOffsets layout.offset children := by
  -- otherwise the next number would be no more than the least offset either
  by_contra! hne
  obtain ⟨hbound, hbelow⟩ := hne
  obtain ⟨hle, hles⟩ := le_leastOffsets_iff.mp (Nat.le_refl (TableNode.leastOffsets bound nodes))
  refine Nat.not_succ_le_self (TableNode.leastOffsets bound nodes) ?_
  refine le_leastOffsets_iff.mpr ⟨?_, ?_⟩
  · omega
  · intro slot layout children hmem
    have hne := hbelow slot layout children hmem
    have hle := hles slot layout children hmem
    omega

end TableNode

/-! ### Widths along routes -/

namespace LevelPlaced

variable {typeBits : Nat} {owner : Code} {names : List String} {remaining : Nat}
  {layout : Layout} {nodes : List TableNode}

/-- The levels on a route take no more bits than lie above the least offset. -/
theorem leastOffsets_add_le (h : LevelPlaced typeBits owner names remaining layout nodes)
    {route : List (Layout × Slot)} (hroute : route ∈ Tree.routesOf layout nodes) :
    TableNode.leastOffsets layout.offset nodes + (route.map (·.1.bitCount)).sum ≤ remaining := by
  induction h generalizing route with
  | @intro owner names remaining layout nodes fits below ih =>
    have hsum := fits.offset_add_bitCount
    obtain ⟨hbound, hbelow⟩ := TableNode.le_leastOffsets_iff.mp
      (Nat.le_refl (TableNode.leastOffsets layout.offset nodes))
    obtain ⟨node, hnode, rfl | ⟨slot, layout', children, rfl, rest, hrest, rfl⟩⟩ :=
      Tree.mem_routesOf_iff.mp hroute
    · rw [List.map_singleton, List.sum_singleton]
      dsimp only
      omega
    · have hle := hbelow slot layout' children hnode
      have hadd := ih slot layout' children hnode hrest
      rw [List.map_cons, List.sum_cons]
      dsimp only
      omega

/-- The levels on one of the routes take all bits that lie above the least offset. -/
theorem exists_leastOffsets_add_eq (h : LevelPlaced typeBits owner names remaining layout nodes) :
    ∃ route ∈ Tree.routesOf layout nodes,
      TableNode.leastOffsets layout.offset nodes + (route.map (·.1.bitCount)).sum = remaining := by
  induction h with
  | @intro owner names remaining layout nodes fits below ih =>
    have hsum := fits.offset_add_bitCount
    rcases TableNode.leastOffsets_cases layout.offset nodes with
      hhere | ⟨slot, layout', children, hmem, hbelow⟩
    · obtain ⟨node, hnode⟩ := List.exists_mem_of_ne_nil _ fits.nonempty
      refine ⟨[(layout, node.value)], Tree.mem_routesOf_iff.mpr ⟨node, hnode, Or.inl rfl⟩, ?_⟩
      rw [List.map_singleton, List.sum_singleton, hhere, hsum]
    · obtain ⟨rest, hrest, hadd⟩ := ih slot layout' children hmem
      refine ⟨(layout, slot) :: rest, Tree.mem_routesOf_iff.mpr ⟨_, hmem, Or.inr
        ⟨slot, layout', children, rfl, rest, hrest, rfl⟩⟩, ?_⟩
      rw [List.map_cons, List.sum_cons, hbelow]
      dsimp only
      omega

end LevelPlaced

/-! ### Accepted schemas -/

/-- The bits that the levels on a route through a schema take. -/
def routeBits (route : List (UInt32 × TypeInfo)) : Nat :=
  (route.map (·.1.toNat)).sum

section Allocated

variable {schema : Schema} {table : CodeTable} (h : allocate schema = .ok table)
include h

theorem leastOffset_le_typeBits :
    TableNode.leastOffsets table.root.offset table.nodes ≤ table.typeBits := by
  obtain ⟨route, -, hadd⟩ := (levelPlaced_of_allocate h).exists_leastOffsets_add_eq
  omega

/-- Used bits are the largest number of bits that the levels on a route take. -/
theorem usedBits_eq_max : (schema.routes.map routeBits).max? = some table.usedBits := by
  have hplaced := levelPlaced_of_allocate h
  have hwidths := congrArg (List.map fun steps : List (Nat × TypeInfo) => (steps.map (·.1)).sum)
    (map_steps_routes h)
  simp only [List.map_map, Function.comp_def] at hwidths
  have hroutes : schema.routes.map routeBits =
      table.routes.map fun route => (route.map (·.1.bitCount)).sum := hwidths.symm
  rw [hroutes, List.max?_eq_some_iff, List.forall_mem_map, List.mem_map]
  constructor
  · obtain ⟨route, hroute, hadd⟩ := hplaced.exists_leastOffsets_add_eq
    refine ⟨route, hroute, ?_⟩
    rw [CodeTable.usedBits]
    omega
  · intro route hroute
    have hadd := hplaced.leastOffsets_add_le hroute
    rw [CodeTable.usedBits]
    omega

end Allocated

end PlugTaxonomy
