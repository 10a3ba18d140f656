import PlugTaxonomy.Proofs.Declared
import PlugTaxonomy.Proofs.Table.Routes
import PlugTaxonomy.Proofs.Table.Slots

/-!
# The shape of allocated tables

Allocation gives codes to the types of a schema and leaves the tree as it is.  Four passes have to
meet the same types in the same order: the count of types, allocation itself, the list of all types
and the enumeration.

* `map_heading_levels` — a table has the levels of its schema;
* `TableNode.perm_symbols` — constants are those of levels and those of types, each once;
* `constantsAlong_sublist` — the constants along a route stand in the order of the route;
* `shape_of_allocate` — types, levels and constants of an accepted schema, one by one.
-/

namespace PlugTaxonomy

/-! ### Levels under allocation -/

mutual

theorem map_heading_levels_placeNode (typeBits : Nat) (layout : Layout) (owner : Code)
    (index offset : Nat) (enclosing : List Nat) (type : TypeNode) :
    ((placeNode typeBits layout owner index type).levels offset).map
        (fun level => (level.layout.names, level.layout.bitCount)) =
      (type.levels layout.names enclosing).map fun level => (level.owner, level.bitCount) := by
  cases type with
  | leaf info => rfl
  | branch info bitCount children =>
    rw [placeNode, TableNode.levels, TypeNode.levels, List.map_cons, List.map_cons]
    exact congrArg _ (map_heading_levels_placeNodes _ _ _ _ _ _ children)

theorem map_heading_levels_placeNodes (typeBits : Nat) (layout : Layout) (owner : Code)
    (index offset : Nat) (enclosing : List Nat) (types : List TypeNode) :
    (TableNode.levelsOf offset (placeNodes typeBits layout owner index types)).map
        (fun level => (level.layout.names, level.layout.bitCount)) =
      (TypeNode.levelsOf layout.names enclosing types).map
        fun level => (level.owner, level.bitCount) := by
  cases types with
  | nil => rfl
  | cons type types =>
    rw [placeNodes, TableNode.levelsOf, TypeNode.levelsOf, List.map_append, List.map_append,
      map_heading_levels_placeNode, map_heading_levels_placeNodes]

end

/-- The levels of a table are those of its schema, in the same order. -/
theorem map_heading_levels (schema : Schema) :
    schema.table.levels.map (fun level => (level.layout.names, level.layout.bitCount)) =
      schema.levels.map fun level => (level.owner, level.bitCount) := by
  rw [CodeTable.levels, Schema.levels, List.map_cons, List.map_cons]
  exact congrArg _ (map_heading_levels_placeNodes _ _ _ _ _ _ _)

/-! ### Constants of levels and types -/

/-- A type has three variants, and a type with commands five. -/
theorem Slot.length_variants (slot : Slot) :
    slot.variants.length = if slot.info.flags.contains .command then 5 else 3 := by
  rw [Slot.variants, Slot.isCommand]
  split <;> rfl

/-- Two parts of each of two lists are put together part by part. -/
theorem perm_append_exchange {α : Type} (a b c d : List α) :
    ((a ++ b) ++ (c ++ d)).Perm ((a ++ c) ++ (b ++ d)) := by
  rw [List.append_assoc, List.append_assoc, ← List.append_assoc b, ← List.append_assoc c]
  exact (List.perm_append_comm.append_right d).append_left a

mutual

theorem TableNode.perm_symbols_node (offset : Nat) (node : TableNode) :
    (node.producers.flatMap Producer.symbols).Perm
      ((node.levels offset).map (·.layout.symbol) ++ node.preorder.flatMap (·.value.variants)) := by
  cases node with
  | leaf slot => exact .refl _
  | branch slot layout children =>
    rw [TableNode.producers, TableNode.levels, Tree.preorder, List.flatMap_cons, List.flatMap_cons,
      List.flatMap_cons, List.map_cons, List.cons_append]
    -- the variants of the type go behind the masks below it
    calc List.Perm (slot.variants ++ layout.symbol ::
            (producersOf children).flatMap Producer.symbols)
          (layout.symbol :: (slot.variants ++
            (producersOf children).flatMap Producer.symbols)) :=
          List.perm_middle
      List.Perm _ (layout.symbol :: (slot.variants ++
            ((levelsOf layout.offset children).map (·.layout.symbol) ++
              (Tree.preorders children).flatMap (·.value.variants)))) :=
          ((TableNode.perm_symbols layout.offset children).append_left _).cons _
      List.Perm _ (layout.symbol :: ((levelsOf layout.offset children).map (·.layout.symbol) ++
            (slot.variants ++ (Tree.preorders children).flatMap (·.value.variants)))) := by
          rw [← List.append_assoc, ← List.append_assoc]
          exact (List.perm_append_comm.append_right _).cons _

/-- The constants of all producers are the masks of the levels and the variants of the types. -/
theorem TableNode.perm_symbols (offset : Nat) (nodes : List TableNode) :
    ((TableNode.producersOf nodes).flatMap Producer.symbols).Perm
      ((TableNode.levelsOf offset nodes).map (·.layout.symbol) ++
        (Tree.preorders nodes).flatMap (·.value.variants)) := by
  cases nodes with
  | nil => exact .nil
  | cons node nodes =>
    rw [TableNode.producersOf, TableNode.levelsOf, Tree.preorders, List.flatMap_append,
      List.flatMap_append, List.map_append]
    exact ((TableNode.perm_symbols_node offset node).append
      (TableNode.perm_symbols offset nodes)).trans (perm_append_exchange _ _ _ _)

end

/-- The enumeration consists of the flags, one mask for each level and the variants of all types. -/
theorem CodeTable.perm_enumeration (table : CodeTable) :
    (table.enumeration.map Constant.symbol).Perm
      (Symbol.flags ++ (table.levels.map (·.layout.symbol) ++
        table.preorder.flatMap (·.value.variants))) := by
  rw [map_symbol_enumeration, CodeTable.producers, CodeTable.levels, List.flatMap_cons,
    List.map_cons, List.cons_append]
  exact ((TableNode.perm_symbols _ _).cons _).append_left _

/-! ### Constants along a route -/

/-- The constants of the levels and types on a route, in the order of the route. -/
def constantsAlong (depth : Nat) : List (Layout × Slot) → List Constant
  | [] => []
  | (layout, slot) :: route =>
    layout.constant depth :: (slot.constants depth ++ constantsAlong (depth + 1) route)

theorem constantsAlong_append (depth : Nat) (front back : List (Layout × Slot)) :
    constantsAlong depth (front ++ back) =
      constantsAlong depth front ++ constantsAlong (depth + front.length) back := by
  induction front generalizing depth with
  | nil => rfl
  | cons step front ih =>
    rw [List.cons_append, constantsAlong, constantsAlong, ih, List.length_cons, List.cons_append,
      List.append_assoc, Nat.add_right_comm, Nat.add_assoc]

theorem constants_sublist_constantsOf (depth : Nat) {node : TableNode} {nodes : List TableNode}
    (h : node ∈ nodes) : (node.constants depth).Sublist (TableNode.constantsOf depth nodes) := by
  induction nodes with
  | nil => cases h
  | cons first nodes ih =>
    rw [TableNode.constantsOf]
    rcases List.mem_cons.mp h with rfl | h
    · exact List.sublist_append_left _ _
    · exact (ih h).trans (List.sublist_append_right _ _)

/-- The constants along a route stand in this order among those of the level, each at the depth of
its step. -/
theorem constantsAlong_sublist {layout : Layout} {nodes : List TableNode}
    {route : List (Layout × Slot)} (hroute : route ∈ Tree.routesOf layout nodes) (depth : Nat) :
    (constantsAlong depth route).Sublist
      (layout.constant depth :: TableNode.constantsOf depth nodes) := by
  induction route generalizing layout nodes depth with
  | nil => exact List.nil_sublist _
  | cons step route ih =>
    obtain ⟨node, hnode, hend | ⟨slot, below, children, rfl, rest, hrest, hon⟩⟩ :=
      Tree.mem_routesOf_iff.mp hroute
    · obtain ⟨rfl, rfl⟩ := List.cons.inj hend
      rw [constantsAlong, constantsAlong, List.append_nil]
      refine (List.Sublist.trans ?_ (constants_sublist_constantsOf depth hnode)).cons_cons _
      cases node with
      | leaf slot => exact List.Sublist.refl _
      | branch slot below children => exact List.sublist_append_left _ _
    · obtain ⟨rfl, rfl⟩ := List.cons.inj hon
      rw [constantsAlong]
      refine (List.Sublist.trans ?_ (constants_sublist_constantsOf depth hnode)).cons_cons _
      -- the level below is enumerated right behind the constants of the type
      exact (ih hrest (depth + 1)).append_left _

/-- In a list without repetition, what comes first in a part of it comes first in the list. -/
theorem lt_of_append_sublist {α : Type} {front back items : List α} (hnodup : items.Nodup)
    (hsub : (front ++ back).Sublist items) {i j : Nat} {a b : α} (ha : a ∈ front) (hb : b ∈ back)
    (hi : items[i]? = some a) (hj : items[j]? = some b) : i < j := by
  obtain ⟨left, right, rfl, hfront, hback⟩ := List.append_sublist_iff.mp hsub
  have hdisjoint := List.disjoint_of_nodup_append hnodup
  have hleft : i < left.length := by
    by_contra hge
    rw [List.getElem?_append_right (Nat.not_lt.mp hge)] at hi
    exact hdisjoint (hfront.subset ha) (List.mem_of_getElem? hi)
  have hright : left.length ≤ j := by
    by_contra hlt
    rw [List.getElem?_append_left (Nat.not_le.mp hlt)] at hj
    exact hdisjoint (List.mem_of_getElem? hj) (hback.subset hb)
  omega

theorem depth_of_mem_constants {slot : Slot} {depth : Nat} {constant : Constant}
    (h : constant ∈ slot.constants depth) : constant.depth = depth := by
  rw [Slot.constants] at h
  cases hvariants : slot.variants with
  | nil =>
    rw [hvariants] at h
    cases h
  | cons first others =>
    rw [hvariants] at h
    rcases List.mem_cons.mp h with rfl | h
    · rfl
    · obtain ⟨symbol, -, rfl⟩ := List.mem_map.mp h
      rfl

/-- Each variant of a type has a constant. -/
theorem exists_mem_constants {slot : Slot} {symbol : Symbol} (h : symbol ∈ slot.variants)
    (depth : Nat) : ∃ constant ∈ slot.constants depth, constant.symbol = symbol := by
  rw [← map_symbol_slot_constants slot depth] at h
  exact List.mem_map.mp h

theorem exists_mem_constantsAlong {route : List (Layout × Slot)} {step : Layout × Slot}
    (hstep : step ∈ route) {symbol : Symbol} (h : symbol ∈ step.2.variants) (depth : Nat) :
    ∃ constant ∈ constantsAlong depth route, constant.symbol = symbol := by
  induction route generalizing depth with
  | nil => cases hstep
  | cons first route ih =>
    rcases List.mem_cons.mp hstep with rfl | hstep
    · obtain ⟨constant, hconstant, hsymbol⟩ := exists_mem_constants h depth
      exact ⟨constant, List.mem_cons_of_mem _ (List.mem_append_left _ hconstant), hsymbol⟩
    · obtain ⟨constant, hconstant, hsymbol⟩ := ih hstep (depth + 1)
      exact ⟨constant, List.mem_cons_of_mem _ (List.mem_append_right _ hconstant), hsymbol⟩

/-! ### Accepted schemas -/

section Allocated

variable {schema : Schema} {table : CodeTable} (h : allocate schema = .ok table)
include h

/-- A table has as many types as its schema. -/
theorem length_preorder_eq_nodeCount : table.preorder.length = schema.nodeCount := by
  have hlength := congrArg List.length (map_info_preorder h)
  rwa [List.length_map, List.length_map, Tree.length_preorders schema.types] at hlength

/-- The type at a place of the table is declared at that place of the schema. -/
theorem exists_type_of_getElem? {k : Nat} {node : TableNode}
    (hnode : table.preorder[k]? = some node) :
    ∃ type, (Tree.preorders schema.types)[k]? = some type ∧ node.value.info = type.value := by
  have hplace := congrArg (fun infos : List TypeInfo => infos[k]?) (map_info_preorder h)
  rw [List.getElem?_map, List.getElem?_map, hnode, Option.map_some] at hplace
  obtain ⟨type, htype, hvalue⟩ := Option.map_eq_some_iff.mp hplace.symm
  exact ⟨type, htype, hvalue.symm⟩

/-- The names of the type at a place of the table are those along the route at that place of the
schema. -/
theorem names_eq_of_getElem? {k : Nat} {node : TableNode} (hnode : table.preorder[k]? = some node)
    {route : List (UInt32 × TypeInfo)} (hroute : schema.routes[k]? = some route) :
    node.value.names = route.map (·.2.name) := by
  obtain ⟨placed, hplaced, hend⟩ := Tree.exists_route table.root hnode
  have hnames := (levelPlaced_of_allocate h).names_of_route (List.mem_of_getElem? hplaced) hend
  have hplaced' : table.routes[k]? = some placed := hplaced
  have hsteps := congrArg (fun routes : List (List (Nat × TypeInfo)) => routes[k]?)
    (map_steps_routes h)
  rw [List.getElem?_map, List.getElem?_map, hroute, hplaced', Option.map_some, Option.map_some,
    Option.some.injEq] at hsteps
  have hinfos := congrArg (List.map fun step => step.2.name) hsteps
  rw [List.map_map, List.map_map] at hinfos
  exact hnames.trans hinfos

/-- The constants of an accepted schema differ as symbols. -/
theorem eq_of_symbol_eq {constant other : Constant} (hconstant : constant ∈ table.enumeration)
    (hother : other ∈ table.enumeration) (hsymbol : constant.symbol = other.symbol) :
    constant = other :=
  List.inj_on_of_nodup_map (nodup_enumeration h) hconstant hother (congrArg Symbol.name hsymbol)

section Route

variable {above : List (Layout × Slot)} {layout : Layout} {slot : Slot}
  (hroute : above ++ [(layout, slot)] ∈ table.routes)
include hroute

omit h in
theorem constantsAlong_sublist_enumeration :
    ((constantsAlong 0 above ++ [layout.constant above.length]) ++
      slot.constants above.length).Sublist table.enumeration := by
  have hsub := (constantsAlong_sublist hroute 0).trans
    (List.sublist_append_right flagConstants _)
  rw [constantsAlong_append, Nat.zero_add, constantsAlong, constantsAlong, List.append_nil] at hsub
  rw [List.append_assoc]
  exact hsub

/-- A constant of a type is one of those along the type's route. -/
theorem mem_constants_of_symbol {constant : Constant} (hconstant : constant ∈ table.enumeration)
    (hsymbol : constant.symbol ∈ slot.variants) : constant ∈ slot.constants above.length := by
  obtain ⟨other, hother, hsame⟩ := exists_mem_constants hsymbol above.length
  have hsub := constantsAlong_sublist_enumeration hroute
  rwa [eq_of_symbol_eq h hconstant (hsub.subset (List.mem_append_right _ hother)) hsame.symm]

/-- The constants of a type stand behind the mask of its level and all constants of the types
above. -/
theorem lt_of_constants {i j : Nat} {earlier constant : Constant}
    (hi : table.enumeration[i]? = some earlier) (hj : table.enumeration[j]? = some constant)
    (hearlier : earlier.symbol = layout.symbol ∨ ∃ step ∈ above, earlier.symbol ∈ step.2.variants)
    (hconstant : constant.symbol ∈ slot.variants) : i < j := by
  have hsub := constantsAlong_sublist_enumeration hroute
  have hnodup : table.enumeration.Nodup := (nodup_enumeration h).of_map _
  have hfront : ∃ other ∈ constantsAlong 0 above ++ [layout.constant above.length],
      other.symbol = earlier.symbol := by
    rcases hearlier with hmask | ⟨step, hstep, hvariant⟩
    · exact ⟨_, List.mem_append_right _ (List.mem_singleton_self _), hmask.symm⟩
    · obtain ⟨other, hother, hsymbol⟩ := exists_mem_constantsAlong hstep hvariant 0
      exact ⟨other, List.mem_append_left _ hother, hsymbol⟩
  obtain ⟨other, hother, hsymbol⟩ := hfront
  obtain rfl := eq_of_symbol_eq h (hsub.subset (List.mem_append_left _ hother))
    (List.mem_of_getElem? hi) hsymbol
  exact lt_of_append_sublist hnodup hsub hother
    (mem_constants_of_symbol h hroute (List.mem_of_getElem? hj) hconstant) hi hj

end Route

end Allocated

/-- **Allocation keeps the shape of the tree.**  The table of an accepted schema has the types of
the schema one by one in pre-order, each with what is declared for it and named along its route from
the root, and the levels of the schema.  The enumeration consists of the six flags, one mask for
each level and three constants for each type, or five for one with commands.  Those of a type stand
as deep as there are types above it, behind the mask of its level and behind all constants of the
types above. -/
theorem shape_of_allocate {schema : Schema} {table : CodeTable} (h : allocate schema = .ok table) :
    table.preorder.length = schema.nodeCount ∧
      (∀ (k : Nat) (node : TableNode), table.preorder[k]? = some node → ∃ type route,
        (Tree.preorders schema.types)[k]? = some type ∧
          schema.routes[k]? = some route ∧ Tree.EndsAt route type ∧
          node.value.info = type.value ∧
          node.value.path = String.intercalate "." (route.map (·.2.name)) ∧
          node.value.qualifiedName = String.intercalate "_" (route.map (·.2.name))) ∧
      table.levels.map (fun level => (level.layout.names, level.layout.bitCount)) =
        schema.levels.map (fun level => (level.owner, level.bitCount)) ∧
      (table.enumeration.map Constant.symbol).Perm
        (Symbol.flags ++ (table.levels.map (·.layout.symbol) ++
          table.preorder.flatMap (·.value.variants))) ∧
      Symbol.flags.length = 6 ∧
      (∀ node ∈ table.preorder, node.value.variants.length =
        if node.value.info.flags.contains .command then 5 else 3) ∧
      ∀ (k : Nat) (node : TableNode), table.preorder[k]? = some node → ∃ above layout,
        table.routes[k]? = some (above ++ [(layout, node.value)]) ∧
          ∀ (j : Nat) (constant : Constant), table.enumeration[j]? = some constant →
            constant.symbol ∈ node.value.variants → constant.depth = above.length ∧
              ∀ (i : Nat) (earlier : Constant), table.enumeration[i]? = some earlier →
                (earlier.symbol = layout.symbol ∨
                  ∃ step ∈ above, earlier.symbol ∈ step.2.variants) → i < j := by
  refine ⟨length_preorder_eq_nodeCount h, fun k node hnode => ?_, ?_, table.perm_enumeration, rfl,
    fun node _ => node.value.length_variants, fun k node hnode => ?_⟩
  · obtain ⟨type, htype, hinfo⟩ := exists_type_of_getElem? h hnode
    obtain ⟨route, hroute, hend⟩ := Tree.exists_route schema.bitCount htype
    have hnames := names_eq_of_getElem? h hnode hroute
    refine ⟨type, route, htype, hroute, hend, hinfo, ?_, ?_⟩
    · rw [Slot.path, hnames]
    · rw [Slot.qualifiedName, hnames]
  · obtain ⟨-, -, -, rfl⟩ := (allocate_eq_ok_iff schema table).mp h
    exact map_heading_levels schema
  · obtain ⟨_, hplace, above, layout, rfl⟩ := Tree.exists_route table.root hnode
    have hroute : above ++ [(layout, node.value)] ∈ table.routes := List.mem_of_getElem? hplace
    refine ⟨above, layout, hplace, fun j constant hj hvariant => ⟨?_, ?_⟩⟩
    · exact depth_of_mem_constants
        (mem_constants_of_symbol h hroute (List.mem_of_getElem? hj) hvariant)
    · intro i earlier hi hearlier
      exact lt_of_constants h hroute hi hj hearlier hvariant

/-- The light is the fourth of eight types, and two types stand above it: as many as the depth of
the last of its constants says. -/
theorem shape_sample : allocate Schema.sample = .ok Schema.sample.table ∧
    Schema.sample.table.preorder.length = 8 ∧
    ∃ above layout, Schema.sample.table.routes[3]? = some (above ++ [(layout,
        ⟨⟨"LIGHT", .command, "Light", none, ""⟩, ["BINARY", "POWER", "LIGHT"], 1, ⟨0xa4⟩,
          ⟨0x1fc⟩⟩)]) ∧ above.length = 2 := by
  obtain ⟨hlength, -, -, -, -, -, hconstants⟩ := shape_of_allocate allocate_sample
  obtain ⟨above, layout, hroute, horder⟩ := hconstants 3 (.leaf
    ⟨⟨"LIGHT", .command, "Light", none, ""⟩, ["BINARY", "POWER", "LIGHT"], 1, ⟨0xa4⟩, ⟨0x1fc⟩⟩)
    (by decide)
  have hcommand : Schema.sample.table.enumeration[22]? =
      some ⟨"BINARY_POWER_LIGHT_CMD_OUT", ⟨0x60a4⟩, none, 2⟩ := by decide +kernel
  exact ⟨allocate_sample, hlength, above, layout, hroute,
    (horder 22 _ hcommand (by decide)).1.symm⟩

end PlugTaxonomy
