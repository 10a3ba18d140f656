import PlugTaxonomy.Proofs.Table.Names
import Mathlib.Data.List.Forall2

/-!
# Routes through a tree

A node of a tree is reached level by level.  Its route says for each level on the way how the level
is headed and which node is taken there, the node itself being the last one.  All that is said of
nodes together with the nodes and levels above them is said of routes.

* `Tree.routes`, `Tree.routesOf` — the routes to all nodes, in pre-order;
* `Tree.forall₂_endsAt`, `Tree.exists_route` — the routes lead to the nodes one by one;
* `Schema.routes`, `CodeTable.routes` — the routes through a schema and through a table;
* `map_steps_routes` — the routes through the table of a schema are those through the schema, with
  the same widths and declarations on them;
* `LevelPlaced.names_of_route` — the names of a type are those along its route.
-/

namespace PlugTaxonomy

/-! ### Routes -/

namespace Tree

variable {α β : Type}

mutual

/-- The routes to a node and to all nodes below it, given the heading of its level. -/
def routes (heading : β) : Tree α β → List (List (β × α))
  | leaf value => [[(heading, value)]]
  | branch value below children =>
    [(heading, value)] :: (routesOf below children).map ((heading, value) :: ·)

/-- The routes to the nodes of a level and to all nodes below them. -/
def routesOf (heading : β) : List (Tree α β) → List (List (β × α))
  | [] => []
  | tree :: trees => tree.routes heading ++ routesOf heading trees

end

/-- The last step of a route takes a node. -/
def EndsAt (route : List (β × α)) (tree : Tree α β) : Prop :=
  ∃ above heading, route = above ++ [(heading, tree.value)]

theorem EndsAt.cons {route : List (β × α)} {tree : Tree α β} (h : EndsAt route tree)
    (step : β × α) : EndsAt (step :: route) tree := by
  obtain ⟨above, heading, rfl⟩ := h
  exact ⟨step :: above, heading, rfl⟩

mutual

theorem forall₂_endsAt_routes (heading : β) (tree : Tree α β) :
    List.Forall₂ EndsAt (tree.routes heading) tree.preorder := by
  cases tree with
  | leaf value => exact .cons ⟨[], heading, rfl⟩ .nil
  | branch value below children =>
    refine .cons ⟨[], heading, rfl⟩ ?_
    rw [List.forall₂_map_left_iff]
    exact (forall₂_endsAt below children).imp fun _ _ h => h.cons _

/-- The routes to the nodes of a level, and to those below, lead to these nodes one by one. -/
theorem forall₂_endsAt (heading : β) (trees : List (Tree α β)) :
    List.Forall₂ EndsAt (routesOf heading trees) (preorders trees) := by
  cases trees with
  | nil => exact .nil
  | cons tree trees =>
    exact List.rel_append (forall₂_endsAt_routes heading tree) (forall₂_endsAt heading trees)

end

/-- The route at a place leads to the node at that place. -/
theorem exists_route (heading : β) {trees : List (Tree α β)} {k : Nat} {tree : Tree α β}
    (h : (preorders trees)[k]? = some tree) :
    ∃ route, (routesOf heading trees)[k]? = some route ∧ EndsAt route tree := by
  obtain ⟨hlt, rfl⟩ := List.getElem?_eq_some_iff.mp h
  obtain ⟨hlength, hends⟩ := List.forall₂_iff_get.mp (forall₂_endsAt heading trees)
  have hlt' : k < (routesOf heading trees).length := hlength ▸ hlt
  exact ⟨_, List.getElem?_eq_getElem hlt', hends k hlt' hlt⟩

/-- A route starts on the level, and ends there or goes on below the node that it has taken. -/
theorem mem_routesOf_iff {heading : β} {trees : List (Tree α β)} {route : List (β × α)} :
    route ∈ routesOf heading trees ↔ ∃ tree ∈ trees, route = [(heading, tree.value)] ∨
      ∃ value below children, tree = branch value below children ∧
        ∃ rest ∈ routesOf below children, route = (heading, value) :: rest := by
  induction trees with
  | nil => simp [routesOf]
  | cons tree trees ih =>
    rw [routesOf, List.mem_append, ih, List.exists_mem_cons_iff]
    refine or_congr_left ?_
    cases tree with
    | leaf value => simp [routes, Tree.value]
    | branch value below children => simp [routes, Tree.value, eq_comm]

theorem ne_nil_of_mem_routesOf {heading : β} {trees : List (Tree α β)} {route : List (β × α)}
    (h : route ∈ routesOf heading trees) : route ≠ [] := by
  obtain ⟨tree, -, rfl | ⟨value, below, children, -, rest, -, rfl⟩⟩ := mem_routesOf_iff.mp h
  · exact List.cons_ne_nil _ _
  · exact List.cons_ne_nil _ _

end Tree

/-- The routes through a schema: the widths of the levels and the types that are taken on them. -/
def Schema.routes (schema : Schema) : List (List (UInt32 × TypeInfo)) :=
  Tree.routesOf schema.bitCount schema.types

/-- The routes through a table. -/
def CodeTable.routes (table : CodeTable) : List (List (Layout × Slot)) :=
  Tree.routesOf table.root table.nodes

/-! ### Routes under allocation -/

/-- Steps are changed one by one, the first one of many routes too. -/
theorem map_map_cons {α β : Type} (f : α → β) (step : α) (routes : List (List α)) :
    (routes.map (step :: ·)).map (List.map f) = (routes.map (List.map f)).map (f step :: ·) := by
  rw [List.map_map, List.map_map]
  rfl

mutual

theorem map_steps_placeNode (typeBits : Nat) {layout : Layout} {bitCount : UInt32}
    (hbits : layout.bitCount = bitCount.toNat) (owner : Code) (index : Nat) (type : TypeNode) :
    ((placeNode typeBits layout owner index type).routes layout).map
        (List.map fun step => (step.1.bitCount, step.2.info)) =
      (type.routes bitCount).map (List.map fun step => (step.1.toNat, step.2)) := by
  cases type with
  | leaf info =>
    show [[(layout.bitCount, info)]] = [[(bitCount.toNat, info)]]
    rw [hbits]
  | branch info below children =>
    have hbelow := @map_steps_placeNodes typeBits
      (Layout.place typeBits (layout.names ++ [info.name]) layout.offset below.toNat) below rfl
      (Slot.place layout owner index info).code 1 children
    show [(layout.bitCount, info)] :: List.map (List.map _) (List.map (_ :: ·) _) =
      [(bitCount.toNat, info)] :: List.map (List.map _) (List.map (_ :: ·) _)
    rw [map_map_cons, map_map_cons, ← hbelow, ← hbits]
    rfl

theorem map_steps_placeNodes (typeBits : Nat) {layout : Layout} {bitCount : UInt32}
    (hbits : layout.bitCount = bitCount.toNat) (owner : Code) (index : Nat)
    (types : List TypeNode) :
    (Tree.routesOf layout (placeNodes typeBits layout owner index types)).map
        (List.map fun step => (step.1.bitCount, step.2.info)) =
      (Tree.routesOf bitCount types).map (List.map fun step => (step.1.toNat, step.2)) := by
  cases types with
  | nil => rfl
  | cons type types =>
    rw [placeNodes, Tree.routesOf, Tree.routesOf, List.map_append, List.map_append,
      map_steps_placeNode typeBits hbits, map_steps_placeNodes typeBits hbits]

end

/-- The table of an accepted schema has the routes of the schema, in the same order, with the same
widths of levels and the same declarations of types on them. -/
theorem map_steps_routes {schema : Schema} {table : CodeTable} (h : allocate schema = .ok table) :
    table.routes.map (List.map fun step => (step.1.bitCount, step.2.info)) =
      schema.routes.map (List.map fun step => (step.1.toNat, step.2)) := by
  obtain ⟨-, -, -, rfl⟩ := (allocate_eq_ok_iff schema table).mp h
  exact map_steps_placeNodes _ rfl _ _ _

/-- The names of a type are those of the level's owner and those along the route from the level. -/
theorem LevelPlaced.names_of_route {typeBits : Nat} {owner : Code} {names : List String}
    {remaining : Nat} {layout : Layout} {nodes : List TableNode}
    (h : LevelPlaced typeBits owner names remaining layout nodes) {route : List (Layout × Slot)}
    (hroute : route ∈ Tree.routesOf layout nodes) {node : TableNode}
    (hend : Tree.EndsAt route node) :
    node.value.names = names ++ route.map (·.2.info.name) := by
  induction h generalizing route with
  | @intro owner names remaining layout nodes fits below ih =>
    obtain ⟨above, heading, hlast⟩ := hend
    obtain ⟨top, htop, rfl | ⟨slot, layout', children, rfl, rest, hrest, rfl⟩⟩ :=
      Tree.mem_routesOf_iff.mp hroute
    · have hvalue := congrArg List.getLast? hlast
      rw [List.getLast?_singleton, List.getLast?_concat, Option.some.injEq, Prod.mk.injEq] at hvalue
      rw [← hvalue.2]
      exact fits.names_eq htop
    · have hslot : slot.names = names ++ [slot.info.name] := fits.names_eq htop
      cases above with
      | nil =>
        exact absurd (List.cons.inj hlast).2 (Tree.ne_nil_of_mem_routesOf hrest)
      | cons step above =>
        rw [ih slot layout' children htop hrest ⟨above, heading, (List.cons.inj hlast).2⟩, hslot,
          List.append_assoc]
        rfl

end PlugTaxonomy
