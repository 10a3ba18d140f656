import PlugTaxonomy.Proofs.Keyed
import PlugTaxonomy.Proofs.Table.Names
import Mathlib.Data.List.Infix

/-!
# Paths of types

The names from the root down to a type are its path.  In an allocated table the path says where the
type stands, so what is true of masks and codes can be said of lists of names.

* `DeclaredType`, `Schema.declaredTypes` — the types of a schema with their paths, in pre-order, and
  `map_declared_preorder`: the table has the same ones;
* `map_names_chain` — the types that a type's code lies in have the beginnings of its path as names;
* `eq_of_names_eq`, `names_eq_of_path_eq` — a path belongs to one type, as a list of names and as a
  dotted text;
* `find?_path` — a type is found by its dotted path;
* `mem_preorder_iff_isPrefix` — a type stands in another or below it if the other's path begins its
  own.
-/

namespace PlugTaxonomy

/-! ### Declared types -/

/-- A type that a schema declares, with the names from the root down to it. -/
structure DeclaredType where
  names : List String
  info : TypeInfo
  deriving DecidableEq, Repr

/-- The dotted path of a declared type. -/
def DeclaredType.path (type : DeclaredType) : String :=
  String.intercalate "." type.names

mutual

/-- A type and all types below it, given the names of its owner. -/
def TypeNode.declaredTypes (owner : List String) : TypeNode → List DeclaredType
  | .leaf info => [⟨owner ++ [info.name], info⟩]
  | .branch info _ children =>
    let names := owner ++ [info.name]
    ⟨names, info⟩ :: TypeNode.declaredTypesOf names children

/-- The types of a list and all types below them. -/
def TypeNode.declaredTypesOf (owner : List String) : List TypeNode → List DeclaredType
  | [] => []
  | type :: types => type.declaredTypes owner ++ TypeNode.declaredTypesOf owner types

end

/-- All types of a schema in pre-order. -/
def Schema.declaredTypes (schema : Schema) : List DeclaredType :=
  TypeNode.declaredTypesOf [] schema.types

/-- What a slot says about the declaration of its type. -/
def Slot.declaredType (slot : Slot) : DeclaredType :=
  ⟨slot.names, slot.info⟩

mutual

theorem map_declared_placeNode (typeBits : Nat) (layout : Layout) (owner : Code) (index : Nat)
    (type : TypeNode) :
    (placeNode typeBits layout owner index type).preorder.map (·.value.declaredType) =
      type.declaredTypes layout.names := by
  cases type with
  | leaf info => rfl
  | branch info bitCount children =>
    simp only [placeNode, Tree.preorder, List.map_cons, TypeNode.declaredTypes,
      map_declared_placeNodes]
    rfl

theorem map_declared_placeNodes (typeBits : Nat) (layout : Layout) (owner : Code) (index : Nat)
    (types : List TypeNode) :
    (Tree.preorders (placeNodes typeBits layout owner index types)).map (·.value.declaredType) =
      TypeNode.declaredTypesOf layout.names types := by
  cases types with
  | nil => rfl
  | cons type types =>
    simp only [placeNodes, Tree.preorders, List.map_append, TypeNode.declaredTypesOf,
      map_declared_placeNode, map_declared_placeNodes]

end

/-- The table of an accepted schema has the types of the schema, in the same order. -/
theorem map_declared_preorder {schema : Schema} {table : CodeTable}
    (h : allocate schema = .ok table) :
    table.preorder.map (·.value.declaredType) = schema.declaredTypes := by
  obtain ⟨-, -, -, rfl⟩ := (allocate_eq_ok_iff schema table).mp h
  exact map_declared_placeNodes _ _ _ _ _

/-! ### Names along a path -/

/-- The beginnings of a list but the empty one. -/
theorem tail_inits_cons {α : Type} (item : α) (items : List α) :
    (item :: items).inits.tail = [item] :: items.inits.tail.map (item :: ·) := by
  cases items with
  | nil => rfl
  | cons next items => simp only [List.inits_cons, List.tail_cons, List.map_cons]

theorem mem_tail_inits_iff {α : Type} {items front : List α} :
    front ∈ items.inits.tail ↔ front ≠ [] ∧ front <+: items := by
  cases items with
  | nil => simp
  | cons item items =>
    rw [List.inits_cons, List.tail_cons, List.mem_map, List.prefix_cons_iff]
    simp only [List.mem_inits]
    constructor
    · rintro ⟨rest, hrest, rfl⟩
      exact ⟨List.cons_ne_nil _ _, Or.inr ⟨rest, rfl, hrest⟩⟩
    · rintro ⟨hne, rfl | ⟨rest, rfl, hrest⟩⟩
      · exact absurd rfl hne
      · exact ⟨rest, hrest, rfl⟩

namespace LevelPlaced

variable {typeBits : Nat} {owner : Code} {names : List String} {remaining : Nat}
  {layout : Layout} {nodes : List TableNode}

/-- The path of a type goes on behind the path of the level's owner. -/
theorem exists_names_eq_append (h : LevelPlaced typeBits owner names remaining layout nodes)
    {node : TableNode} (hnode : node ∈ Tree.preorders nodes) :
    ∃ rest, rest ≠ [] ∧ node.value.names = names ++ rest := by
  induction h with
  | @intro owner names remaining layout nodes fits below ih =>
    obtain ⟨top, htop, rfl | hsub⟩ := Tree.mem_preorders_iff.mp hnode
    · exact ⟨_, List.cons_ne_nil _ _, fits.names_eq htop⟩
    · cases top with
      | leaf slot => cases hsub
      | branch slot layout' children =>
        obtain ⟨rest, -, hrest⟩ := ih slot layout' children htop hsub
        have hslot : slot.names = names ++ [slot.info.name] := fits.names_eq htop
        refine ⟨slot.info.name :: rest, List.cons_ne_nil _ _, ?_⟩
        rw [hrest, hslot, List.append_assoc, List.singleton_append]

/-- The path of a type below another goes on behind the other's path. -/
theorem exists_names_eq_append_of_children
    (h : LevelPlaced typeBits owner names remaining layout nodes) {node sub : TableNode}
    (hnode : node ∈ nodes) (hsub : sub ∈ Tree.preorders node.children) :
    ∃ rest, rest ≠ [] ∧ sub.value.names = node.value.names ++ rest := by
  cases node with
  | leaf slot => cases hsub
  | branch slot layout' children => exact (h.level_below hnode).exists_names_eq_append hsub

/-- Identifiers stand on the path of a type. -/
theorem identifier_names (h : LevelPlaced typeBits owner names remaining layout nodes)
    (hnames : ∀ name ∈ names, Identifier name) {node : TableNode}
    (hnode : node ∈ Tree.preorders nodes) : ∀ name ∈ node.value.names, Identifier name := by
  induction h with
  | @intro owner names remaining layout nodes fits below ih =>
    obtain ⟨top, htop, rfl | hsub⟩ := Tree.mem_preorders_iff.mp hnode
    · exact fits.identifier_names hnames htop
    · cases top with
      | leaf slot => cases hsub
      | branch slot layout' children =>
        exact ih slot layout' children htop (fits.identifier_names hnames htop) hsub

/-- The types that a type's own code lies in have the beginnings of its path as their paths, those
that go beyond the owner of the level. -/
theorem map_names_chain (h : LevelPlaced typeBits owner names remaining layout nodes)
    {node : TableNode} (hnode : node ∈ Tree.preorders nodes) {rest : List String}
    (hrest : node.value.names = names ++ rest) :
    (TableNode.chain nodes node.value.code).map (·.value.names) =
      rest.inits.tail.map (names ++ ·) := by
  induction h generalizing rest with
  | @intro owner names remaining layout nodes fits below ih =>
    have h := LevelPlaced.intro fits below
    obtain ⟨top, htop, hsub⟩ := Tree.mem_preorders_iff.mp hnode
    have hcovers : top.value.covers node.value.code = true :=
      (h.mem_preorder_iff_covers (Tree.mem_preorders_of_mem htop) hnode).mp
        (Tree.mem_preorder_iff.mpr hsub)
    rw [h.chain_of_covers htop hcovers, List.map_cons]
    rcases hsub with rfl | hsub
    · have hname := fits.names_eq htop
      obtain rfl := List.append_cancel_left (hname.symm.trans hrest)
      rw [h.chain_children_eq_nil htop (h.typeCode_code hnode), hname]
      rfl
    · cases top with
      | leaf slot => cases hsub
      | branch slot layout' children =>
        have hslot : slot.names = names ++ [slot.info.name] := fits.names_eq htop
        obtain ⟨rest', -, hrest'⟩ := (h.level_below htop).exists_names_eq_append hsub
        obtain rfl : slot.info.name :: rest' = rest := by
          rw [hrest', hslot, List.append_assoc] at hrest
          exact List.append_cancel_left hrest
        rw [Tree.children, ih slot layout' children htop hsub hrest', tail_inits_cons,
          List.map_cons, List.map_map]
        show slot.names :: _ = _
        rw [hslot]
        congr 2
        funext names'
        exact List.append_assoc _ _ _

/-- A path belongs to one type. -/
theorem eq_of_names_eq (h : LevelPlaced typeBits owner names remaining layout nodes)
    {node node' : TableNode} (hnode : node ∈ Tree.preorders nodes)
    (hnode' : node' ∈ Tree.preorders nodes) (heq : node.value.names = node'.value.names) :
    node = node' := by
  induction h with
  | @intro owner names remaining layout nodes fits below ih =>
    have h := LevelPlaced.intro fits below
    -- the name behind those of the owner tells on which branch a type stands
    have hbranch : ∀ top ∈ nodes, ∀ sub, sub = top ∨ sub ∈ Tree.preorders top.children →
        ∃ rest, sub.value.names = names ++ top.value.info.name :: rest := by
      intro top htop sub hsub
      rcases hsub with rfl | hsub
      · exact ⟨[], fits.names_eq htop⟩
      · obtain ⟨rest, -, hrest⟩ := h.exists_names_eq_append_of_children htop hsub
        refine ⟨rest, ?_⟩
        rw [hrest, fits.names_eq htop, List.append_assoc, List.singleton_append]
    obtain ⟨top, htop, hsub⟩ := Tree.mem_preorders_iff.mp hnode
    obtain ⟨top', htop', hsub'⟩ := Tree.mem_preorders_iff.mp hnode'
    obtain ⟨rest, hrest⟩ := hbranch top htop node hsub
    obtain ⟨rest', hrest'⟩ := hbranch top' htop' node' hsub'
    rw [hrest, hrest', List.append_cancel_left_eq, List.cons.injEq] at heq
    obtain rfl := List.inj_on_of_nodup_map fits.distinct htop htop' heq.1
    rw [heq.2, ← hrest'] at hrest
    rcases hsub with rfl | hsub <;> rcases hsub' with rfl | hsub'
    · rfl
    · obtain ⟨more, hne, hmore⟩ := h.exists_names_eq_append_of_children htop hsub'
      rw [← hrest, List.self_eq_append_right] at hmore
      exact absurd hmore hne
    · obtain ⟨more, hne, hmore⟩ := h.exists_names_eq_append_of_children htop hsub
      rw [hrest, List.self_eq_append_right] at hmore
      exact absurd hmore hne
    · cases top with
      | leaf slot => cases hsub
      | branch slot layout' children => exact ih slot layout' children htop hsub hsub'

end LevelPlaced

/-! ### Look-up -/

/-- On a level a type is found by its name. -/
theorem LevelFits.named?_eq_some {typeBits : Nat} {owner : Code} {names : List String}
    {remaining : Nat} {layout : Layout} {nodes : List TableNode}
    (h : LevelFits typeBits owner names remaining layout nodes) {node : TableNode}
    (hnode : node ∈ nodes) : TableNode.named? node.value.info.name nodes = some node :=
  find?_key_eq h.distinct hnode

/-- From a level down a type is reached by the names that its path has beyond the owner of the
level. -/
theorem LevelPlaced.reached?_eq_some {typeBits : Nat} {owner : Code} {names : List String}
    {remaining : Nat} {layout : Layout} {nodes : List TableNode}
    (h : LevelPlaced typeBits owner names remaining layout nodes) {node : TableNode}
    (hnode : node ∈ Tree.preorders nodes) {rest : List String}
    (hrest : node.value.names = names ++ rest) : TableNode.reached? rest nodes = some node := by
  induction h generalizing rest with
  | @intro owner names remaining layout nodes fits below ih =>
    obtain ⟨top, htop, rfl | hsub⟩ := Tree.mem_preorders_iff.mp hnode
    · rw [fits.names_eq htop, List.append_cancel_left_eq] at hrest
      rw [← hrest, TableNode.reached?, fits.named?_eq_some htop]
    · cases top with
      | leaf slot => cases hsub
      | branch slot layout' children =>
        have hslot : slot.names = names ++ [slot.info.name] := fits.names_eq htop
        obtain ⟨rest', hne, hrest'⟩ :=
          (below slot layout' children htop).exists_names_eq_append hsub
        have hbelow := ih slot layout' children htop hsub hrest'
        rw [hrest', hslot, List.append_assoc, List.append_cancel_left_eq] at hrest
        have hnamed : TableNode.named? slot.info.name nodes = some (.branch slot layout' children) :=
          fits.named?_eq_some htop
        rw [← hrest, List.singleton_append, TableNode.reached?, hnamed, Option.bind_eq_bind,
          Option.bind_some, Tree.children, hbelow]
        exact fun hnil => hne hnil

/-! ### Dotted paths -/

theorem Identifier.not_mem_dot {name : String} (h : Identifier name) : '.' ∉ name.toList := by
  intro hdot
  exact absurd (List.all_eq_true.mp h.continues _ hdot) (by decide)

theorem map_ofList_toList (names : List String) :
    (names.map String.toList).map String.ofList = names := by
  rw [List.map_map]
  exact List.map_id'' (fun name => String.ofList_toList) _

/-- The fields of a dotted path are the names that it is made of. -/
theorem fields_intercalate {names : List String} (hne : names ≠ [])
    (h : ∀ name ∈ names, Identifier name) :
    Text.fields '.' (String.intercalate "." names).toList = names.map String.toList := by
  induction names with
  | nil => exact absurd rfl hne
  | cons name names ih =>
    obtain ⟨hname, hnames⟩ := List.forall_mem_cons.mp h
    have hfield := Text.fields_of_not_mem hname.not_mem_dot
    cases names with
    | nil => rw [String.intercalate_singleton, hfield, List.map_singleton]
    | cons next names =>
      have hdot : ".".toList = ['.'] := rfl
      rw [String.intercalate_cons_cons, String.toList_append, String.toList_append, hdot,
        List.append_assoc, List.singleton_append, Text.fields_append_cons, hfield,
        ih (List.cons_ne_nil _ _) hnames]
      rfl

/-- A dotted path belongs to one list of identifiers. -/
theorem eq_of_intercalate_eq {names names' : List String} (hne : names ≠ []) (hne' : names' ≠ [])
    (h : ∀ name ∈ names, Identifier name) (h' : ∀ name ∈ names', Identifier name)
    (heq : String.intercalate "." names = String.intercalate "." names') : names = names' := by
  have hfields := fields_intercalate hne h
  rw [heq, fields_intercalate hne' h'] at hfields
  exact (List.map_injective_iff.mpr (fun _ _ => String.toList_injective) hfields).symm

/-! ### Types of a table -/

section Table

variable {typeBits : Nat} {table : CodeTable}
  (h : LevelPlaced typeBits .unknown [] table.typeBits table.root table.nodes)
include h

theorem names_ne_nil {node : TableNode} (hnode : node ∈ table.preorder) :
    node.value.names ≠ [] := by
  obtain ⟨rest, hne, hrest⟩ := h.exists_names_eq_append hnode
  rw [hrest]
  exact hne

/-- Types of two tables have the same names if they have the same dotted path. -/
theorem names_eq_of_path_eq {typeBits' : Nat} {table' : CodeTable}
    (h' : LevelPlaced typeBits' .unknown [] table'.typeBits table'.root table'.nodes)
    {node node' : TableNode} (hnode : node ∈ table.preorder) (hnode' : node' ∈ table'.preorder)
    (hpath : node'.value.path = node.value.path) : node'.value.names = node.value.names :=
  eq_of_intercalate_eq (names_ne_nil h' hnode') (names_ne_nil h hnode)
    (h'.identifier_names (List.forall_mem_nil _) hnode')
    (h.identifier_names (List.forall_mem_nil _) hnode) hpath

/-- A type is found by its dotted path. -/
theorem find?_path {node : TableNode} (hnode : node ∈ table.preorder) :
    table.find? node.value.path = some node := by
  have hfields := fields_intercalate (names_ne_nil h hnode)
    (h.identifier_names (List.forall_mem_nil _) hnode)
  rw [CodeTable.find?, Slot.path, hfields, map_ofList_toList]
  exact h.reached?_eq_some hnode (List.nil_append _).symm

/-- The path of a type leads through types whose paths are the beginnings of its own. -/
theorem map_names_table_chain {node : TableNode} (hnode : node ∈ table.preorder) :
    (table.chain node.value.code).map (·.value.names) = node.value.names.inits.tail := by
  have hchain := h.map_names_chain hnode (List.nil_append node.value.names).symm
  rw [List.map_id'' fun names => List.nil_append names] at hchain
  exact hchain

/-- Each beginning of the path of a type is the path of a type, and the type stands in that one or
below it. -/
theorem exists_of_isPrefix {node : TableNode} (hnode : node ∈ table.preorder) {names : List String}
    (hne : names ≠ []) (hbegins : names <+: node.value.names) :
    ∃ above ∈ table.preorder, above.value.names = names ∧ node ∈ above.preorder := by
  have hmem := mem_tail_inits_iff.mpr ⟨hne, hbegins⟩
  rw [← map_names_table_chain h hnode] at hmem
  obtain ⟨above, habove, rfl⟩ := List.mem_map.mp hmem
  obtain ⟨habove, hcovers⟩ := List.mem_filter.mp habove
  exact ⟨above, habove, rfl, (h.mem_preorder_iff_covers habove hnode).mpr hcovers⟩

/-- A type stands in another or below it if and only if the other's path begins its own. -/
theorem mem_preorder_iff_isPrefix {node sub : TableNode} (hnode : node ∈ table.preorder)
    (hsub : sub ∈ table.preorder) :
    sub ∈ node.preorder ↔ node.value.names <+: sub.value.names := by
  constructor
  · intro hmem
    have hcovers := (h.mem_preorder_iff_covers hnode hsub).mp hmem
    have hchain : node ∈ table.chain sub.value.code := List.mem_filter.mpr ⟨hnode, hcovers⟩
    have hnames := List.mem_map_of_mem (f := fun node => node.value.names) hchain
    rw [map_names_table_chain h hsub] at hnames
    exact (mem_tail_inits_iff.mp hnames).2
  · intro hbegins
    obtain ⟨above, habove, hnames, hmem⟩ := exists_of_isPrefix h hsub (names_ne_nil h hnode) hbegins
    rwa [h.eq_of_names_eq hnode habove hnames.symm]

/-- The types of the root level are those with one name on their paths. -/
theorem mem_nodes_iff_length {node : TableNode} (hnode : node ∈ table.preorder) :
    node ∈ table.nodes ↔ node.value.names.length = 1 := by
  constructor
  · intro hroot
    rw [h.fits.names_eq hroot]
    rfl
  · intro hlength
    obtain ⟨top, htop, rfl | hsub⟩ := Tree.mem_preorders_iff.mp hnode
    · exact htop
    · obtain ⟨rest, hne, hrest⟩ := h.exists_names_eq_append_of_children htop hsub
      have hpos := List.length_pos_iff.mpr hne
      rw [hrest, h.fits.names_eq htop] at hlength
      simp only [List.length_append, List.length_singleton, List.length_nil] at hlength
      omega

end Table

end PlugTaxonomy
