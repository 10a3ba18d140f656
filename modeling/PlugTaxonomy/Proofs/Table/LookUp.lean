import PlugTaxonomy.Proofs.Table.Paths
import PlugTaxonomy.Proofs.Table.Slots

/-!
# Look-up by dotted paths

Paths are joined from names on the way down, and a look-up divides them again.  The two undo one
another, since no name is empty or has a dot in it, and siblings have different names.

* `intercalate_fields` — the components of any text, joined by dots, give the text back;
* `LevelPlaced.reached?_eq_some_iff` — names reach a type from a level down if they are what its
  path has beyond the owner of the level;
* `find?_eq_some_iff_path` — a text leads to a type if and only if it is the type's path;
* `nodup_paths` — no two types have the same path;
* `HasEmptyComponent` — texts with nothing in front of a dot, behind one, or between two;
* `lookUp_inverts_path` — all of this for accepted schemas, with the texts that lead nowhere.
-/

namespace PlugTaxonomy

/-! ### Components -/

theorem intercalate_append_cons (dot front name : String) (names : List String) :
    String.intercalate dot ((front ++ name) :: names) =
      front ++ String.intercalate dot (name :: names) := by
  cases names with
  | nil => rw [String.intercalate_singleton, String.intercalate_singleton]
  | cons next names =>
    rw [String.intercalate_cons_cons, String.intercalate_cons_cons, String.append_assoc,
      String.append_assoc, String.append_assoc]

/-- The components of a text, joined by dots, give the text back. -/
theorem intercalate_fields (cs : List Char) :
    String.intercalate "." ((Text.fields '.' cs).map String.ofList) = String.ofList cs := by
  induction cs with
  | nil => rfl
  | cons c cs ih =>
    have hne := Text.fields_ne_nil '.' cs
    have hcons : ∀ ds, String.ofList (c :: ds) = String.ofList [c] ++ String.ofList ds := by
      intro ds
      rw [← String.ofList_append, List.singleton_append]
    rw [Text.fields]
    cases hfields : Text.fields '.' cs with
    | nil => exact absurd hfields hne
    | cons entry entries =>
      rw [hfields, List.map_cons] at ih
      split
      · rename_i hdot
        rw [List.map_cons, List.map_cons, String.intercalate_cons_cons, ih, hcons cs, hdot]
        rfl
      · rw [List.map_cons, hcons entry, intercalate_append_cons, ih, hcons cs]

/-! ### Names from a level down -/

theorem reached?_nil (names : List String) : TableNode.reached? names [] = none := by
  cases names with
  | nil => rfl
  | cons name names =>
    cases names with
    | nil => rfl
    | cons next names => rfl

section Level

variable {typeBits : Nat} {owner : Code} {names : List String} {remaining : Nat}
  {layout : Layout} {nodes : List TableNode}

theorem LevelFits.named?_eq_some_iff (h : LevelFits typeBits owner names remaining layout nodes)
    {name : String} {node : TableNode} :
    TableNode.named? name nodes = some node ↔ node ∈ nodes ∧ node.value.info.name = name :=
  find?_key_eq_some_iff h.distinct

/-- What is reached from a level down stands on the level or below it, and the names that it is
reached by are the end of its path. -/
theorem LevelPlaced.names_of_reached?
    (h : LevelPlaced typeBits owner names remaining layout nodes) {rest : List String}
    {node : TableNode} (hreached : TableNode.reached? rest nodes = some node) :
    node ∈ Tree.preorders nodes ∧ node.value.names = names ++ rest := by
  induction h generalizing rest with
  | @intro owner names remaining layout nodes fits below ih =>
    match rest, hreached with
    | [name], hreached =>
      obtain ⟨hnode, rfl⟩ := fits.named?_eq_some_iff.mp hreached
      exact ⟨Tree.mem_preorders_of_mem hnode, fits.names_eq hnode⟩
    | name :: next :: rest, hreached =>
      obtain ⟨top, hnamed, hrest⟩ := Option.bind_eq_some_iff.mp hreached
      obtain ⟨htop, rfl⟩ := fits.named?_eq_some_iff.mp hnamed
      cases top with
      | leaf slot =>
        rw [Tree.children, reached?_nil] at hrest
        cases hrest
      | branch slot layout' children =>
        obtain ⟨hnode, hnames⟩ := ih slot layout' children htop hrest
        have hslot : slot.names = names ++ [slot.info.name] := fits.names_eq htop
        refine ⟨Tree.mem_preorders_iff.mpr ⟨_, htop, Or.inr hnode⟩, ?_⟩
        rw [hnames, hslot, List.append_assoc]
        rfl

/-- From a level down, names reach the type whose path has just these names beyond the owner of the
level. -/
theorem LevelPlaced.reached?_eq_some_iff
    (h : LevelPlaced typeBits owner names remaining layout nodes) {rest : List String}
    {node : TableNode} :
    TableNode.reached? rest nodes = some node ↔
      node ∈ Tree.preorders nodes ∧ node.value.names = names ++ rest :=
  ⟨h.names_of_reached?, fun hnode => h.reached?_eq_some hnode.1 hnode.2⟩

end Level

/-! ### Paths of a table -/

/-- A text with a component that is empty: nothing stands in front of its first dot, behind its last
one, or between two of them. -/
def HasEmptyComponent (path : String) : Prop :=
  ∃ front back, path = front ++ back ∧ (front = "" ∨ ∃ before, front = before ++ ".") ∧
    (back = "" ∨ ∃ behind, back = "." ++ behind)

theorem nil_mem_fields_of_hasEmptyComponent {path : String} (h : HasEmptyComponent path) :
    [] ∈ Text.fields '.' path.toList := by
  have hdot : ".".toList = ['.'] := rfl
  have hfront : ∀ cs : List Char, [] ∈ Text.fields '.' ('.' :: cs) := fun cs => by
    rw [Text.fields, if_pos rfl]
    exact List.mem_cons_self
  obtain ⟨front, back, rfl, rfl | ⟨before, rfl⟩, rfl | ⟨behind, rfl⟩⟩ := h
  · exact List.mem_cons_self
  · rw [String.toList_append, String.toList_append, hdot]
    exact hfront _
  · rw [String.toList_append, String.toList_append, hdot, String.toList_empty, List.append_nil,
      Text.fields_append_cons]
    exact List.mem_append_right _ List.mem_cons_self
  · rw [String.toList_append, String.toList_append, String.toList_append, hdot, List.append_assoc,
      List.singleton_append, Text.fields_append_cons]
    exact List.mem_append_right _ (hfront _)

section Table

variable {typeBits : Nat} {table : CodeTable}
  (h : LevelPlaced typeBits .unknown [] table.typeBits table.root table.nodes)
include h

/-- A text leads to a type if and only if it is the type's path. -/
theorem find?_eq_some_iff_path {path : String} {node : TableNode} :
    table.find? path = some node ↔ node ∈ table.preorder ∧ node.value.path = path := by
  constructor
  · intro hfind
    obtain ⟨hnode, hnames⟩ := h.reached?_eq_some_iff.mp hfind
    refine ⟨hnode, ?_⟩
    rw [Slot.path, hnames, List.nil_append, intercalate_fields, String.ofList_toList]
  · rintro ⟨hnode, rfl⟩
    exact find?_path h hnode

theorem find?_eq_none_iff_path {path : String} :
    table.find? path = none ↔ ∀ node ∈ table.preorder, node.value.path ≠ path := by
  rw [Option.eq_none_iff_forall_ne_some]
  simp only [ne_eq, find?_eq_some_iff_path h, not_and]

/-- The components of a type's path are the names on it. -/
theorem fields_path {node : TableNode} (hnode : node ∈ table.preorder) :
    Text.fields '.' node.value.path.toList = node.value.names.map String.toList :=
  fields_intercalate (names_ne_nil h hnode) (h.identifier_names (List.forall_mem_nil _) hnode)

/-- No two types have the same path. -/
theorem nodup_paths : (table.preorder.map (·.value.path)).Nodup := by
  have hnodup : table.preorder.Nodup := h.nodup_codes.of_map _
  refine hnodup.map_on fun node hnode node' hnode' hpath => ?_
  exact h.eq_of_names_eq hnode hnode' (names_eq_of_path_eq h h hnode' hnode hpath)

theorem not_hasEmptyComponent_path {node : TableNode} (hnode : node ∈ table.preorder) :
    ¬HasEmptyComponent node.value.path := by
  intro hempty
  have hnil := nil_mem_fields_of_hasEmptyComponent hempty
  rw [fields_path h hnode] at hnil
  obtain ⟨name, hname, hlist⟩ := List.mem_map.mp hnil
  obtain ⟨c, cs, hcons, -⟩ := h.identifier_names (List.forall_mem_nil _) hnode name hname
  rw [hlist] at hcons
  cases hcons

/-- No path goes on behind that of a type without types below it. -/
theorem path_ne_beyond_leaf {node sub : TableNode} (hnode : node ∈ table.preorder)
    (hleaf : node.isLeaf = true) (hsub : sub ∈ table.preorder) (rest : String) :
    sub.value.path ≠ node.value.path ++ "." ++ rest := by
  intro hpath
  have hdot : ".".toList = ['.'] := rfl
  have hfields := fields_path h hsub
  rw [hpath, String.toList_append, String.toList_append, hdot, List.append_assoc,
    List.singleton_append, Text.fields_append_cons, fields_path h hnode] at hfields
  have hnames : sub.value.names =
      node.value.names ++ (Text.fields '.' rest.toList).map String.ofList := by
    have hjoined := congrArg (List.map String.ofList) hfields.symm
    rwa [List.map_append, map_ofList_toList, map_ofList_toList] at hjoined
  have hmem := (mem_preorder_iff_isPrefix h hnode hsub).mpr ⟨_, hnames.symm⟩
  cases node with
  | branch slot layout children => cases hleaf
  | leaf slot =>
    obtain rfl := List.mem_singleton.mp hmem
    rw [List.self_eq_append_right, List.map_eq_nil_iff] at hnames
    exact Text.fields_ne_nil _ _ hnames

end Table

/-- **Look-up inverts paths.**  In the table of an accepted schema a text leads to the type whose
path it is, and to no other: each path belongs to one type.  Nothing is found by a text with an
empty component, by one that ends in a dot, or by one that goes on behind the path of a type without
types below it. -/
theorem lookUp_inverts_path {schema : Schema} {table : CodeTable}
    (h : allocate schema = .ok table) :
    (∀ path node, table.find? path = some node ↔
        node ∈ table.preorder ∧ node.value.path = path) ∧
      (table.preorder.map (·.value.path)).Nodup ∧
      (∀ node ∈ table.preorder, table.find? node.value.path = some node) ∧
      (∀ path, HasEmptyComponent path → table.find? path = none) ∧
      (∀ path, table.find? (path ++ ".") = none) ∧
      ∀ node ∈ table.preorder, node.isLeaf = true →
        ∀ rest, table.find? (node.value.path ++ "." ++ rest) = none := by
  have hplaced := levelPlaced_of_allocate h
  have hempty : ∀ path, HasEmptyComponent path → table.find? path = none := by
    intro path hpath
    rw [find?_eq_none_iff_path hplaced]
    rintro node hnode rfl
    exact not_hasEmptyComponent_path hplaced hnode hpath
  refine ⟨fun path node => find?_eq_some_iff_path hplaced, nodup_paths hplaced,
    fun node hnode => find?_path hplaced hnode, hempty, fun path => hempty _ ?_,
    fun node hnode hleaf rest => ?_⟩
  · exact ⟨path ++ ".", "", (String.append_empty).symm, Or.inr ⟨path, rfl⟩, Or.inl rfl⟩
  · rw [find?_eq_none_iff_path hplaced]
    exact fun sub hsub => path_ne_beyond_leaf hplaced hnode hleaf hsub rest

/-- The light is found by its path alone. -/
theorem lookUp_sample : allocate Schema.sample = .ok Schema.sample.table ∧
    (∃ node, Schema.sample.table.find? "BINARY.POWER.LIGHT" = some node ∧
      node.value.code = ⟨0xa4⟩) ∧
    Schema.sample.table.find? "BINARY..LIGHT" = none ∧
    Schema.sample.table.find? "BINARY.POWER." = none ∧
    Schema.sample.table.find? "BINARY.POWER.LIGHT.FAN" = none := by
  obtain ⟨-, -, hfind, hempty, hdot, hleaf⟩ := lookUp_inverts_path allocate_sample
  have hlight : .leaf ⟨⟨"LIGHT", .command, "Light", none, ""⟩, ["BINARY", "POWER", "LIGHT"], 1,
      ⟨0xa4⟩, ⟨0x1fc⟩⟩ ∈ Schema.sample.table.preorder := by decide
  exact ⟨allocate_sample, ⟨_, hfind _ hlight, rfl⟩,
    hempty _ ⟨"BINARY.", ".LIGHT", rfl, Or.inr ⟨"BINARY", rfl⟩, Or.inr ⟨"LIGHT", rfl⟩⟩,
    hdot "BINARY.POWER", hleaf _ hlight rfl "FAN"⟩

end PlugTaxonomy
