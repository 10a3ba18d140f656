import PlugTaxonomy.Enumeration
import PlugTaxonomy.Proofs.Table.Chain

/-!
# Constants and who produces them

Each level of a table produces the constant of its mask, and each type those of its variants.  Two
passes go over the table and have to meet them in the same order: the one that looks for a constant
that is taken twice, and the one that lists the enumeration.

* `Producer` — a level or a type with the constants that it produces and the path that it is
  reported under;
* `CodeTable.producers`, `CodeTable.produced` — all producers in pre-order, and the names of their
  constants;
* `claims_eq_map_produced`, `map_symbol_enumeration` — both passes follow that order;
* `LevelPlaced.identifier_of_mem_producersOf` — all constants of an allocated table are identifiers.
-/

namespace PlugTaxonomy

/-! ### Joined identifiers -/

theorem Identifier.continues {name : String} (h : Identifier name) :
    name.toList.all continuesIdentifier = true := by
  obtain ⟨c, cs, hlist, hc, hcs⟩ := h
  rw [hlist, List.all_cons, Bool.and_eq_true, List.all_eq_true, continuesIdentifier_iff]
  refine ⟨?_, fun d hd => (continuesIdentifier_iff d).mpr (hcs d hd)⟩
  rcases hc with hletter | hunderscore
  · exact Or.inl hletter
  · exact Or.inr (Or.inr hunderscore)

/-- An identifier stays one if more of its characters are put behind it. -/
theorem Identifier.append {name rest : String} (h : Identifier name)
    (hrest : rest.toList.all continuesIdentifier = true) : Identifier (name ++ rest) := by
  obtain ⟨c, cs, hlist, hc, hcs⟩ := h
  refine ⟨c, cs ++ rest.toList, ?_, hc, ?_⟩
  · rw [String.toList_append, hlist, List.cons_append]
  · intro d hd
    rcases List.mem_append.mp hd with hd | hd
    · exact hcs d hd
    · exact (continuesIdentifier_iff d).mp (List.all_eq_true.mp hrest d hd)

/-- Identifiers joined by underscores are an identifier. -/
theorem identifier_intercalate {names : List String} (hne : names ≠ [])
    (h : ∀ name ∈ names, Identifier name) : Identifier (String.intercalate "_" names) := by
  induction names with
  | nil => exact absurd rfl hne
  | cons name names ih =>
    obtain ⟨hname, hnames⟩ := List.forall_mem_cons.mp h
    cases names with
    | nil =>
      rw [String.intercalate_singleton]
      exact hname
    | cons next names =>
      have hrest := ih (List.cons_ne_nil _ _) hnames
      rw [String.intercalate_cons_cons, String.append_assoc]
      refine hname.append ?_
      rw [String.toList_append, List.all_append, hrest.continues]
      rfl

/-- The name of a mask is `CATEGORY` behind the names of the level's owner. -/
theorem Layout.maskName_eq_intercalate (layout : Layout) :
    layout.maskName = String.intercalate "_" (layout.names ++ ["CATEGORY"]) := by
  rw [Layout.maskName, Layout.namePrefix]
  induction layout.names with
  | nil => rfl
  | cons name names ih =>
    rw [List.map_cons, String.join_cons, String.append_assoc, ih]
    cases names with
    | nil => rfl
    | cons next names => exact String.intercalate_cons_cons.symm

/-! ### Producers -/

/-- What a constant comes from: a level below its owner, or a type. -/
inductive Producer where
  | mask (owner : Option Slot) (layout : Layout)
  | type (slot : Slot)

namespace Producer

/-- The constants of a producer in order. -/
def symbols : Producer → List Symbol
  | mask _ layout => [layout.symbol]
  | type slot => slot.variants

/-- The path that a producer is reported under: that of the type, or of the owner of the level. -/
def path : Producer → String
  | mask none _ => "<root>"
  | mask (some owner) _ => owner.path
  | type slot => slot.path

end Producer

mutual

/-- A type, the level below it, and all producers there. -/
def TableNode.producers : TableNode → List Producer
  | .leaf slot => [.type slot]
  | .branch slot layout children =>
    .type slot :: .mask (some slot) layout :: TableNode.producersOf children

/-- The producers among the types of a list and below them. -/
def TableNode.producersOf : List TableNode → List Producer
  | [] => []
  | node :: nodes => node.producers ++ TableNode.producersOf nodes

end

/-- All producers of a table in pre-order, the root level first. -/
def CodeTable.producers (table : CodeTable) : List Producer :=
  .mask none table.root :: TableNode.producersOf table.nodes

/-- The names of the constants of some producers, each with its producer. -/
def Producer.named (producers : List Producer) : List (String × Producer) :=
  producers.flatMap fun producer => producer.symbols.map fun symbol => (symbol.name, producer)

/-- The names of the constants that levels and types of a table produce, each with its producer. -/
def CodeTable.produced (table : CodeTable) : List (String × Producer) :=
  Producer.named table.producers

/-- A constant as a named code alone. -/
def Constant.symbol (constant : Constant) : Symbol :=
  ⟨constant.name, constant.code⟩

theorem TableNode.mem_producersOf {nodes : List TableNode} {producer : Producer} :
    producer ∈ TableNode.producersOf nodes ↔ ∃ node ∈ nodes, producer ∈ node.producers := by
  induction nodes with
  | nil => simp [TableNode.producersOf]
  | cons node nodes ih =>
    simp only [TableNode.producersOf, List.mem_append, ih, List.mem_cons, exists_eq_or_imp]

theorem Producer.named_cons (producer : Producer) (producers : List Producer) :
    Producer.named (producer :: producers) =
      (producer.symbols.map fun symbol => (symbol.name, producer)) ++ Producer.named producers :=
  List.flatMap_cons

theorem Producer.named_append (producers others : List Producer) :
    Producer.named (producers ++ others) = Producer.named producers ++ Producer.named others :=
  List.flatMap_append

/-! ### Both passes -/

mutual

theorem claims_eq_map_named (node : TableNode) :
    node.claims = (Producer.named node.producers).map fun entry => (entry.1, entry.2.path) := by
  cases node with
  | leaf slot => simp [TableNode.claims, TableNode.producers, Producer.named, Producer.symbols,
      Producer.path]
  | branch slot layout children =>
    rw [TableNode.claims, TableNode.producers, claimsOf_eq_map_named children]
    simp [Producer.named, Producer.symbols, Producer.path, Layout.symbol]

theorem claimsOf_eq_map_named (nodes : List TableNode) :
    TableNode.claimsOf nodes =
      (Producer.named (TableNode.producersOf nodes)).map fun entry => (entry.1, entry.2.path) := by
  cases nodes with
  | nil => rfl
  | cons node nodes =>
    rw [TableNode.claimsOf, TableNode.producersOf, Producer.named_append, List.map_append,
      claims_eq_map_named node, claimsOf_eq_map_named nodes]

end

/-- The constants are checked in the order of their producers, and reported under their paths. -/
theorem claims_eq_map_produced (table : CodeTable) :
    table.claims = table.produced.map fun entry => (entry.1, entry.2.path) := by
  rw [CodeTable.claims, claimsOf_eq_map_named, CodeTable.produced, CodeTable.producers,
    Producer.named_cons]
  rfl

theorem map_symbol_slot_constants (slot : Slot) (depth : Nat) :
    (slot.constants depth).map Constant.symbol = slot.variants := by
  rw [Slot.constants]
  cases slot.variants with
  | nil => rfl
  | cons first others =>
    rw [List.map_cons, List.map_map]
    exact congrArg _ (List.map_id others)

mutual

theorem map_symbol_constants (node : TableNode) (depth : Nat) :
    (node.constants depth).map Constant.symbol = node.producers.flatMap Producer.symbols := by
  cases node with
  | leaf slot =>
    rw [TableNode.constants, map_symbol_slot_constants]
    exact (List.append_nil _).symm
  | branch slot layout children =>
    rw [TableNode.constants, List.map_append, List.map_cons, map_symbol_slot_constants,
      map_symbol_constantsOf children]
    rfl

theorem map_symbol_constantsOf (nodes : List TableNode) (depth : Nat) :
    (TableNode.constantsOf depth nodes).map Constant.symbol =
      (TableNode.producersOf nodes).flatMap Producer.symbols := by
  cases nodes with
  | nil => rfl
  | cons node nodes =>
    rw [TableNode.constantsOf, TableNode.producersOf, List.map_append, List.flatMap_append,
      map_symbol_constants node, map_symbol_constantsOf nodes]

end

/-- The enumeration lists the flags, and then the constants in the order of their producers. -/
theorem map_symbol_enumeration (table : CodeTable) :
    table.enumeration.map Constant.symbol =
      Symbol.flags ++ table.producers.flatMap Producer.symbols := by
  have hflags : flagConstants.map Constant.symbol = Symbol.flags := rfl
  rw [CodeTable.enumeration, List.map_append, List.map_cons, map_symbol_constantsOf, hflags]
  rfl

theorem map_name_enumeration (table : CodeTable) :
    table.enumeration.map (·.name) =
      Symbol.flags.map (·.name) ++ table.produced.map (·.1) := by
  have hsymbols := congrArg (List.map Symbol.name) (map_symbol_enumeration table)
  rw [List.map_map, List.map_append] at hsymbols
  refine hsymbols.trans ?_
  rw [CodeTable.produced, Producer.named, List.map_flatMap, List.map_flatMap]
  simp only [List.map_map, Function.comp_def]

/-! ### Names of constants -/

/-- A type whose names are identifiers has variants whose names are. -/
theorem Slot.identifier_of_mem_variants {slot : Slot} (hne : slot.names ≠ [])
    (h : ∀ name ∈ slot.names, Identifier name) :
    ∀ symbol ∈ slot.variants, Identifier symbol.name := by
  have hname : Identifier slot.qualifiedName := identifier_intercalate hne h
  have hin : Identifier (slot.qualifiedName ++ "_IN") := hname.append (by decide)
  have hout : Identifier (slot.qualifiedName ++ "_OUT") := hname.append (by decide)
  have hcmdIn : Identifier (slot.qualifiedName ++ "_CMD_IN") := hname.append (by decide)
  have hcmdOut : Identifier (slot.qualifiedName ++ "_CMD_OUT") := hname.append (by decide)
  intro symbol hsymbol
  rw [Slot.variants] at hsymbol
  split at hsymbol
  · simp only [List.mem_append, List.mem_cons, List.not_mem_nil, or_false] at hsymbol
    rcases hsymbol with (rfl | rfl | rfl) | (rfl | rfl) <;> assumption
  · simp only [List.mem_cons, List.not_mem_nil, or_false] at hsymbol
    rcases hsymbol with rfl | rfl | rfl <;> assumption

/-- A level whose owner's names are identifiers has a mask whose name is. -/
theorem Layout.identifier_maskName {layout : Layout} (h : ∀ name ∈ layout.names, Identifier name) :
    Identifier layout.maskName := by
  rw [layout.maskName_eq_intercalate]
  refine identifier_intercalate (by simp) fun name hname => ?_
  rcases List.mem_append.mp hname with hname | hname
  · exact h name hname
  · obtain rfl := List.mem_singleton.mp hname
    exact (isIdentifier_iff _).mp (by decide)

section Placed

variable {typeBits : Nat} {owner : Code} {names : List String} {remaining : Nat}
  {layout : Layout} {nodes : List TableNode}

/-- The names of a type are those of the level's owner with the type's own name behind them. -/
theorem LevelFits.names_eq (h : LevelFits typeBits owner names remaining layout nodes)
    {node : TableNode} (hnode : node ∈ nodes) :
    node.value.names = names ++ [node.value.info.name] := by
  rw [h.slots node hnode, ← h.layout_names]
  rfl

theorem LevelFits.identifier_names (h : LevelFits typeBits owner names remaining layout nodes)
    (hnames : ∀ name ∈ names, Identifier name) {node : TableNode} (hnode : node ∈ nodes) :
    ∀ name ∈ node.value.names, Identifier name := by
  intro name hname
  rw [h.names_eq hnode] at hname
  rcases List.mem_append.mp hname with hname | hname
  · exact hnames name hname
  · obtain rfl := List.mem_singleton.mp hname
    exact (h.identifiers node hnode).1

/-- All constants on a level and below it are identifiers if the names of its owner are. -/
theorem LevelPlaced.identifier_of_mem_producersOf
    (h : LevelPlaced typeBits owner names remaining layout nodes)
    (hnames : ∀ name ∈ names, Identifier name) :
    ∀ producer ∈ TableNode.producersOf nodes, ∀ symbol ∈ producer.symbols,
      Identifier symbol.name := by
  induction h with
  | @intro owner names remaining layout nodes fits below ih =>
    have hvariants : ∀ node ∈ nodes, ∀ symbol ∈ node.value.variants, Identifier symbol.name := by
      intro node hnode
      refine Slot.identifier_of_mem_variants ?_ (fits.identifier_names hnames hnode)
      rw [fits.names_eq hnode]
      exact List.concat_ne_nil _ _
    intro producer hproducer symbol hsymbol
    obtain ⟨node, hnode, hmem⟩ := TableNode.mem_producersOf.mp hproducer
    cases node with
    | leaf slot =>
      obtain rfl := List.mem_singleton.mp hmem
      exact hvariants _ hnode symbol hsymbol
    | branch slot layout' children =>
      have hslot : ∀ name ∈ slot.names, Identifier name := fits.identifier_names hnames hnode
      rw [TableNode.producers] at hmem
      rcases List.mem_cons.mp hmem with rfl | hmem
      · exact hvariants _ hnode symbol hsymbol
      rcases List.mem_cons.mp hmem with rfl | hmem
      · obtain rfl := List.mem_singleton.mp hsymbol
        refine Layout.identifier_maskName ?_
        rw [(below slot layout' children hnode).fits.layout_names]
        exact hslot
      · exact ih slot layout' children hnode hslot producer hmem symbol hsymbol

end Placed

end PlugTaxonomy
