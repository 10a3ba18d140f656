import PlugTaxonomy.Proofs.Decision.Compiled
import PlugTaxonomy.Proofs.Enumeration
import PlugTaxonomy.Proofs.UsageRange

/-!
# Artifacts speak of declared names

Programs name codes and usages by the constants of two enumerations.  Whatever the decisions and the
rules of an accepted schema speak of is declared there, in one place and with the same code.

* `CodeTable.Declares` — a symbol is a constant of the enumeration of a table;
* `madeOf_table_labels`, `madeOf_table_usage`, `madeOf_table_descent` — the decisions of a table
  speak of declared constants;
* `Artifacts.symbols` — all symbols in the decisions and the rules;
* `symbols_declared` — each of them is the one constant of its name, and all usages are declared.
-/

namespace PlugTaxonomy

/-! ### Declared symbols -/

/-- A name stands for a code in the enumeration of a table. -/
def CodeTable.Declares (table : CodeTable) (symbol : Symbol) : Prop :=
  symbol ∈ table.enumeration.map Constant.symbol

namespace CodeTable

variable {table : CodeTable}

theorem declares_of_flag {symbol : Symbol} (h : symbol ∈ Symbol.flags) : table.Declares symbol := by
  rw [Declares, map_symbol_enumeration]
  exact List.mem_append_left _ h

theorem declares_of_producer {producer : Producer} (hproducer : producer ∈ table.producers)
    {symbol : Symbol} (h : symbol ∈ producer.symbols) : table.Declares symbol := by
  rw [Declares, map_symbol_enumeration]
  exact List.mem_append_right _ (List.mem_flatMap.mpr ⟨producer, hproducer, h⟩)

/-- The mask of the root level is declared. -/
theorem declares_root : table.Declares table.root.symbol :=
  declares_of_producer List.mem_cons_self (List.mem_singleton_self _)

/-- All that the root level and the levels below it produce is declared. -/
theorem declares_below :
    ∀ producer ∈ TableNode.producersOf table.nodes, ∀ s ∈ producer.symbols, table.Declares s :=
  fun _ hproducer _ hs => declares_of_producer (List.mem_cons_of_mem _ hproducer) hs

/-- A root type that the rules look for is declared. -/
theorem declares_categorySymbol {name : String} {symbol : Symbol}
    (h : table.categorySymbol? name = some symbol) : table.Declares symbol := by
  obtain ⟨node, hnode, rfl⟩ := Option.map_eq_some_iff.mp h
  exact symbol_of_mem_nodes declares_below (List.mem_of_find?_eq_some hnode)

end CodeTable

section Allocated

variable {schema : Schema} {table : CodeTable} (h : allocate schema = .ok table)
include h

/-- No two constants of an accepted schema have the same name. -/
theorem nodup_enumeration : (table.enumeration.map (·.name)).Nodup := by
  obtain ⟨-, -, hclaims, rfl⟩ := (allocate_eq_ok_iff schema table).mp h
  exact (checkClaims_table_eq_ok_iff _).mp hclaims

/-- Each constant of an accepted schema is an identifier. -/
theorem identifier_of_declares {symbol : Symbol} (hsymbol : table.Declares symbol) :
    Identifier symbol.name := by
  obtain ⟨constant, hconstant, rfl⟩ := List.mem_map.mp hsymbol
  exact identifier_of_mem_enumeration (levelPlaced_of_allocate h) _
    (List.mem_map_of_mem hconstant)

/-- The decision on labels speaks of declared constants and of the type of a code. -/
theorem madeOf_table_labels :
    table.labels.MadeOf table.Declares (Operand.type = ·) fun _ => True :=
  madeOf_labels (levelPlaced_of_allocate h) rfl CodeTable.declares_root CodeTable.declares_below
    none

/-- The decision on usages speaks of declared constants and of the type of a code. -/
theorem madeOf_table_usage :
    table.usage.MadeOf table.Declares (Operand.type = ·) fun tag => Identifier tag.tag := by
  have hroot : ∀ usage ∈ Inherited.root.usage, Identifier usage := nofun
  exact madeOf_usage (levelPlaced_of_allocate h) rfl CodeTable.declares_root
    CodeTable.declares_below hroot

/-- The decision along the consumer's path speaks of declared constants and of both types. -/
theorem madeOf_table_descent :
    table.compatibility.descent.MadeOf table.Declares (· ≠ .type) fun _ => True := by
  have hdst : (fun operand : Operand => operand ≠ .type) .dst := nofun
  have hsrc : (fun operand : Operand => operand ≠ .type) .src := nofun
  exact madeOf_descent (levelPlaced_of_allocate h) hdst hsrc CodeTable.declares_root
    CodeTable.declares_below

end Allocated

/-! ### Symbols of artifacts -/

/-- All symbols that the rules look at. -/
def Compatibility.symbols (rules : Compatibility) : List Symbol :=
  rules.category ::
    (rules.switchCategories ++ rules.encoderCategory.toList ++ rules.descent.symbols)

/-- All symbols in what is made of a schema. -/
def Artifacts.symbols (artifacts : Artifacts) : List Symbol :=
  artifacts.labels.symbols ++ artifacts.usage.symbols ++ artifacts.compatibility.symbols

/-- All symbols of an accepted schema are declared. -/
theorem declares_of_mem_symbols {schema : Schema} {table : CodeTable}
    (h : allocate schema = .ok table) :
    ∀ s ∈ (Artifacts.ofTable table).symbols, table.Declares s := by
  have hlabels := Decision.forall_mem_symbols_of_madeOf _ (madeOf_table_labels h)
  have husage := Decision.forall_mem_symbols_of_madeOf _ (madeOf_table_usage h)
  have hdescent := Decision.forall_mem_symbols_of_madeOf _ (madeOf_table_descent h)
  have hswitches : ∀ s ∈ table.compatibility.switchCategories, table.Declares s := by
    intro s hs
    obtain ⟨name, -, hname⟩ := List.mem_filterMap.mp hs
    exact CodeTable.declares_categorySymbol hname
  have hencoder : ∀ s ∈ table.compatibility.encoderCategory.toList, table.Declares s :=
    fun s hs => CodeTable.declares_categorySymbol (Option.mem_toList.mp hs)
  have hrules : ∀ s ∈ table.compatibility.symbols, table.Declares s :=
    List.forall_mem_cons.mpr ⟨CodeTable.declares_root, List.forall_mem_append.mpr
      ⟨List.forall_mem_append.mpr ⟨hswitches, hencoder⟩, hdescent⟩⟩
  exact List.forall_mem_append.mpr ⟨List.forall_mem_append.mpr ⟨hlabels, husage⟩, hrules⟩

/-- **Artifacts speak of declared names.**  Each symbol in the decisions and the rules of an
accepted schema is, by name and code, a constant of the enumeration, which has no other constant of
that name.  Each usage in the decision is declared too, and so is the toggle variant of one that is
marked as a toggle. -/
theorem symbols_declared {schema : Schema} {table : CodeTable} (h : allocate schema = .ok table) :
    (∀ s ∈ (Artifacts.ofTable table).symbols, ∃ constant,
        (Artifacts.ofTable table).enumeration.filter (fun other => other.name = s.name) =
            [constant] ∧
          constant.symbol = s) ∧
      ∀ tag ∈ (Artifacts.ofTable table).usage.values,
        tag.tag ∈ (Artifacts.ofTable table).usages ∧
          (tag.toggle = true → tag.toggleTag ∈ (Artifacts.ofTable table).usages) := by
  constructor
  · intro s hs
    obtain ⟨constant, hconstant, rfl⟩ := List.mem_map.mp (declares_of_mem_symbols h s hs)
    exact ⟨constant, filter_key_eq (nodup_enumeration h) hconstant, rfl⟩
  · intro tag htag
    have hmem : ∀ isCommand, tag.resolve isCommand ∈ (Artifacts.ofTable table).usages :=
      mem_usages_of_mem_values htag
    constructor
    · have hplain := hmem false
      rwa [UsageTag.resolve, Bool.and_false] at hplain
    · intro htoggle
      have hcommand := hmem true
      rwa [UsageTag.resolve, htoggle] at hcommand

/-- The mask of the level of the light is a constant, and commands to the light have a usage that is
declared. -/
theorem symbols_sample : allocate Schema.sample = .ok Schema.sample.table ∧
    (∃ constant, (Artifacts.ofTable Schema.sample.table).enumeration.filter
        (fun other => other.name = "BINARY_POWER_CATEGORY") = [constant] ∧
      constant.symbol = ⟨"BINARY_POWER_CATEGORY", ⟨0x1fc⟩⟩) ∧
    "OFF_ON_TOGGLE" ∈ (Artifacts.ofTable Schema.sample.table).usages := by
  obtain ⟨hsymbols, husages⟩ := symbols_declared allocate_sample
  have hmask : ⟨"BINARY_POWER_CATEGORY", ⟨0x1fc⟩⟩ ∈
      (Artifacts.ofTable Schema.sample.table).symbols := by decide
  have htag : ⟨"OFF_ON", true⟩ ∈ (Artifacts.ofTable Schema.sample.table).usage.values := by decide
  exact ⟨allocate_sample, hsymbols _ hmask, (husages _ htag).2 rfl⟩

end PlugTaxonomy
