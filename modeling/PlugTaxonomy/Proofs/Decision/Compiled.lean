import PlugTaxonomy.Artifacts
import PlugTaxonomy.Proofs.Decision.Contents
import PlugTaxonomy.Proofs.Table.Names

/-!
# What the decisions of a table are made of

The decisions on labels, usages and compatibility speak of nothing but the masks of levels and the
codes of types, which are constants that the table produces.

* `LevelFits.nodup_arm_codes` — arms for types of a level have codes that differ;
* `LevelFits.madeOf_switch` — what a switch over types of a level is made of;
* `madeOf_labels`, `madeOf_usage`, `madeOf_descent` — the contents of the three decisions.
-/

namespace PlugTaxonomy

theorem Slot.symbol_mem_variants (slot : Slot) : slot.symbol ∈ slot.variants := by
  rw [Slot.variants]
  split
  · exact List.mem_append_left _ List.mem_cons_self
  · exact List.mem_cons_self

theorem labelArms_eq_map (nodes : List TableNode) :
    labelArms nodes = nodes.map fun node => (node.value.symbol, labelDecision node) := by
  induction nodes with
  | nil => rfl
  | cons node nodes ih => rw [labelArms, ih, List.map_cons]

theorem descentArms_eq_map (layout : Layout) (nodes : List TableNode) :
    descentArms layout nodes =
      nodes.map fun node => (node.value.symbol, descentDecision layout node) := by
  induction nodes with
  | nil => rfl
  | cons node nodes ih => rw [descentArms, ih, List.map_cons]

/-- Arms are dropped from a level, but none is added or moved. -/
theorem usageArms_sublist (inherited : Inherited) (nodes : List TableNode) :
    (usageArms inherited nodes).Sublist
      (nodes.map fun node => (node.value.symbol, usageDecision inherited node)) := by
  induction nodes with
  | nil => exact .slnil
  | cons node nodes ih =>
    rw [usageArms, List.map_cons]
    split
    · exact ih.cons _
    · exact ih.cons_cons _

section Level

variable {typeBits : Nat} {owner : Code} {names : List String} {remaining : Nat}
  {layout : Layout} {nodes : List TableNode} {symbol : Symbol → Prop} {operand : Operand → Prop}

/-- The symbols that the types of a level produce. -/
theorem symbol_of_mem_nodes
    (hsymbol : ∀ producer ∈ TableNode.producersOf nodes, ∀ s ∈ producer.symbols, symbol s)
    {node : TableNode} (hnode : node ∈ nodes) : symbol node.value.symbol := by
  have hmem : .type node.value ∈ node.producers := by
    cases node with
    | leaf slot => exact List.mem_singleton_self _
    | branch slot layout' children => exact List.mem_cons_self
  exact hsymbol _ (TableNode.mem_producersOf.mpr ⟨node, hnode, hmem⟩) _
    node.value.symbol_mem_variants

/-- The symbols that the level below a type produces. -/
theorem symbols_below
    (hsymbol : ∀ producer ∈ TableNode.producersOf nodes, ∀ s ∈ producer.symbols, symbol s)
    {slot : Slot} {layout' : Layout} {children : List TableNode}
    (hmem : .branch slot layout' children ∈ nodes) :
    symbol layout'.symbol ∧
      ∀ producer ∈ TableNode.producersOf children, ∀ s ∈ producer.symbols, symbol s := by
  have hbelow : ∀ producer ∈ TableNode.producers (.branch slot layout' children),
      ∀ s ∈ producer.symbols, symbol s := fun producer hproducer =>
    hsymbol producer (TableNode.mem_producersOf.mpr ⟨_, hmem, hproducer⟩)
  rw [TableNode.producers, List.forall_mem_cons, List.forall_mem_cons] at hbelow
  exact ⟨hbelow.2.1 _ (List.mem_singleton_self _), hbelow.2.2⟩

/-- Arms for types of a level, some of which may be left out, have codes that differ. -/
theorem LevelFits.nodup_arm_codes {α : Type} {answer : TableNode → Decision α} {arms : Arms α}
    (h : LevelFits typeBits owner names remaining layout nodes)
    (harms : arms.Sublist (nodes.map fun node => (node.value.symbol, answer node))) :
    (arms.map (·.1.code)).Nodup := by
  have hcodes := harms.map (·.1.code)
  rw [List.map_map] at hcodes
  exact h.nodup_codes.sublist hcodes

/-- A switch over types of a level is made of what the level produces. -/
theorem LevelFits.madeOf_switch {α : Type} {value : α → Prop} {answer : TableNode → Decision α}
    {arms : Arms α} {default : Decision α} {o : Operand}
    (h : LevelFits typeBits owner names remaining layout nodes)
    (harms : arms.Sublist (nodes.map fun node => (node.value.symbol, answer node)))
    (ho : operand o) (hmask : symbol layout.symbol)
    (hsymbol : ∀ producer ∈ TableNode.producersOf nodes, ∀ s ∈ producer.symbols, symbol s)
    (hanswer : ∀ node ∈ nodes, (answer node).MadeOf symbol operand value)
    (hdefault : default.MadeOf symbol operand value) :
    (Decision.switch o layout.symbol arms default).MadeOf symbol operand value := by
  refine ⟨ho, hmask, h.nodup_arm_codes harms, ?_, hdefault⟩
  rw [Decision.armsMadeOf_iff]
  intro arm harm
  obtain ⟨node, hnode, rfl⟩ := List.mem_map.mp (harms.subset harm)
  exact ⟨symbol_of_mem_nodes hsymbol hnode, hanswer node hnode⟩

/-- The decision on labels looks at the type of a code alone. -/
theorem madeOf_labels (h : LevelPlaced typeBits owner names remaining layout nodes)
    (htype : operand .type) (hmask : symbol layout.symbol)
    (hsymbol : ∀ producer ∈ TableNode.producersOf nodes, ∀ s ∈ producer.symbols, symbol s)
    (fallback : Option String) :
    (Decision.switch .type layout.symbol (labelArms nodes) (.give fallback)).MadeOf symbol operand
      fun _ => True := by
  induction h generalizing fallback with
  | @intro owner names remaining layout nodes fits below ih =>
    have harms : (labelArms nodes).Sublist
        (nodes.map fun node => (node.value.symbol, labelDecision node)) := by
      rw [labelArms_eq_map]
    refine fits.madeOf_switch harms htype hmask hsymbol ?_ trivial
    intro node hnode
    cases node with
    | leaf slot => exact trivial
    | branch slot layout' children =>
      obtain ⟨hmask', hsymbol'⟩ := symbols_below hsymbol hnode
      rw [labelDecision]
      exact ih slot layout' children hnode hmask' hsymbol' _

/-- The usage that is left to the types below is `NONE` or an identifier. -/
theorem Inherited.identifier_tag {inherited : Inherited}
    (h : ∀ usage ∈ inherited.usage, Identifier usage) : Identifier inherited.tag.tag := by
  rw [Inherited.tag]
  cases husage : inherited.usage with
  | none =>
    show Identifier "NONE"
    exact (isIdentifier_iff _).mp (by decide)
  | some usage => exact h usage husage

theorem Inherited.identifier_enter {inherited : Inherited} {info : TypeInfo}
    (h : ∀ usage ∈ inherited.usage, Identifier usage)
    (hinfo : ∀ usage ∈ info.usage, Identifier usage) :
    ∀ usage ∈ (inherited.enter info).usage, Identifier usage := by
  rw [Inherited.enter]
  cases husage : info.usage with
  | none => exact h
  | some usage =>
    rw [husage] at hinfo
    exact hinfo

/-- The decision on usages looks at the type of a code alone, and its tags are identifiers. -/
theorem madeOf_usage (h : LevelPlaced typeBits owner names remaining layout nodes)
    (htype : operand .type) (hmask : symbol layout.symbol)
    (hsymbol : ∀ producer ∈ TableNode.producersOf nodes, ∀ s ∈ producer.symbols, symbol s)
    {inherited : Inherited} (hinherited : ∀ usage ∈ inherited.usage, Identifier usage) :
    (usageSwitch inherited layout (usageArms inherited nodes)).MadeOf symbol operand
      fun tag => Identifier tag.tag := by
  induction h generalizing inherited with
  | @intro owner names remaining layout nodes fits below ih =>
    have hdefault : (Decision.give inherited.tag).MadeOf symbol operand
        fun tag => Identifier tag.tag := Inherited.identifier_tag hinherited
    rw [usageSwitch]
    split
    · exact hdefault
    refine fits.madeOf_switch (usageArms_sublist inherited nodes) htype hmask hsymbol ?_ hdefault
    intro node hnode
    have henter := Inherited.identifier_enter hinherited (fits.identifiers node hnode).2
    cases node with
    | leaf slot => exact Inherited.identifier_tag henter
    | branch slot layout' children =>
      obtain ⟨hmask', hsymbol'⟩ := symbols_below hsymbol hnode
      rw [usageDecision]
      exact ih slot layout' children hnode hmask' hsymbol' henter

/-- The decision along the consumer's path looks at the types of consumer and producer. -/
theorem madeOf_descent (h : LevelPlaced typeBits owner names remaining layout nodes)
    (hdst : operand .dst) (hsrc : operand .src) (hmask : symbol layout.symbol)
    (hsymbol : ∀ producer ∈ TableNode.producersOf nodes, ∀ s ∈ producer.symbols, symbol s) :
    (Decision.switch .dst layout.symbol (descentArms layout nodes) (.give false)).MadeOf symbol
      operand fun _ => True := by
  induction h with
  | @intro owner names remaining layout nodes fits below ih =>
    have harms : (descentArms layout nodes).Sublist
        (nodes.map fun node => (node.value.symbol, descentDecision layout node)) := by
      rw [descentArms_eq_map]
    refine fits.madeOf_switch harms hdst hmask hsymbol ?_ trivial
    intro node hnode
    have haccept : (acceptWithin layout node.value).MadeOf symbol operand fun _ => True :=
      ⟨hsrc, hmask, symbol_of_mem_nodes hsymbol hnode, trivial, trivial⟩
    cases node with
    | leaf slot => exact haccept
    | branch slot layout' children =>
      obtain ⟨hmask', hsymbol'⟩ := symbols_below hsymbol hnode
      rw [descentDecision]
      split
      · exact haccept
      · exact ⟨hsrc, hmask', hdst, trivial, ih slot layout' children hnode hmask' hsymbol'⟩

end Level

end PlugTaxonomy
