import PlugTaxonomy.Artifacts
import PlugTaxonomy.Proofs.Table.Chain

/-!
# Labels are those of the deepest type

* `evaluate_labels` — the decision of a level labels a code as the last type of its chain, and
  falls back where the chain is empty;
* `label?_of_typeCode` — a type's code has the type's label with any flags;
* `label_eq_deepest` — the label of every code under an accepted schema.
-/

namespace PlugTaxonomy

/-- There is one arm for each type of a level. -/
theorem mem_labelArms {nodes : List TableNode} {arm : Symbol × Decision (Option String)} :
    arm ∈ labelArms nodes ↔ ∃ node ∈ nodes, arm = (node.value.symbol, labelDecision node) := by
  induction nodes with
  | nil => simp [labelArms]
  | cons node nodes ih => simp only [labelArms, List.mem_cons, ih, exists_eq_or_imp]

section Level

variable {typeBits : Nat} {owner : Code} {names : List String} {remaining : Nat}
  {layout : Layout} {nodes : List TableNode}

/-- A code is labelled as the last type of its chain, or as the level falls back. -/
theorem evaluate_labels (h : LevelPlaced typeBits owner names remaining layout nodes) (c : Code)
    (fallback : Option String) :
    (Decision.switch .type layout.symbol (labelArms nodes) (.give fallback)).evaluate
        (.ofType c) =
      ((TableNode.chain nodes c).getLast?.map (·.value.info.label)).or fallback := by
  induction h generalizing fallback with
  | @intro owner names remaining layout nodes fits below ih =>
    have harms : ∀ arm ∈ labelArms nodes,
        ∃ node ∈ nodes, arm = (node.value.symbol, labelDecision node) :=
      fun arm harm => mem_labelArms.mp harm
    rcases (LevelPlaced.intro fits below).chain_cases c with
      ⟨hnone, hchain⟩ | ⟨node, hnode, hcovers, hchain⟩
    · rw [fits.evaluate_switch_of_none harms (c := c) rfl fun node hnode _ => hnone node hnode,
        hchain]
      rfl
    · rw [fits.evaluate_switch_of_covers harms (c := c) rfl hnode
        (mem_labelArms.mpr ⟨node, hnode, rfl⟩) hcovers, hchain, List.getLast?_cons]
      cases node with
      | leaf slot => rfl
      | branch slot layout' children =>
        rw [labelDecision, ih slot layout' children hnode, Tree.children]
        cases (TableNode.chain children c).getLast? <;> rfl

end Level

section Allocated

variable {schema : Schema} {table : CodeTable} (h : allocate schema = .ok table)
include h

/-- A code that is a type's but for flags has the type's label. -/
theorem label?_of_typeCode {node : TableNode} (hnode : node ∈ table.preorder) {c : Code}
    (hc : c.typeCode = node.value.code) :
    (Artifacts.ofTable table).label? c = some node.value.info.label := by
  have hplaced := levelPlaced_of_allocate h
  refine (evaluate_labels hplaced c none).trans ?_
  rw [hplaced.getLast?_chain_self hnode hc]
  rfl

end Allocated

/-- **A code is labelled as the deepest type it lies in.**  The types that a code lies in are a
path from the root level down, the label is that of the last type on it, and there is none just if
the path is empty.  A type's own code has the type's label, whatever flags are put in. -/
theorem label_eq_deepest {schema : Schema} {table : CodeTable}
    (h : allocate schema = .ok table) :
    (∀ c, Tree.Descent table.nodes (table.chain c) ∧
        (Artifacts.ofTable table).label? c =
          (table.chain c).getLast?.map (·.value.info.label) ∧
        ((Artifacts.ofTable table).label? c = none ↔ table.chain c = [])) ∧
      ∀ node ∈ table.preorder, ∀ flags : Code, flags.typeCode = .unknown →
        (Artifacts.ofTable table).label? (node.value.code.union flags) =
          some node.value.info.label := by
  have hplaced := levelPlaced_of_allocate h
  have hlabel : ∀ c, (Artifacts.ofTable table).label? c =
      (table.chain c).getLast?.map (·.value.info.label) := by
    intro c
    have hlevel := evaluate_labels hplaced c none
    rw [Option.or_none] at hlevel
    exact hlevel
  constructor
  · intro c
    refine ⟨hplaced.descent_chain c, hlabel c, ?_⟩
    rw [hlabel c, Option.map_eq_none_iff, List.getLast?_eq_none_iff]
  · intro node hnode flags hflags
    have hcode : (node.value.code.union flags).typeCode = node.value.code :=
      Code.typeCode_union_of_flags (hplaced.typeCode_code hnode) hflags
    have hlast : (table.chain (node.value.code.union flags)).getLast? = some node :=
      hplaced.getLast?_chain_self hnode hcode
    rw [hlabel, hlast]
    rfl

/-- A command of a fan, with bits set that belong to no selector. -/
theorem label_sample : allocate Schema.sample = .ok Schema.sample.table ∧
    (Artifacts.ofTable Schema.sample.table).label? ⟨0x64a9⟩ = some "Fan" := by
  refine ⟨allocate_sample, ?_⟩
  rw [((label_eq_deepest allocate_sample).1 ⟨0x64a9⟩).2.1]
  decide

end PlugTaxonomy
