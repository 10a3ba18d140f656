import PlugTaxonomy.Proofs.Code.Flags
import PlugTaxonomy.Proofs.Decision.Alive

/-!
# Usages are those of codes

The decision on usages drops arms, so it has to be seen that nothing is left in it that no code
comes to: what stands in an arm is the answer for a code that lies in the type of the arm, and the
default of a level is the answer for the code of the level's owner.

* `Decision.AnswersUnder` — a value is the answer for some code under an owner;
* `answersUnder_of_mem_values` — every value of the decision of a level is such an answer;
* `mem_usages_iff` — usages are what values of the decision resolve to;
* `usages_eq_range` — the usages of an accepted schema are those that its codes have.
-/

namespace PlugTaxonomy

/-! ### Values of the decision -/

/-- The values of a level are those of its arms and what is inherited, even if no arm is left. -/
theorem mem_values_usageSwitch {inherited : Inherited} {layout : Layout} {arms : Arms UsageTag}
    {tag : UsageTag} :
    tag ∈ (usageSwitch inherited layout arms).values ↔
      (∃ arm ∈ arms, tag ∈ arm.2.values) ∨ tag = inherited.tag := by
  rw [usageSwitch]
  split
  · rename_i hempty
    rw [List.isEmpty_iff.mp hempty, Decision.values, List.mem_singleton]
    simp only [List.not_mem_nil, false_and, exists_false, false_or]
  · rw [Decision.values, List.mem_append, Decision.mem_armValues_iff, Decision.values,
      List.mem_singleton]

/-- A value is the answer for a code without flags that a mask takes to an owner. -/
def Decision.AnswersUnder {α : Type} (decision : Decision α) (mask owner : Code) (value : α) : Prop :=
  ∃ c : Code, c.typeCode = c ∧ c.masked mask = owner ∧ decision.evaluate (.ofType c) = value

section Level

variable {typeBits : Nat} {owner : Code} {names : List String} {remaining : Nat}
  {layout : Layout} {nodes : List TableNode} {inherited : Inherited} {tag : UsageTag}

/-- What a level inherits is the answer for the code of its owner. -/
theorem LevelFits.answersUnder_owner (h : LevelFits typeBits owner names remaining layout nodes) :
    (usageSwitch inherited layout (usageArms inherited nodes)).AnswersUnder
      (Code.categoryMask remaining typeBits) owner inherited.tag := by
  have hc := h.typeCode_owner
  refine ⟨owner, hc, h.owner_masked, ?_⟩
  rw [evaluate_usageSwitch, h.evaluate_switch_of_none exists_node_of_mem_usageArms (c := owner) rfl
    fun node hnode _ => h.not_covers_owner hnode hc]
  rfl

/-- Every value of the decision of a level is the answer for a code under the owner of the level. -/
theorem answersUnder_of_mem_values
    (h : LevelPlaced typeBits owner names remaining layout nodes)
    (htag : tag ∈ (usageSwitch inherited layout (usageArms inherited nodes)).values) :
    (usageSwitch inherited layout (usageArms inherited nodes)).AnswersUnder
      (Code.categoryMask remaining typeBits) owner tag := by
  have hfollows := (followsLevels_usage h inherited).imp fun _ _ hs => hs.standsOn
  obtain ⟨c, ⟨hc, howner⟩, hanswer⟩ := (h.alive hfollows fun _ => rfl).exists_of_mem_values
    (isBranching_usage inherited layout nodes)
    ⟨owner, h.fits.typeCode_owner, h.fits.owner_masked⟩ htag
  exact ⟨c, hc, howner, hanswer⟩

end Level

/-! ### Usages -/

theorem mem_ascending {texts : List String} {text : String} :
    text ∈ ascending texts ↔ text ∈ texts := by
  rw [ascending, Std.TreeSet.mem_toList, Std.TreeSet.mem_ofList, List.contains_iff_mem]

/-- Each text comes once, in front of the greater ones. -/
theorem pairwise_ascending (texts : List String) : (ascending texts).Pairwise (· < ·) := by
  have hordered := Std.TreeSet.ordered_toList (t := Std.TreeSet.ofList texts)
  exact hordered.imp fun hlt => compareOfLessAndEq_eq_lt.mp hlt

/-- What a code's usage resolves to, as a value and as a command, is one of the usages of a
program. -/
theorem mem_usages_of_mem_values {table : CodeTable} {tag : UsageTag} (h : tag ∈ table.usage.values)
    (isCommand : Bool) : tag.resolve isCommand ∈ table.usages := by
  rw [CodeTable.usages, mem_ascending]
  refine List.mem_append_right _ (List.mem_flatMap.mpr ⟨tag, h, ?_⟩)
  cases isCommand
  · exact List.mem_cons_self
  · exact List.mem_cons_of_mem _ (List.mem_singleton_self _)

section Allocated

variable {schema : Schema} {table : CodeTable} (h : allocate schema = .ok table)
include h

/-- A type that declares a usage has it. -/
theorem evaluate_usage_of_declared {node : TableNode} (hnode : node ∈ table.preorder)
    {usage : String} (husage : node.value.info.usage = some usage) :
    ∃ toggle, table.usage.evaluate (.ofType node.value.code) = ⟨usage, toggle⟩ := by
  have hplaced := levelPlaced_of_allocate h
  obtain ⟨above, habove⟩ := List.getLast?_eq_some_iff.mp
    (hplaced.getLast?_chain_self hnode (hplaced.typeCode_code hnode))
  have hevaluate := evaluate_usage hplaced node.value.code .root
  rw [TableNode.declared, habove, List.map_append, List.map_singleton,
    Inherited.along_of_nearest _ _ husage (List.forall_mem_nil _)] at hevaluate
  exact ⟨_, hevaluate⟩

/-- The usages of an accepted schema are what the values of the decision resolve to: no type
declares a usage that is not found there. -/
theorem mem_usages_iff {usage : String} :
    usage ∈ table.usages ↔
      ∃ tag ∈ table.usage.values, ∃ isCommand, tag.resolve isCommand = usage := by
  constructor
  · intro hmem
    rw [CodeTable.usages, mem_ascending, List.mem_append, List.mem_cons] at hmem
    rcases hmem with (rfl | hdeclared) | hresolved
    · exact ⟨.none, mem_values_usageSwitch.mpr (Or.inr rfl), false, rfl⟩
    · obtain ⟨node, hnode, husage⟩ := List.mem_filterMap.mp hdeclared
      obtain ⟨toggle, hevaluate⟩ := evaluate_usage_of_declared h hnode husage
      refine ⟨⟨usage, toggle⟩, ?_, false, ?_⟩
      · rw [← hevaluate]
        exact Decision.evaluate_mem_values _ _
      · rw [UsageTag.resolve, Bool.and_false]
        rfl
    · obtain ⟨tag, htag, hmem⟩ := List.mem_flatMap.mp hresolved
      rw [List.mem_cons, List.mem_singleton] at hmem
      rcases hmem with rfl | rfl
      · exact ⟨tag, htag, false, rfl⟩
      · exact ⟨tag, htag, true, rfl⟩
  · rintro ⟨tag, htag, isCommand, rfl⟩
    exact mem_usages_of_mem_values htag isCommand

end Allocated

/-- **Usages are those of codes.**  The usages of an accepted schema, each listed once, are those
that codes have as the values or commands that they are: every answer about a code is one of them,
and every one of them, be it `NONE`, a declared usage or a toggle variant, is the answer for some
code. -/
theorem usages_eq_range {schema : Schema} {table : CodeTable} (h : allocate schema = .ok table) :
    (Artifacts.ofTable table).usages.Pairwise (· < ·) ∧
      (∀ c isCommand,
        (Artifacts.ofTable table).usageOf c isCommand ∈ (Artifacts.ofTable table).usages) ∧
      ∀ usage, usage ∈ (Artifacts.ofTable table).usages ↔
        ∃ c : Code, (Artifacts.ofTable table).usageOf c c.isCommand = usage := by
  have hanswer : ∀ c isCommand,
      (Artifacts.ofTable table).usageOf c isCommand ∈ (Artifacts.ofTable table).usages :=
    fun c isCommand => mem_usages_of_mem_values (Decision.evaluate_mem_values _ _) isCommand
  refine ⟨pairwise_ascending _, hanswer, fun usage => ⟨?_, ?_⟩⟩
  · intro hmem
    obtain ⟨tag, htag, isCommand, rfl⟩ := (mem_usages_iff h).mp hmem
    obtain ⟨c, hc, -, hevaluate⟩ := answersUnder_of_mem_values (levelPlaced_of_allocate h) htag
    -- the code of a consumer, whose command flag is the one that is asked for
    refine ⟨c.union (Code.consumerFlags isCommand), ?_⟩
    have htype : Operands.ofType (c.union (Code.consumerFlags isCommand)) = .ofType c := by
      rw [Operands.ofType, Operands.ofType, Code.typeCode_consumer hc, hc]
    rw [Code.isCommand_consumer hc, Artifacts.usageOf, htype]
    exact congrArg (·.resolve isCommand) hevaluate
  · rintro ⟨c, rfl⟩
    exact hanswer c c.isCommand

/-- Some code has the toggle variant of the usage of switches.  The usage of the fan has none: no
toggle stands at the fan, and the one above it does not count. -/
theorem usages_sample : allocate Schema.sample = .ok Schema.sample.table ∧
    (∃ c : Code,
      (Artifacts.ofTable Schema.sample.table).usageOf c c.isCommand = "OFF_ON_TOGGLE") ∧
    ¬∃ c : Code,
      (Artifacts.ofTable Schema.sample.table).usageOf c c.isCommand = "SPEED_TOGGLE" := by
  obtain ⟨-, -, hrange⟩ := usages_eq_range allocate_sample
  refine ⟨allocate_sample, ?_, ?_⟩
  · refine (hrange _).mp ?_
    show _ ∈ Schema.sample.table.usages
    rw [CodeTable.usages, mem_ascending]
    decide
  · rw [← hrange]
    show _ ∉ Schema.sample.table.usages
    rw [CodeTable.usages, mem_ascending]
    decide

end PlugTaxonomy
