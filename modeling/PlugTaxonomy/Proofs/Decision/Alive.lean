import PlugTaxonomy.Proofs.Decision.Exclusion
import PlugTaxonomy.Proofs.Label

/-!
# Values and answers

Whatever a decision is made of, its answers are among its values.  The values of an arbitrary
decision need not be answers, as arms may stand in the shadow of others.  In the decisions on labels
and usages they are: no comparison is made there, each arm is taken for the code of its type, and
each default for the code of the owner of its level.

* `Decision.IsBranching` — a decision of switches and values, whose values are where its branches
  end: `IsBranching.mem_values`;
* `Decision.Alive` — each branch of each switch is taken, and so each value is given:
  `Alive.exists_of_mem_values`;
* `LevelPlaced.alive` — a decision that follows the levels of a placed level is alive;
* `values_are_answers` — values and answers of the decisions of an accepted schema.
-/

namespace PlugTaxonomy

namespace Decision

variable {α : Type}

/-! ### Where values stand -/

/-- A decision of switches and values, without comparisons. -/
inductive IsBranching : Decision α → Prop
  | give (value : α) : IsBranching (.give value)
  | switch {operand : Operand} {mask : Symbol} {arms : Arms α} {default : Decision α}
      (inside : ∀ arm ∈ arms, IsBranching arm.2) (otherwise : IsBranching default) :
      IsBranching (.switch operand mask arms default)

/-- A value of a decision without comparisons is all that there is of the decision itself, of an arm
or of a default. -/
theorem IsBranching.mem_values {decision : Decision α} (h : decision.IsBranching) {value : α}
    (hvalue : value ∈ decision.values) :
    decision = .give value ∨ ∃ s ∈ decision.switches,
      s.default = .give value ∨ ∃ arm ∈ s.arms, arm.2 = .give value := by
  induction h with
  | give other =>
    rw [values, List.mem_singleton] at hvalue
    exact Or.inl (by rw [hvalue])
  | @switch operand mask arms default inside otherwise ih ihotherwise =>
    refine Or.inr ?_
    rw [switches, List.exists_mem_cons_iff]
    rw [values, List.mem_append, mem_armValues_iff] at hvalue
    rcases hvalue with ⟨arm, harm, hvalue⟩ | hvalue
    · rcases ih arm harm hvalue with hgive | ⟨s, hs, hend⟩
      · exact Or.inl (Or.inr ⟨arm, harm, hgive⟩)
      · have hmem := mem_armSwitches_iff.mpr ⟨arm, harm, hs⟩
        exact Or.inr ⟨s, List.mem_append_left _ hmem, hend⟩
    · rcases ihotherwise hvalue with hgive | ⟨s, hs, hend⟩
      · exact Or.inl (Or.inl hgive)
      · exact Or.inr ⟨s, List.mem_append_right _ hs, hend⟩

/-! ### Branches that are taken -/

/-- For each arm and each default of a decision there is a code, one of a certain kind, for which
the evaluation comes to the switch and takes the arm or the default. -/
structure Alive (asked : Code → Operands) (kind : Code → Prop) (decision : Decision α) :
    Prop where
  arm_taken : ∀ s ∈ decision.switches, ∀ arm ∈ s.arms,
    ∃ c, kind c ∧ decision.Reaches (asked c) s.decision ∧ s.select (asked c) = some arm
  default_taken : ∀ s ∈ decision.switches,
    ∃ c, kind c ∧ decision.Reaches (asked c) s.decision ∧ s.select (asked c) = none

namespace Alive

variable {asked : Code → Operands} {kind kind' : Code → Prop} {decision : Decision α}
  (h : decision.Alive asked kind)
include h

/-- The codes may be said to be of a wider kind. -/
theorem imp (hkind : ∀ c, kind c → kind' c) : decision.Alive asked kind' where
  arm_taken := by
    intro s hs arm harm
    obtain ⟨c, hc, htaken⟩ := h.arm_taken s hs arm harm
    exact ⟨c, hkind c hc, htaken⟩
  default_taken := by
    intro s hs
    obtain ⟨c, hc, htaken⟩ := h.default_taken s hs
    exact ⟨c, hkind c hc, htaken⟩

/-- Where each branch is taken, each value is the answer for some code. -/
theorem exists_of_mem_values (hbranching : decision.IsBranching) (hkind : ∃ c, kind c) {value : α}
    (hvalue : value ∈ decision.values) : ∃ c, kind c ∧ decision.evaluate (asked c) = value := by
  rcases hbranching.mem_values hvalue with rfl | ⟨s, hs, hdefault | ⟨arm, harm, hgive⟩⟩
  · obtain ⟨c, hc⟩ := hkind
    exact ⟨c, hc, rfl⟩
  · obtain ⟨c, hc, hreaches, hselect⟩ := h.default_taken s hs
    refine ⟨c, hc, ?_⟩
    rw [hreaches.evaluate_eq, Switch.evaluate_decision_of_none hselect, hdefault, evaluate]
  · obtain ⟨c, hc, hreaches, hselect⟩ := h.arm_taken s hs arm harm
    refine ⟨c, hc, ?_⟩
    rw [hreaches.evaluate_eq, Switch.evaluate_decision_of_some hselect, hgive, evaluate]

end Alive

end Decision

/-! ### Decisions on a level -/

theorem isBranching_labels (layout : Layout) (nodes : List TableNode) (fallback : Option String) :
    (Decision.switch .type layout.symbol (labelArms nodes) (.give fallback)).IsBranching := by
  induction nodes using Tree.level_induction generalizing layout fallback with
  | step nodes ih =>
    refine .switch (fun arm harm => ?_) (.give _)
    obtain ⟨node, hnode, rfl⟩ := mem_labelArms.mp harm
    cases node with
    | leaf slot => exact .give _
    | branch slot layout' children =>
      rw [labelDecision]
      exact ih slot layout' children hnode layout' _

theorem isBranching_usage (inherited : Inherited) (layout : Layout) (nodes : List TableNode) :
    (usageSwitch inherited layout (usageArms inherited nodes)).IsBranching := by
  induction nodes using Tree.level_induction generalizing inherited layout with
  | step nodes ih =>
    rw [usageSwitch]
    split
    · exact .give _
    · refine .switch (fun arm harm => ?_) (.give _)
      obtain ⟨node, hnode, rfl⟩ := exists_node_of_mem_usageArms arm harm
      cases node with
      | leaf slot => exact .give _
      | branch slot layout' children =>
        rw [usageDecision]
        exact ih slot layout' children hnode _ layout'

namespace LevelPlaced

variable {typeBits : Nat} {owner : Code} {names : List String} {remaining : Nat}
  {layout : Layout} {nodes : List TableNode} {α : Type} {decision : Decision α}
  {operand : Operand} {asked : Code → Operands}

/-- A decision that follows a level and those below it is alive by the codes under the owner of the
level: an arm is taken for its own code, a default for the code of the owner of its level. -/
theorem alive (h : LevelPlaced typeBits owner names remaining layout nodes)
    (hfollows : decision.FollowsLevels typeBits asked (Decision.Switch.StandsOn operand)
      (⟨owner, remaining, layout, nodes⟩ :: TableNode.levelsOf layout.offset nodes))
    (hasked : ∀ c, (asked c).get operand = c.typeCode) :
    decision.Alive asked fun c =>
      c.typeCode = c ∧ c.masked (Code.categoryMask remaining typeBits) = owner := by
  have hplace : ∀ s ∈ decision.switches, ∃ (level : TableLevel) (names' : List String),
      LevelFits typeBits level.owner names' level.top level.layout level.nodes ∧
        s.StandsOn operand level ∧ ∀ c, c.typeCode = c → level.Holds typeBits c →
          c.masked (Code.categoryMask remaining typeBits) = owner ∧
            decision.Reaches (asked c) s.decision := by
    intro s hs
    obtain ⟨level, hlevel, hstands, hreaches⟩ := hfollows s hs
    obtain ⟨names', hplaced⟩ := h.placed_levels level hlevel
    refine ⟨level, names', hplaced.fits, hstands, fun c hc hholds => ⟨?_, hreaches c hholds⟩⟩
    rw [← hc]
    exact h.masked_of_holds hlevel hholds
  constructor
  · intro s hs arm harm
    obtain ⟨level, names', hfits, hstands, hunder⟩ := hplace s hs
    have hc := hstands.typeCode_code hfits harm
    obtain ⟨howner, hreaches⟩ := hunder arm.1.code hc (hstands.holds_code hfits harm)
    exact ⟨arm.1.code, ⟨hc, howner⟩, hreaches, hstands.select_code hfits harm hasked⟩
  · intro s hs
    obtain ⟨level, names', hfits, hstands, hunder⟩ := hplace s hs
    -- the owner lies under itself, but in none of the types on its level
    have hc := hfits.typeCode_owner
    obtain ⟨howner, hreaches⟩ := hunder level.owner hc hfits.holds_owner
    exact ⟨level.owner, ⟨hc, howner⟩, hreaches, hstands.select_owner hfits hasked⟩

end LevelPlaced

/-! ### The decisions of a table -/

/-- **Values are answers.**  Evaluation gives one of the values of a decision, whatever its masks,
symbols and arms are and whatever is asked.  Where a schema is accepted, no branch of its decisions
on labels and usages is dead: each arm and each default is taken for some code without flags.  So
each value in them is the answer for such a code. -/
theorem values_are_answers :
    (∀ (α : Type) (decision : Decision α) (operands : Operands),
        decision.evaluate operands ∈ decision.values) ∧
      ∀ (schema : Schema) (table : CodeTable), allocate schema = .ok table →
        (Artifacts.ofTable table).labels.Alive .ofType (fun c => c.typeCode = c) ∧
        (Artifacts.ofTable table).usage.Alive .ofType (fun c => c.typeCode = c) ∧
        (∀ label ∈ (Artifacts.ofTable table).labels.values,
          ∃ c : Code, c.typeCode = c ∧
            (Artifacts.ofTable table).labels.evaluate (.ofType c) = label) ∧
        ∀ tag ∈ (Artifacts.ofTable table).usage.values,
          ∃ c : Code, c.typeCode = c ∧
            (Artifacts.ofTable table).usage.evaluate (.ofType c) = tag := by
  refine ⟨fun α decision operands => decision.evaluate_mem_values operands, ?_⟩
  intro schema table h
  have hplaced := levelPlaced_of_allocate h
  have hlabels := (hplaced.alive (followsLevels_labels hplaced none) fun _ => rfl).imp
    fun c hc => hc.1
  have husage := (hplaced.alive ((followsLevels_usage hplaced .root).imp fun _ _ hs => hs.standsOn)
    fun _ => rfl).imp fun c hc => hc.1
  have hsome : ∃ c : Code, c.typeCode = c := ⟨.unknown, Code.unknown_masked _⟩
  exact ⟨hlabels, husage,
    fun label hlabel => hlabels.exists_of_mem_values (isBranching_labels _ _ _) hsome hlabel,
    fun tag htag => husage.exists_of_mem_values (isBranching_usage _ _ _) hsome htag⟩

/-- The label of the power types is the default of the level of the light and the fan, and the usage
with a toggle that of the levels below the binary types; each is the answer for some code. -/
theorem answers_sample : allocate Schema.sample = .ok Schema.sample.table ∧
    (∃ c : Code, c.typeCode = c ∧
      (Artifacts.ofTable Schema.sample.table).labels.evaluate (.ofType c) = some "Power") ∧
    ∃ c : Code, c.typeCode = c ∧
      (Artifacts.ofTable Schema.sample.table).usage.evaluate (.ofType c) = ⟨"OFF_ON", true⟩ := by
  obtain ⟨-, -, hlabels, husage⟩ := values_are_answers.2 Schema.sample _ allocate_sample
  exact ⟨allocate_sample, hlabels _ (by decide), husage _ (by decide)⟩

end PlugTaxonomy
