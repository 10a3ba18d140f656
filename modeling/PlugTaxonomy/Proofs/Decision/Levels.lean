import PlugTaxonomy.Proofs.Decision.Arms
import PlugTaxonomy.Proofs.Decision.Compiled
import PlugTaxonomy.Proofs.Table.Slots
import PlugTaxonomy.Proofs.Usage

/-!
# The levels that switches stand on

The decisions of a table follow its tree.  Each switch stands on a level: it looks at what the mask
of the level leaves of a code, and its arms are for types of the level.  And each code that lies
under the owner of the level comes to it, as no arm and no comparison above keeps it off.

* `TableLevel.Holds` — a code lies under the owner of a level;
* `Switch.StandsOn` — a switch is over types of a level, as in `Switch.StandsOn.of_sublist`;
* `Decision.FollowsLevels` — all switches of a decision stand on levels of a list, each reached by
  the codes under the owner of its level;
* `followsLevels_switch` — the step from the types of a level to the level;
* `followsLevels_labels`, `followsLevels_usage`, `followsLevels_descent` — the three decisions of a
  table.
-/

namespace PlugTaxonomy

/-- A code lies under the owner of a level. -/
def TableLevel.Holds (typeBits : Nat) (level : TableLevel) (c : Code) : Prop :=
  c.typeCode.masked (Code.categoryMask level.top typeBits) = level.owner

theorem LevelFits.holds_owner {typeBits : Nat} {names : List String} {level : TableLevel}
    (h : LevelFits typeBits level.owner names level.top level.layout level.nodes) :
    level.Holds typeBits level.owner := by
  rw [TableLevel.Holds, h.typeCode_owner, h.owner_masked]

namespace Decision

variable {α : Type}

/-- A switch on an operand stands on a level: it is on the mask of the level, and its arms are for
types of the level, in their order. -/
structure Switch.StandsOn (operand : Operand) (level : TableLevel) (s : Switch α) : Prop where
  operand_eq : s.operand = operand
  mask_eq : s.mask = level.layout.symbol
  arms_sublist : (s.arms.map (·.1)).Sublist (level.nodes.map (·.value.symbol))

/-- A switch whose arms are for types of a level, each at most once and in their order, stands on
the level. -/
theorem Switch.StandsOn.of_sublist (operand : Operand) {level : TableLevel} {arms : Arms α}
    {answer : TableNode → Decision α} {default : Decision α}
    (harms : arms.Sublist (level.nodes.map fun node => (node.value.symbol, answer node))) :
    Switch.StandsOn operand level ⟨operand, level.layout.symbol, arms, default⟩ := by
  have hsymbols := harms.map (·.1)
  rw [List.map_map] at hsymbols
  exact ⟨rfl, rfl, hsymbols⟩

/-- Each switch of a decision stands, in some way, on a level of a list, and the evaluation for any
code under the owner of that level comes to it. -/
def FollowsLevels (typeBits : Nat) (asked : Code → Operands) (stands : TableLevel → Switch α → Prop)
    (levels : List TableLevel) (decision : Decision α) : Prop :=
  ∀ s ∈ decision.switches, ∃ level ∈ levels, stands level s ∧
    ∀ c, level.Holds typeBits c → decision.Reaches (asked c) s.decision

end Decision

section Level

variable {typeBits : Nat} {owner : Code} {names : List String} {remaining : Nat}
  {layout : Layout} {nodes : List TableNode}

/-- What lies under the owner of a level lies in all types that the level stands below. -/
theorem LevelPlaced.covers_of_holds (h : LevelPlaced typeBits owner names remaining layout nodes)
    {node : TableNode} (hnode : node ∈ nodes) {level : TableLevel}
    (hlevel : level ∈ node.levels layout.offset) {c : Code} (hholds : level.Holds typeBits c) :
    node.value.covers c = true := by
  induction h generalizing node with
  | @intro owner names remaining layout nodes fits below ih =>
    cases node with
    | leaf slot => cases hlevel
    | branch slot layout' children =>
      rw [TableNode.levels] at hlevel
      rcases List.mem_cons.mp hlevel with rfl | hlevel
      · rw [Slot.covers_iff, fits.categoryMask_eq hnode]
        exact hholds
      · obtain ⟨child, hchild, hmem⟩ := TableNode.mem_levelsOf.mp hlevel
        have hcovers := ih slot layout' children hnode hchild hmem
        exact (LevelPlaced.intro fits below).covers_of_mem_children hnode
          (Tree.mem_preorders_of_mem hchild) hcovers

/-- What lies under the owner of a level further down lies under the owner of the level. -/
theorem LevelPlaced.masked_of_holds (h : LevelPlaced typeBits owner names remaining layout nodes)
    {level : TableLevel}
    (hlevel : level ∈ ⟨owner, remaining, layout, nodes⟩ :: TableNode.levelsOf layout.offset nodes)
    {c : Code} (hholds : level.Holds typeBits c) :
    c.typeCode.masked (Code.categoryMask remaining typeBits) = owner := by
  rcases List.mem_cons.mp hlevel with rfl | hlevel
  · exact hholds
  · obtain ⟨node, hnode, hlevel⟩ := TableNode.mem_levelsOf.mp hlevel
    exact h.fits.masked_of_covers hnode (h.covers_of_holds hnode hlevel hholds)

section Switch

variable {α : Type} {asked : Code → Operands} {stands : TableLevel → Decision.Switch α → Prop}

/-- A decision without switches follows any levels. -/
theorem Decision.followsLevels_of_switches_eq_nil {decision : Decision α}
    (h : decision.switches = []) (levels : List TableLevel) :
    decision.FollowsLevels typeBits asked stands levels := by
  intro s hs
  rw [h] at hs
  cases hs

/-- A switch over types of a level follows the level and those below it, if what it goes on with for
each type follows the levels below the type. -/
theorem LevelPlaced.followsLevels_switch
    (h : LevelPlaced typeBits owner names remaining layout nodes) {operand : Operand}
    {answer : TableNode → Decision α} {arms : Arms α} {value : α}
    (harms : arms.Sublist (nodes.map fun node => (node.value.symbol, answer node)))
    (hasked : ∀ c, (asked c).get operand = c.typeCode)
    (hstands : stands ⟨owner, remaining, layout, nodes⟩ ⟨operand, layout.symbol, arms, .give value⟩)
    (hanswer : ∀ node ∈ nodes,
      (answer node).FollowsLevels typeBits asked stands (node.levels layout.offset)) :
    (Decision.switch operand layout.symbol arms (.give value)).FollowsLevels typeBits asked stands
      (⟨owner, remaining, layout, nodes⟩ :: TableNode.levelsOf layout.offset nodes) := by
  intro s hs
  rw [Decision.switches, Decision.switches, List.append_nil, List.mem_cons,
    Decision.mem_armSwitches_iff] at hs
  rcases hs with rfl | ⟨arm, harm, hs⟩
  · exact ⟨_, List.mem_cons_self, hstands, fun c _ => .here _⟩
  · obtain ⟨node, hnode, rfl⟩ := List.mem_map.mp (harms.subset harm)
    obtain ⟨level, hlevel, hstands', hreaches⟩ := hanswer node hnode s hs
    refine ⟨level, List.mem_cons_of_mem _ (TableNode.mem_levelsOf.mpr ⟨node, hnode, hlevel⟩),
      hstands', fun c hholds => ?_⟩
    -- a code under that level lies in the type of the arm, so the arm is taken
    have hcovers := h.covers_of_holds hnode hlevel hholds
    have hselect : Decision.Switch.select ⟨operand, layout.symbol, arms, .give value⟩ (asked c) =
        some (node.value.symbol, answer node) := by
      refine Decision.Switch.select_eq_some (h.fits.nodup_arm_codes harms) harm ?_
      show ((asked c).get operand).masked layout.mask = node.value.code
      rw [hasked]
      exact (h.fits.covers_iff hnode c).mp hcovers
    exact .arm hselect (hreaches c hholds)

end Switch

/-! ### The decisions of a table -/

/-- The decision on labels follows all levels: each has a switch with an arm for each type. -/
theorem followsLevels_labels (h : LevelPlaced typeBits owner names remaining layout nodes)
    (fallback : Option String) :
    (Decision.switch .type layout.symbol (labelArms nodes) (.give fallback)).FollowsLevels typeBits
      .ofType (Decision.Switch.StandsOn .type)
      (⟨owner, remaining, layout, nodes⟩ :: TableNode.levelsOf layout.offset nodes) := by
  induction h generalizing fallback with
  | @intro owner names remaining layout nodes fits below ih =>
    have harms : (labelArms nodes).Sublist
        (nodes.map fun node => (node.value.symbol, labelDecision node)) := by
      rw [labelArms_eq_map]
    refine (LevelPlaced.intro fits below).followsLevels_switch harms (fun c => rfl)
      (.of_sublist .type harms) ?_
    intro node hnode
    cases node with
    | leaf slot => exact Decision.followsLevels_of_switches_eq_nil rfl _
    | branch slot layout' children =>
      rw [labelDecision]
      exact ih slot layout' children hnode _

/-- The switch that a level has in the decision on usages, given what is inherited there. -/
def Inherited.switchOn (inherited : Inherited) (level : TableLevel) : Decision.Switch UsageTag :=
  ⟨.type, level.layout.symbol, usageArms inherited level.nodes, .give inherited.tag⟩

/-- A switch of the decision on usages is that of a level on which arms are left. -/
def Decision.Switch.IsUsageSwitch (level : TableLevel) (s : Decision.Switch UsageTag) : Prop :=
  s.arms ≠ [] ∧ ∃ inherited : Inherited, s = inherited.switchOn level

theorem Decision.Switch.IsUsageSwitch.standsOn {level : TableLevel} {s : Decision.Switch UsageTag}
    (h : s.IsUsageSwitch level) : s.StandsOn .type level := by
  obtain ⟨-, inherited, rfl⟩ := h
  exact .of_sublist .type (usageArms_sublist inherited level.nodes)

/-- The decision on usages follows those levels on which arms are left. -/
theorem followsLevels_usage (h : LevelPlaced typeBits owner names remaining layout nodes)
    (inherited : Inherited) :
    (usageSwitch inherited layout (usageArms inherited nodes)).FollowsLevels typeBits .ofType
      Decision.Switch.IsUsageSwitch
      (⟨owner, remaining, layout, nodes⟩ :: TableNode.levelsOf layout.offset nodes) := by
  induction h generalizing inherited with
  | @intro owner names remaining layout nodes fits below ih =>
    rw [usageSwitch]
    split
    · exact Decision.followsLevels_of_switches_eq_nil rfl _
    · rename_i hempty
      have hne : usageArms inherited nodes ≠ [] := fun hnil => hempty (by rw [hnil]; rfl)
      refine (LevelPlaced.intro fits below).followsLevels_switch (usageArms_sublist inherited nodes)
        (fun c => rfl) ⟨hne, inherited, rfl⟩ ?_
      intro node hnode
      cases node with
      | leaf slot => exact Decision.followsLevels_of_switches_eq_nil rfl _
      | branch slot layout' children =>
        rw [usageDecision]
        exact ih slot layout' children hnode _

/-- The decision along the consumer's path follows the levels down to the compatible types.  To come
to a switch, a producer is taken that lies in no type. -/
theorem followsLevels_descent (h : LevelPlaced typeBits owner names remaining layout nodes) :
    (Decision.switch .dst layout.symbol (descentArms layout nodes) (.give false)).FollowsLevels
      typeBits (fun dst => .pair dst .unknown) (Decision.Switch.StandsOn .dst)
      (⟨owner, remaining, layout, nodes⟩ :: TableNode.levelsOf layout.offset nodes) := by
  induction h with
  | @intro owner names remaining layout nodes fits below ih =>
    have h := LevelPlaced.intro fits below
    have harms : (descentArms layout nodes).Sublist
        (nodes.map fun node => (node.value.symbol, descentDecision layout node)) := by
      rw [descentArms_eq_map]
    refine h.followsLevels_switch harms (fun c => rfl) (.of_sublist .dst harms) ?_
    intro node hnode
    cases node with
    | leaf slot => exact Decision.followsLevels_of_switches_eq_nil rfl _
    | branch slot layout' children =>
      rw [descentDecision]
      split
      · exact Decision.followsLevels_of_switches_eq_nil rfl _
      · intro s hs
        obtain ⟨level, hlevel, hstands, hreaches⟩ := ih slot layout' children hnode s hs
        refine ⟨level, hlevel, hstands, fun c hholds => .miss ?_ (hreaches c hholds)⟩
        -- the consumer lies in a type, so it is not what is left of no type
        show Code.unknown.typeCode.masked layout'.mask ≠ c.typeCode
        intro heq
        have hcovers := (fits.covers_iff hnode c).mp (h.covers_of_holds hnode hlevel hholds)
        rw [← heq, Code.typeCode, Code.unknown_masked, Code.unknown_masked,
          Code.unknown_masked] at hcovers
        exact fits.code_ne_unknown hnode hcovers.symm

end Level

end PlugTaxonomy
