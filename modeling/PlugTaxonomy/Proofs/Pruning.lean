import PlugTaxonomy.Proofs.Decision.Exclusion
import PlugTaxonomy.Proofs.UsageRange

/-!
# The decision on usages is pruned

Arms are dropped if the decision in them is nothing but the value of the default.  Decisions are
compared as they stand, but no more is left than there has to be: what is not a single value takes
two values for codes under its owner, as the code of the owner itself has the value of the default.

* `UsageTag.eq_iff_resolve` — a tag is known from the usages that it resolves to;
* `usageDecision_eq_give_iff` — a type whose codes all have one tag has no switch;
* `exists_mem_usageArms_iff` — an arm stands for a type some code of which has another tag than the
  default of the level;
* `TableNode.usageDecisions` — the decisions that are made for the types of a table, those in arms
  and those that are dropped;
* `usage_pruned` — the decision of an accepted schema has just the arms and switches that it needs.
-/

namespace PlugTaxonomy

/-- A tag is known from what it resolves to for values and for commands. -/
theorem UsageTag.eq_iff_resolve {tag tag' : UsageTag} :
    tag = tag' ↔ ∀ isCommand, tag.resolve isCommand = tag'.resolve isCommand := by
  refine ⟨fun heq isCommand => congrArg (·.resolve isCommand) heq, fun h => ?_⟩
  obtain ⟨usage, toggle⟩ := tag
  obtain ⟨usage', toggle'⟩ := tag'
  have hvalue : usage = usage' := by simpa [resolve] using h false
  have hcommand := h true
  subst hvalue
  -- the toggle variant is longer than the usage
  have hlength : usage ++ "_TOGGLE" ≠ usage := by
    intro heq
    have hsum := congrArg String.length heq
    rw [String.length_append] at hsum
    exact absurd hsum (Nat.ne_of_gt (Nat.lt_add_of_pos_right (by decide)))
  cases toggle <;> cases toggle'
  · rfl
  · exact absurd hcommand.symm hlength
  · exact absurd hcommand hlength
  · rfl

/-! ### What is left of a level -/

section Level

variable {typeBits : Nat} {owner : Code} {names : List String} {remaining : Nat}
  {layout : Layout} {nodes : List TableNode} {node : TableNode} {inherited : Inherited}

/-- Where all codes under the owner of a level have one tag it is what the level inherits, as that
is the answer for the code of the owner. -/
theorem LevelFits.tag_eq_of_constant (h : LevelFits typeBits owner names remaining layout nodes)
    {tag : UsageTag}
    (hconstant : ∀ c : Code, c.typeCode.masked (Code.categoryMask remaining typeBits) = owner →
      (usageSwitch inherited layout (usageArms inherited nodes)).evaluate (.ofType c) = tag) :
    inherited.tag = tag := by
  have hdefault : (usageSwitch inherited layout (usageArms inherited nodes)).AnswersUnder
      (Code.categoryMask remaining typeBits) owner inherited.tag := h.answersUnder_owner
  obtain ⟨c, hc, howner, hanswer⟩ := hdefault
  rw [← hanswer]
  apply hconstant
  rw [hc, howner]

/-- A type for all of whose codes the answer is one tag has nothing but that tag. -/
theorem usageDecision_eq_give_iff (h : LevelPlaced typeBits owner names remaining layout nodes)
    (hnode : node ∈ nodes) {tag : UsageTag} :
    usageDecision inherited node = .give tag ↔
      ∀ c, node.value.covers c = true →
        (usageDecision inherited node).evaluate (.ofType c) = tag := by
  constructor
  · intro hgive c _
    rw [hgive, Decision.evaluate]
  intro hconstant
  induction h generalizing node inherited with
  | @intro owner names remaining layout nodes fits below ih =>
    cases node with
    | leaf slot =>
      have hself := hconstant _ (fits.covers_self hnode)
      rw [usageDecision, Decision.evaluate] at hself
      rw [usageDecision, hself]
    | branch slot layout' children =>
      rw [usageDecision] at hconstant ⊢
      have hfits := (below slot layout' children hnode).fits
      have hunder : ∀ c, c.typeCode.masked (Code.categoryMask layout.offset typeBits) = slot.code →
          (usageSwitch (inherited.enter slot.info) layout'
            (usageArms (inherited.enter slot.info) children)).evaluate (.ofType c) = tag := by
        intro c howner
        apply hconstant
        rw [← fits.mask_eq] at howner
        exact (fits.covers_iff hnode c).mpr howner
      have htag := hfits.tag_eq_of_constant hunder
      have hempty : usageArms (inherited.enter slot.info) children = [] := by
        rw [List.eq_nil_iff_forall_not_mem]
        intro arm harm
        obtain ⟨child, hchild, hne, -⟩ := mem_usageArms.mp harm
        refine hne ?_
        rw [htag]
        refine ih slot layout' children hnode hchild fun c hcovers => ?_
        rw [← evaluate_usageSwitch_of_covers hfits _ hchild hcovers]
        exact hunder c (hfits.masked_of_covers hchild hcovers)
      rw [hempty, usageSwitch, List.isEmpty_nil, if_pos rfl, htag]

/-- A type has an arm on its level if the answer for one of its codes is not the default. -/
theorem exists_mem_usageArms_iff (h : LevelPlaced typeBits owner names remaining layout nodes)
    (hnode : node ∈ nodes) :
    (∃ decision, (node.value.symbol, decision) ∈ usageArms inherited nodes) ↔
      ∃ c, node.value.covers c = true ∧
        (usageDecision inherited node).evaluate (.ofType c) ≠ inherited.tag := by
  constructor
  · rintro ⟨decision, harm⟩
    obtain ⟨kept, hkept, hne, heq⟩ := mem_usageArms.mp harm
    obtain rfl := h.fits.eq_of_code_eq hnode hkept (congrArg (·.1.code) heq)
    rw [Ne, usageDecision_eq_give_iff h hnode] at hne
    push Not at hne
    exact hne
  · rintro ⟨c, hcovers, hne⟩
    refine ⟨_, mem_usageArms.mpr ⟨node, hnode, fun hgive => hne ?_, rfl⟩⟩
    exact (usageDecision_eq_give_iff h hnode).mp hgive c hcovers

end Level

/-! ### The decisions of all types -/

mutual

/-- A type and those below it in pre-order, each with the decision that is made for it. -/
def TableNode.usageDecisions (inherited : Inherited) :
    TableNode → List (TableNode × Decision UsageTag)
  | .leaf slot => [(.leaf slot, usageDecision inherited (.leaf slot))]
  | .branch slot layout children =>
    (.branch slot layout children, usageDecision inherited (.branch slot layout children)) ::
      TableNode.usageDecisionsOf (inherited.enter slot.info) children

/-- The types of a list and those below them, each with the decision that is made for it. -/
def TableNode.usageDecisionsOf (inherited : Inherited) :
    List TableNode → List (TableNode × Decision UsageTag)
  | [] => []
  | node :: nodes => node.usageDecisions inherited ++ TableNode.usageDecisionsOf inherited nodes

end

/-- All types of a table in pre-order, each with the decision on usages that is made for it. -/
def CodeTable.usageDecisions (table : CodeTable) : List (TableNode × Decision UsageTag) :=
  TableNode.usageDecisionsOf .root table.nodes

mutual

theorem TableNode.usageDecisions_map_fst (inherited : Inherited) (node : TableNode) :
    (node.usageDecisions inherited).map (·.1) = node.preorder := by
  cases node with
  | leaf slot => rfl
  | branch slot layout children =>
    rw [usageDecisions, List.map_cons, usageDecisionsOf_map_fst, Tree.preorder]

/-- A decision is made for every type. -/
theorem TableNode.usageDecisionsOf_map_fst (inherited : Inherited) (nodes : List TableNode) :
    (usageDecisionsOf inherited nodes).map (·.1) = Tree.preorders nodes := by
  cases nodes with
  | nil => rfl
  | cons node nodes =>
    rw [usageDecisionsOf, List.map_append, usageDecisions_map_fst, usageDecisionsOf_map_fst,
      Tree.preorders]

end

theorem TableNode.mem_usageDecisionsOf {inherited : Inherited} {nodes : List TableNode}
    {entry : TableNode × Decision UsageTag} :
    entry ∈ usageDecisionsOf inherited nodes ↔
      ∃ node ∈ nodes, entry ∈ node.usageDecisions inherited := by
  induction nodes with
  | nil => simp [usageDecisionsOf]
  | cons node nodes ih =>
    simp only [usageDecisionsOf, List.mem_append, ih, List.mem_cons, exists_eq_or_imp]

/-- The decision for a type answers for all its codes as the whole does, and is made on a placed
level with something inherited. -/
theorem exists_level_of_mem_usageDecisionsOf {typeBits : Nat} {owner : Code} {names : List String}
    {remaining : Nat} {layout : Layout} {nodes : List TableNode} {inherited : Inherited}
    (h : LevelPlaced typeBits owner names remaining layout nodes)
    {entry : TableNode × Decision UsageTag}
    (hentry : entry ∈ TableNode.usageDecisionsOf inherited nodes) :
    (∀ c, entry.1.value.covers c = true →
        (usageSwitch inherited layout (usageArms inherited nodes)).evaluate (.ofType c) =
          entry.2.evaluate (.ofType c)) ∧
      ∃ owner' names' remaining' layout' nodes' inherited',
        LevelPlaced typeBits owner' names' remaining' layout' nodes' ∧ entry.1 ∈ nodes' ∧
          entry.2 = usageDecision inherited' entry.1 := by
  induction h generalizing inherited with
  | @intro owner names remaining layout nodes fits below ih =>
    have h := LevelPlaced.intro fits below
    obtain ⟨node, hnode, hentry⟩ := TableNode.mem_usageDecisionsOf.mp hentry
    have hhere : ∀ c, node.value.covers c = true →
        (usageSwitch inherited layout (usageArms inherited nodes)).evaluate (.ofType c) =
          (usageDecision inherited node).evaluate (.ofType c) :=
      fun c => evaluate_usageSwitch_of_covers fits inherited hnode
    cases node with
    | leaf slot =>
      obtain rfl := List.mem_singleton.mp hentry
      exact ⟨hhere, owner, names, remaining, layout, nodes, inherited, h, hnode, rfl⟩
    | branch slot layout' children =>
      rcases List.mem_cons.mp hentry with rfl | hentry
      · exact ⟨hhere, owner, names, remaining, layout, nodes, inherited, h, hnode, rfl⟩
      · obtain ⟨hevaluate, hlevel⟩ := ih slot layout' children hnode hentry
        refine ⟨fun c hcovers => ?_, hlevel⟩
        have hmem : entry.1 ∈ Tree.preorders children := by
          rw [← TableNode.usageDecisionsOf_map_fst (inherited.enter slot.info)]
          exact List.mem_map_of_mem hentry
        rw [hhere c (h.covers_of_mem_children hnode hmem hcovers), usageDecision,
          hevaluate c hcovers]

/-- The decision that is made for a type is a single value if the answer for all codes of the type
is the same. -/
theorem eq_give_iff_of_mem_usageDecisionsOf {typeBits : Nat} {owner : Code} {names : List String}
    {remaining : Nat} {layout : Layout} {nodes : List TableNode} {inherited : Inherited}
    (h : LevelPlaced typeBits owner names remaining layout nodes)
    {entry : TableNode × Decision UsageTag}
    (hentry : entry ∈ TableNode.usageDecisionsOf inherited nodes) :
    (∃ tag, entry.2 = .give tag) ↔ ∀ c c', entry.1.value.covers c = true →
      entry.1.value.covers c' = true →
        entry.2.evaluate (.ofType c) = entry.2.evaluate (.ofType c') := by
  obtain ⟨-, _, _, _, _, _, _, hlevel, hnode, hmade⟩ :=
    exists_level_of_mem_usageDecisionsOf h hentry
  constructor
  · rintro ⟨tag, hgive⟩ c c' _ _
    rw [hgive]
    rfl
  · intro hconstant
    -- the one value is that of the type's own code
    refine ⟨entry.2.evaluate (.ofType entry.1.value.code), ?_⟩
    rw [hmade, usageDecision_eq_give_iff hlevel hnode, ← hmade]
    exact fun c hcovers => hconstant c _ hcovers (hlevel.fits.covers_self hnode)

/-! ### The decision of a table -/

section Whole

variable {typeBits : Nat} {level : TableLevel} {names : List String} {inherited : Inherited}
  {whole : Decision UsageTag} {node : TableNode}
  (h : LevelPlaced typeBits level.owner names level.top level.layout level.nodes)
  (hreaches : ∀ c, level.Holds typeBits c →
    whole.Reaches (.ofType c) (inherited.switchOn level).decision)
  (hnode : node ∈ level.nodes)
include h hreaches hnode

/-- Where all codes under the owner of a level come to its switch, the answer for those in a type of
the level is that of the decision for the type. -/
theorem evaluate_of_reaches_switchOn {c : Code} (hcovers : node.value.covers c = true) :
    whole.evaluate (.ofType c) = (usageDecision inherited node).evaluate (.ofType c) := by
  rw [(hreaches c (h.fits.masked_of_covers hnode hcovers)).evaluate_eq,
    ← evaluate_usageSwitch_of_covers h.fits inherited hnode hcovers, evaluate_usageSwitch]
  rfl

/-- On such a switch there is an arm for a type if some code of it has another usage than the
default. -/
theorem exists_mem_switchOn_iff :
    (∃ decision, (node.value.symbol, decision) ∈ (inherited.switchOn level).arms) ↔
      ∃ (c : Code) (isCommand : Bool), c.masked node.value.categoryMask = node.value.code ∧
        (whole.evaluate (.ofType c)).resolve isCommand ≠ inherited.tag.resolve isCommand := by
  refine (exists_mem_usageArms_iff h hnode).trans (exists_congr fun c => ?_)
  rw [exists_and_left, ← h.fits.covers_iff_masked hnode]
  refine and_congr_right fun hcovers => ?_
  rw [← evaluate_of_reaches_switchOn h hreaches hnode hcovers, Ne, UsageTag.eq_iff_resolve,
    not_forall]

end Whole

/-- **The decision on usages is pruned as far as can be.**  Where a schema is accepted, each switch
of the decision has arms; it stands on a level, and its arms are for those types of the level some
code of which, as a value or as a command, has another usage than the default.  Of the decisions
that are made for the types, be they in an arm or dropped, just those are a single value whose type
gives all its codes the same usages. -/
theorem usage_pruned {schema : Schema} {table : CodeTable} (h : allocate schema = .ok table) :
    (∀ s ∈ (Artifacts.ofTable table).usage.switches, s.arms ≠ [] ∧
        ∃ level ∈ table.levels, s.StandsOn .type level ∧ ∃ tag, s.default = .give tag ∧
          ∀ node ∈ level.nodes, (∃ decision, (node.value.symbol, decision) ∈ s.arms) ↔
            ∃ (c : Code) (isCommand : Bool), c.masked node.value.categoryMask = node.value.code ∧
              (Artifacts.ofTable table).usageOf c isCommand ≠ tag.resolve isCommand) ∧
      table.usageDecisions.map (·.1) = table.preorder ∧
      ∀ entry ∈ table.usageDecisions,
        (∀ (c : Code) (isCommand : Bool),
          c.masked entry.1.value.categoryMask = entry.1.value.code →
            (entry.2.evaluate (.ofType c)).resolve isCommand =
              (Artifacts.ofTable table).usageOf c isCommand) ∧
        ((∃ tag, entry.2 = .give tag) ↔ ∀ (c c' : Code) (isCommand : Bool),
          c.masked entry.1.value.categoryMask = entry.1.value.code →
          c'.masked entry.1.value.categoryMask = entry.1.value.code →
            (Artifacts.ofTable table).usageOf c isCommand =
              (Artifacts.ofTable table).usageOf c' isCommand) := by
  have hplaced := levelPlaced_of_allocate h
  refine ⟨?_, TableNode.usageDecisionsOf_map_fst _ _, ?_⟩
  · intro s hs
    obtain ⟨level, hlevel, hswitch, hreaches⟩ := followsLevels_usage hplaced .root s hs
    obtain ⟨names, hlevelPlaced⟩ := placed_levels hplaced level hlevel
    have hstands := hswitch.standsOn
    obtain ⟨hne, inherited, rfl⟩ := hswitch
    exact ⟨hne, level, hlevel, hstands, inherited.tag, rfl, fun node hnode =>
      exists_mem_switchOn_iff hlevelPlaced hreaches hnode⟩
  · intro entry hentry
    obtain ⟨hevaluate, _, _, _, _, _, _, hlevel, hnode, -⟩ :=
      exists_level_of_mem_usageDecisionsOf hplaced hentry
    have hanswer : ∀ c isCommand, c.masked entry.1.value.categoryMask = entry.1.value.code →
        (entry.2.evaluate (.ofType c)).resolve isCommand =
          (Artifacts.ofTable table).usageOf c isCommand := by
      intro c isCommand hcode
      rw [← hlevel.fits.covers_iff_masked hnode] at hcode
      exact congrArg (·.resolve isCommand) (hevaluate c hcode).symm
    refine ⟨hanswer, (eq_give_iff_of_mem_usageDecisionsOf hplaced hentry).trans ?_⟩
    simp only [hlevel.fits.covers_iff_masked hnode]
    constructor
    · intro hconstant c c' isCommand hcode hcode'
      rw [← hanswer c isCommand hcode, ← hanswer c' isCommand hcode', hconstant c c' hcode hcode']
    · intro hconstant c c' hcode hcode'
      refine UsageTag.eq_iff_resolve.mpr fun isCommand => ?_
      rw [hanswer c isCommand hcode, hanswer c' isCommand hcode']
      exact hconstant c c' isCommand hcode hcode'

/-- The decision for the power switch is no single value, as the fan has a usage of its own.  All
codes in the type of levels have the same usage, that of the default. -/
theorem usage_pruned_sample : allocate Schema.sample = .ok Schema.sample.table ∧
    (∀ entry ∈ Schema.sample.table.usageDecisions, entry.1.value.names = ["BINARY", "POWER"] →
      ¬∃ tag, entry.2 = .give tag) ∧
    ∀ (c : Code) (isCommand : Bool), c.masked ⟨0x180⟩ = ⟨0x180⟩ →
      (Artifacts.ofTable Schema.sample.table).usageOf c isCommand = "NONE" := by
  obtain ⟨-, hall, hdecisions⟩ := usage_pruned allocate_sample
  refine ⟨allocate_sample, ?_, ?_⟩
  · intro entry hentry hnames hgive
    have hpower : ∀ node ∈ Schema.sample.table.preorder, node.value.names = ["BINARY", "POWER"] →
        node.value.code = ⟨0xa0⟩ ∧ node.value.categoryMask = ⟨0x1f0⟩ := by decide
    have hmem : entry.1 ∈ Schema.sample.table.preorder := by
      rw [← hall]
      exact List.mem_map_of_mem hentry
    obtain ⟨hcode, hmask⟩ := hpower entry.1 hmem hnames
    have hconstant := (hdecisions entry hentry).2.mp hgive ⟨0xa8⟩ ⟨0xa4⟩ false
    rw [hcode, hmask] at hconstant
    exact absurd (hconstant (by decide) (by decide)) (by decide)
  · intro c isCommand hcode
    have hlevel : Schema.sample.table.usageDecisions[7] ∈ Schema.sample.table.usageDecisions :=
      List.getElem_mem (by decide)
    have hconstant := (hdecisions _ hlevel).2.mp ⟨.none, rfl⟩ c ⟨0x180⟩ isCommand hcode (by decide)
    rw [hconstant]
    cases isCommand <;> decide

end PlugTaxonomy
