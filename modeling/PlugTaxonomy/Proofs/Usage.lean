import PlugTaxonomy.Artifacts
import PlugTaxonomy.Proofs.Table.Chain

/-!
# Usages are inherited along the chain of a code

The decision of a level carries what the types above declare, drops arms that would answer no
different, and is no switch where no arm is left.  What it answers is said from the chain of the
code alone.

* `Inherited.along` — what is left behind the types of a path;
* `evaluate_usage` — the decision of a level answers what is left behind the chain of the code;
* `plainUsageDecision`, `CodeTable.plainUsage` — the decisions with all their arms and switches;
* `Inherited.along_of_nearest` — only the nearest type with a usage and those below it count;
* `usage_eq_nearest` — the usage of every code under an accepted schema.
-/

namespace PlugTaxonomy

/-! ### Inheritance along a path -/

namespace Inherited

/-- What is left behind the types of a path, the topmost one first. -/
def along (inherited : Inherited) (path : List TypeInfo) : Inherited :=
  path.foldl enter inherited

theorem along_append (inherited : Inherited) (above below : List TypeInfo) :
    inherited.along (above ++ below) = (inherited.along above).along below :=
  List.foldl_append

/-- A type that declares a usage hides all that is above it. -/
theorem enter_of_usage (inherited : Inherited) {info : TypeInfo} {usage : String}
    (h : info.usage = some usage) :
    inherited.enter info = ⟨some usage, info.flags.contains .toggle⟩ := by
  simp only [enter, h]

/-- Types that declare no usage can but switch the toggle on. -/
theorem along_of_no_usage (inherited : Inherited) {path : List TypeInfo}
    (h : ∀ info ∈ path, info.usage = none) :
    inherited.along path =
      ⟨inherited.usage, inherited.toggle || path.any (·.flags.contains .toggle)⟩ := by
  induction path generalizing inherited with
  | nil => simp [along]
  | cons info path ih =>
    obtain ⟨hinfo, hpath⟩ := List.forall_mem_cons.mp h
    show (inherited.enter info).along path = _
    rw [ih _ hpath]
    simp only [enter, hinfo, List.any_cons, Bool.or_assoc]

/-- Where the nearest usage is declared, the types above it do not count. -/
theorem along_of_nearest (inherited : Inherited) (above : List TypeInfo) {info : TypeInfo}
    {below : List TypeInfo} {usage : String} (hinfo : info.usage = some usage)
    (hbelow : ∀ i ∈ below, i.usage = none) :
    inherited.along (above ++ info :: below) =
      ⟨some usage, (info :: below).any (·.flags.contains .toggle)⟩ := by
  rw [along_append]
  show ((inherited.along above).enter info).along below = _
  rw [along_of_no_usage _ hbelow, enter_of_usage _ hinfo, List.any_cons]

/-- What is left behind a type that declares a usage is the same wherever the type stands. -/
theorem along_congr (inherited inherited' : Inherited) (above above' : List TypeInfo)
    {info : TypeInfo} (below : List TypeInfo) (hinfo : info.usage.isSome) :
    inherited.along (above ++ info :: below) = inherited'.along (above' ++ info :: below) := by
  obtain ⟨usage, husage⟩ := Option.isSome_iff_exists.mp hinfo
  rw [along_append, along_append]
  show ((inherited.along above).enter info).along below =
    ((inherited'.along above').enter info).along below
  rw [enter_of_usage _ husage, enter_of_usage _ husage]

end Inherited

/-- What is declared for the types that a code lies in, the topmost one first. -/
def TableNode.declared (nodes : List TableNode) (c : Code) : List TypeInfo :=
  (TableNode.chain nodes c).map (·.value.info)

/-- What is declared for the types of a table that a code lies in. -/
def CodeTable.declared (table : CodeTable) (c : Code) : List TypeInfo :=
  (table.chain c).map (·.value.info)

/-! ### The pruned decision -/

/-- There is one arm for each type of a level that is not left to the default. -/
theorem mem_usageArms {inherited : Inherited} {nodes : List TableNode}
    {arm : Symbol × Decision UsageTag} :
    arm ∈ usageArms inherited nodes ↔
      ∃ node ∈ nodes, usageDecision inherited node ≠ .give inherited.tag ∧
        arm = (node.value.symbol, usageDecision inherited node) := by
  induction nodes with
  | nil => simp [usageArms]
  | cons node nodes ih =>
    simp only [usageArms, List.mem_cons, exists_eq_or_imp, ← ih]
    by_cases hgive : usageDecision inherited node = .give inherited.tag
    · rw [if_pos (Decision.isGive_iff.mpr hgive)]
      simp [hgive]
    · rw [if_neg (fun h => hgive (Decision.isGive_iff.mp h)), List.mem_cons]
      simp [hgive]

theorem exists_node_of_mem_usageArms {inherited : Inherited} {nodes : List TableNode} :
    ∀ arm ∈ usageArms inherited nodes,
      ∃ node ∈ nodes, arm = (node.value.symbol, usageDecision inherited node) := by
  intro arm harm
  obtain ⟨node, hnode, -, heq⟩ := mem_usageArms.mp harm
  exact ⟨node, hnode, heq⟩

/-- A level without arms answers as a switch without arms would. -/
theorem evaluate_usageSwitch (inherited : Inherited) (layout : Layout) (arms : Arms UsageTag)
    (operands : Operands) :
    (usageSwitch inherited layout arms).evaluate operands =
      (Decision.switch .type layout.symbol arms (.give inherited.tag)).evaluate operands := by
  rw [usageSwitch]
  split
  · rename_i hempty
    rw [List.isEmpty_iff.mp hempty]
    rfl
  · rfl

section Level

variable {typeBits : Nat} {owner : Code} {names : List String} {remaining : Nat}
  {layout : Layout} {nodes : List TableNode}

/-- The switch of a level goes on with the decision of the type that a code lies in, whether its
arm has been dropped or not. -/
theorem evaluate_usageSwitch_of_covers
    (h : LevelFits typeBits owner names remaining layout nodes) (inherited : Inherited) {c : Code}
    {node : TableNode} (hnode : node ∈ nodes) (hcovers : node.value.covers c = true) :
    (usageSwitch inherited layout (usageArms inherited nodes)).evaluate (.ofType c) =
      (usageDecision inherited node).evaluate (.ofType c) := by
  rw [evaluate_usageSwitch]
  by_cases hgive : usageDecision inherited node = .give inherited.tag
  · -- the arm is dropped, so no arm is left for a type that the code lies in
    rw [hgive]
    refine h.evaluate_switch_of_none exists_node_of_mem_usageArms (c := c) rfl ?_
    intro other hother hmem
    rw [Bool.eq_false_iff]
    intro hothercovers
    obtain rfl := h.eq_of_covers hother hnode hothercovers hcovers
    obtain ⟨kept, hkept, hne, heq⟩ := mem_usageArms.mp hmem
    have hcode : other.value.code = kept.value.code := congrArg (·.1.code) heq
    obtain rfl := h.eq_of_code_eq hother hkept hcode
    exact hne hgive
  · exact h.evaluate_switch_of_covers exists_node_of_mem_usageArms (c := c) rfl hnode
      (mem_usageArms.mpr ⟨node, hnode, hgive, rfl⟩) hcovers

/-- The decision of a level answers what is left behind the types that a code lies in. -/
theorem evaluate_usage (h : LevelPlaced typeBits owner names remaining layout nodes) (c : Code)
    (inherited : Inherited) :
    (usageSwitch inherited layout (usageArms inherited nodes)).evaluate (.ofType c) =
      (inherited.along (TableNode.declared nodes c)).tag := by
  induction h generalizing inherited with
  | @intro owner names remaining layout nodes fits below ih =>
    rw [TableNode.declared]
    rcases (LevelPlaced.intro fits below).chain_cases c with
      ⟨hnone, hchain⟩ | ⟨node, hnode, hcovers, hchain⟩
    · rw [hchain, evaluate_usageSwitch, fits.evaluate_switch_of_none
        exists_node_of_mem_usageArms (c := c) rfl fun node hnode _ => hnone node hnode]
      rfl
    · rw [hchain, evaluate_usageSwitch_of_covers fits inherited hnode hcovers]
      cases node with
      | leaf slot => rfl
      | branch slot layout' children =>
        rw [usageDecision, ih slot layout' children hnode]
        rfl

end Level

/-! ### The decision with all its arms -/

mutual

/-- The usage of codes that lie in a type, with an arm for each type and a switch for each level
below. -/
def plainUsageDecision (inherited : Inherited) : TableNode → Decision UsageTag
  | .leaf slot => .give (inherited.enter slot.info).tag
  | .branch slot layout children =>
    let effective := inherited.enter slot.info
    .switch .type layout.symbol (plainUsageArms effective children) (.give effective.tag)

/-- One arm for each type of a level. -/
def plainUsageArms (inherited : Inherited) : List TableNode → Arms UsageTag
  | [] => []
  | node :: nodes =>
    (node.value.symbol, plainUsageDecision inherited node) :: plainUsageArms inherited nodes

end

/-- The usage of every code, nothing being dropped. -/
def CodeTable.plainUsage (table : CodeTable) : Decision UsageTag :=
  .switch .type table.root.symbol (plainUsageArms .root table.nodes) (.give Inherited.root.tag)

theorem mem_plainUsageArms {inherited : Inherited} {nodes : List TableNode}
    {arm : Symbol × Decision UsageTag} :
    arm ∈ plainUsageArms inherited nodes ↔
      ∃ node ∈ nodes, arm = (node.value.symbol, plainUsageDecision inherited node) := by
  induction nodes with
  | nil => simp [plainUsageArms]
  | cons node nodes ih => simp only [plainUsageArms, List.mem_cons, ih, exists_eq_or_imp]

/-- With all its arms the decision of a level answers the same. -/
theorem evaluate_plainUsage {typeBits : Nat} {owner : Code} {names : List String}
    {remaining : Nat} {layout : Layout} {nodes : List TableNode}
    (h : LevelPlaced typeBits owner names remaining layout nodes) (c : Code)
    (inherited : Inherited) :
    (Decision.switch .type layout.symbol (plainUsageArms inherited nodes)
        (.give inherited.tag)).evaluate (.ofType c) =
      (inherited.along (TableNode.declared nodes c)).tag := by
  induction h generalizing inherited with
  | @intro owner names remaining layout nodes fits below ih =>
    have harms : ∀ arm ∈ plainUsageArms inherited nodes,
        ∃ node ∈ nodes, arm = (node.value.symbol, plainUsageDecision inherited node) :=
      fun arm harm => mem_plainUsageArms.mp harm
    rw [TableNode.declared]
    rcases (LevelPlaced.intro fits below).chain_cases c with
      ⟨hnone, hchain⟩ | ⟨node, hnode, hcovers, hchain⟩
    · rw [hchain, fits.evaluate_switch_of_none harms (c := c) rfl
        fun node hnode _ => hnone node hnode]
      rfl
    · rw [hchain, fits.evaluate_switch_of_covers harms (c := c) rfl hnode
        (mem_plainUsageArms.mpr ⟨node, hnode, rfl⟩) hcovers]
      cases node with
      | leaf slot => rfl
      | branch slot layout' children =>
        rw [plainUsageDecision, ih slot layout' children hnode]
        rfl

/-! ### The usage of a code -/

/-- The usage of a code is left behind the types that the code lies in. -/
theorem usageOf_eq_along {schema : Schema} {table : CodeTable}
    (h : allocate schema = .ok table) (c : Code) (isCommand : Bool) :
    (Artifacts.ofTable table).usageOf c isCommand =
      (Inherited.root.along (table.declared c)).tag.resolve isCommand :=
  congrArg (·.resolve isCommand) (evaluate_usage (levelPlaced_of_allocate h) c .root)

/-- **A code has the usage of the nearest type that declares one.**  Without one among the types
that the code lies in, the usage is `NONE`.  Otherwise the toggle variant is the answer for commands
if the nearest type with a usage, or a type below it, is a toggle; what stands above that type has
no effect, nor has what the decision leaves out. -/
theorem usage_eq_nearest {schema : Schema} {table : CodeTable}
    (h : allocate schema = .ok table) (c : Code) (isCommand : Bool) :
    ((∀ info ∈ table.declared c, info.usage = none) →
        (Artifacts.ofTable table).usageOf c isCommand = "NONE") ∧
      (∀ above info below usage, table.declared c = above ++ info :: below →
        info.usage = some usage → (∀ i ∈ below, i.usage = none) →
        (Artifacts.ofTable table).usageOf c isCommand =
          if isCommand ∧ ∃ i ∈ info :: below, i.flags.contains .toggle then usage ++ "_TOGGLE"
          else usage) ∧
      (∀ schema' table' c' above above' info below, allocate schema' = .ok table' →
        table.declared c = above ++ info :: below →
        table'.declared c' = above' ++ info :: below → info.usage.isSome →
        (Artifacts.ofTable table).usageOf c isCommand =
          (Artifacts.ofTable table').usageOf c' isCommand) ∧
      table.usage.evaluate (.ofType c) = table.plainUsage.evaluate (.ofType c) := by
  refine ⟨?_, ?_, ?_, ?_⟩
  · intro hnone
    rw [usageOf_eq_along h, Inherited.along_of_no_usage _ hnone]
    rfl
  · intro above info below usage hpath hinfo hbelow
    rw [usageOf_eq_along h, hpath, Inherited.along_of_nearest _ above hinfo hbelow]
    simp only [Inherited.tag, UsageTag.resolve, UsageTag.toggleTag, Bool.and_eq_true,
      List.any_eq_true, and_comm]
  · intro schema' table' c' above above' info below h' hpath hpath' hinfo
    rw [usageOf_eq_along h, usageOf_eq_along h', hpath, hpath',
      Inherited.along_congr .root .root above above' below hinfo]
  · have hplaced := levelPlaced_of_allocate h
    exact (evaluate_usage hplaced c .root).trans (evaluate_plainUsage hplaced c .root).symm

/-- The light takes its usage from the root level, and its toggle too.  The fan has a usage of its
own, for which the toggle above it does not count. -/
theorem usage_sample : allocate Schema.sample = .ok Schema.sample.table ∧
    (Artifacts.ofTable Schema.sample.table).usageOf ⟨0x20a5⟩ true = "OFF_ON_TOGGLE" ∧
    (Artifacts.ofTable Schema.sample.table).usageOf ⟨0x20a9⟩ true = "SPEED" := by
  refine ⟨allocate_sample, ?_, ?_⟩
  · rw [(usage_eq_nearest allocate_sample ⟨0x20a5⟩ true).2.1 [] ⟨"BINARY", .toggle, "Binary",
      some "OFF_ON", ""⟩ [⟨"POWER", .compatible, "Power", none, ""⟩, ⟨"LIGHT", .command, "Light",
      none, ""⟩] "OFF_ON" (by decide) rfl (by decide)]
    decide
  · rw [(usage_eq_nearest allocate_sample ⟨0x20a9⟩ true).2.1 [⟨"BINARY", .toggle, "Binary",
      some "OFF_ON", ""⟩, ⟨"POWER", .compatible, "Power", none, ""⟩] ⟨"FAN", .command, "Fan",
      some "SPEED", ""⟩ [] "SPEED" (by decide) rfl (by decide)]
    decide

end PlugTaxonomy
