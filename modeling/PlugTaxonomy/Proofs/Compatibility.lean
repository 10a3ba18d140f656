import PlugTaxonomy.Artifacts
import PlugTaxonomy.Proofs.Code.Flags
import PlugTaxonomy.Proofs.Keyed
import PlugTaxonomy.Proofs.Table.Chain

/-!
# Compatibility is settled on the tree

The rules compare masked codes, and what they leave over is settled by a decision along the
consumer's path.  Both are said here of the taxonomy alone: which root types an endpoint lies in,
and whether the producer lies in one type on the consumer's path.

* `CodeTable.pathTo`, `TableNode.acceptor` — the types down to a type, and the one of them in which
  producers for it are sought;
* `CodeTable.liesIn` — whether a code lies in a root type with one of some names;
* `CodeTable.verdict` — the rules as said of the taxonomy;
* `evaluate_descent` — the decision of a level accepts what lies in the scope;
* `check_eq_verdict` — the verdict on every consumer and every producer under an accepted schema.
-/

namespace PlugTaxonomy

/-! ### The rules on the tree -/

/-- The code of a consumer of a type, as a value or as a command. -/
def Slot.consumer (slot : Slot) (isCommand : Bool) : Code :=
  slot.code.union (Code.consumerFlags isCommand)

/-- The type in which producers for a type are sought: the topmost compatible type on a path, or
else the type itself. -/
def TableNode.acceptor (path : List TableNode) (node : TableNode) : TableNode :=
  (path.find? (·.value.info.flags.contains .compatible)).getD node

namespace CodeTable

/-- The types from the root level down to a type, that type last. -/
def pathTo (table : CodeTable) (node : TableNode) : List TableNode :=
  table.preorder.filter fun above => node ∈ above.preorder

/-- Whether a code lies in a root type with one of some names. -/
def liesIn (table : CodeTable) (names : List String) (c : Code) : Bool :=
  table.nodes.any fun root => names.contains root.value.info.name && root.value.covers c

/-- The verdict on a consumer of a type and a producer, said of the taxonomy. -/
def verdict (table : CodeTable) (node : TableNode) (isCommand : Bool) (src : Code) : Verdict :=
  let srcSwitch := table.liesIn ["BINARY", "TERNARY"] src
  let dstSwitch := table.liesIn ["BINARY", "TERNARY"] node.value.code
  if src.masked .directionMask ≠ .output then ⟨false, .direction⟩
  else if node ∈ table.nodes ∧ node.value.covers src then ⟨true, .exactMatch⟩
  else if srcSwitch && dstSwitch then ⟨true, .switchEquivalence⟩
  else if srcSwitch && isCommand then ⟨true, .switchDrivesCommand⟩
  else if !src.isCommand && dstSwitch then ⟨true, .valueDrivesSwitch⟩
  else if table.liesIn ["ENCODER"] src && isCommand && !dstSwitch then ⟨true, .encoderDrivesCommand⟩
  else if src.isCommand && !isCommand then ⟨false, .commandAsymmetry⟩
  else ⟨(TableNode.acceptor (table.pathTo node) node).value.covers src, .structuralDescent⟩

end CodeTable

/-! ### Along the consumer's path -/

section Acceptor

variable {top node : TableNode} {path : List TableNode}

theorem acceptor_cons_of_pos (h : top.value.info.flags.contains .compatible = true) :
    TableNode.acceptor (top :: path) node = top := by
  simp only [TableNode.acceptor, List.find?_cons, h, Option.getD_some]

theorem acceptor_cons_of_neg (h : ¬top.value.info.flags.contains .compatible = true) :
    TableNode.acceptor (top :: path) node = TableNode.acceptor path node := by
  simp only [TableNode.acceptor, List.find?_cons, h]

/-- On the path that is a type alone, producers are sought in that type. -/
theorem acceptor_singleton : TableNode.acceptor [node] node = node := by
  by_cases h : node.value.info.flags.contains .compatible = true
  · exact acceptor_cons_of_pos h
  · exact acceptor_cons_of_neg h

end Acceptor

/-- There is one arm for each type of a level. -/
theorem mem_descentArms {layout : Layout} {nodes : List TableNode} {arm : Symbol × Decision Bool} :
    arm ∈ descentArms layout nodes ↔
      ∃ node ∈ nodes, arm = (node.value.symbol, descentDecision layout node) := by
  induction nodes with
  | nil => simp [descentArms]
  | cons node nodes ih => simp only [descentArms, List.mem_cons, ih, exists_eq_or_imp]

section Level

variable {typeBits : Nat} {owner : Code} {names : List String} {remaining : Nat}
  {layout : Layout} {nodes : List TableNode}

/-- Producers are accepted that lie in the type. -/
theorem evaluate_acceptWithin (h : LevelFits typeBits owner names remaining layout nodes)
    {node : TableNode} (hnode : node ∈ nodes) (dst src : Code) :
    (acceptWithin layout node.value).evaluate (.pair dst src) = node.value.covers src := by
  have hcovers := h.covers_iff hnode src
  rw [acceptWithin, Decision.evaluate, Decision.evaluate]
  show (if src.typeCode.masked layout.mask = node.value.code then true else false) = _
  split
  · rename_i hmatch
    exact (hcovers.mpr hmatch).symm
  · rename_i hmatch
    exact (Bool.eq_false_iff.mpr fun hsrc => hmatch (hcovers.mp hsrc)).symm

/-- A compatible type accepts the producers that lie in it, and so does a leaf. -/
theorem evaluate_descentDecision (h : LevelFits typeBits owner names remaining layout nodes)
    {node : TableNode} (hnode : node ∈ nodes)
    (haccept : node.value.info.flags.contains .compatible = true ∨ node.isLeaf = true)
    (dst src : Code) :
    (descentDecision layout node).evaluate (.pair dst src) = node.value.covers src := by
  rw [← evaluate_acceptWithin h hnode dst src]
  cases node with
  | leaf slot =>
    rw [descentDecision]
    rfl
  | branch slot below children =>
    rcases haccept with hcompatible | hleaf
    · have hslot : slot.info.flags.contains .compatible = true := hcompatible
      rw [descentDecision, if_pos hslot]
      rfl
    · cases hleaf

/-- The decision for consumers in a branch that is not compatible. -/
theorem evaluate_descentDecision_branch {slot : Slot} {below : Layout} {children : List TableNode}
    (h : ¬slot.info.flags.contains .compatible = true) (dst src : Code) :
    (descentDecision layout (.branch slot below children)).evaluate (.pair dst src) =
      if src.typeCode.masked below.mask = dst.typeCode then true
      else (Decision.switch .dst below.symbol (descentArms below children)
        (.give false)).evaluate (.pair dst src) := by
  rw [descentDecision, if_neg h, Decision.evaluate]
  rfl

/-- A consumer of a type on the level is refused the producers that do not lie in the type. -/
theorem evaluate_descentDecision_self (h : LevelPlaced typeBits owner names remaining layout nodes)
    {node : TableNode} (hnode : node ∈ nodes) {dst src : Code}
    (hdst : dst.typeCode = node.value.code) (hsrc : node.value.covers src = false) :
    (descentDecision layout node).evaluate (.pair dst src) = false := by
  by_cases haccept : node.value.info.flags.contains .compatible = true ∨ node.isLeaf = true
  · rw [evaluate_descentDecision h.fits hnode haccept, hsrc]
  obtain ⟨hcompatible, hleaf⟩ := not_or.mp haccept
  cases node with
  | leaf slot => exact absurd rfl hleaf
  | branch slot below children =>
    have hslot : ¬slot.info.flags.contains .compatible = true := hcompatible
    have hbelow := (h.level_below hnode).fits
    have hmatch : ¬src.typeCode.masked below.mask = dst.typeCode := by
      intro heq
      have hcovers : slot.covers src = true := by
        rw [slot.covers_iff, ← hbelow.masked_owner (heq.trans hdst)]
        exact congrArg src.typeCode.masked (h.fits.categoryMask_eq hnode)
      exact absurd hcovers (Bool.eq_false_iff.mp hsrc)
    rw [evaluate_descentDecision_branch hslot, if_neg hmatch,
      hbelow.evaluate_switch_of_none (fun arm harm => mem_descentArms.mp harm) (c := dst) rfl
        fun child hchild _ => hbelow.not_covers_owner hchild hdst]
    rfl

/-- The decision of a level accepts the producers in the topmost compatible type on the consumer's
path, or else in the consumer's type.  Where that type stands on the level itself, the producers in
it must have been accepted before. -/
theorem evaluate_descent (h : LevelPlaced typeBits owner names remaining layout nodes)
    {node : TableNode} (hnode : node ∈ Tree.preorders nodes) {dst : Code}
    (hdst : dst.typeCode = node.value.code) (src : Code)
    (hbefore : node ∈ nodes → node.value.covers src = false) :
    (Decision.switch .dst layout.symbol (descentArms layout nodes) (.give false)).evaluate
        (.pair dst src) =
      (TableNode.acceptor (TableNode.chain nodes dst) node).value.covers src := by
  induction h with
  | @intro owner names remaining layout nodes fits below ih =>
    have h := LevelPlaced.intro fits below
    obtain ⟨top, htop, hsub⟩ := Tree.mem_preorders_iff.mp hnode
    have hcovers : top.value.covers dst = true := by
      have hdst' : dst.typeCode = node.value.code.typeCode := by rw [h.typeCode_code hnode, hdst]
      rw [top.value.covers_congr hdst', ← h.mem_preorder_iff_covers
        (Tree.mem_preorders_of_mem htop) hnode, Tree.mem_preorder_iff]
      exact hsub
    rw [fits.evaluate_switch_of_covers (fun arm harm => mem_descentArms.mp harm) (c := dst) rfl htop
      (mem_descentArms.mpr ⟨top, htop, rfl⟩) hcovers, h.chain_of_covers htop hcovers]
    rcases hsub with rfl | hsub
    · rw [h.chain_children_eq_nil htop hdst, acceptor_singleton, hbefore htop]
      exact evaluate_descentDecision_self h htop hdst (hbefore htop)
    by_cases hcompatible : top.value.info.flags.contains .compatible = true
    · rw [evaluate_descentDecision fits htop (.inl hcompatible), acceptor_cons_of_pos hcompatible]
    rw [acceptor_cons_of_neg hcompatible]
    cases top with
    | leaf slot => cases hsub
    | branch slot layout' children =>
      have hslot : ¬slot.info.flags.contains .compatible = true := hcompatible
      have hlevel := h.level_below htop
      rw [evaluate_descentDecision_branch hslot, Tree.children]
      by_cases hmatch : src.typeCode.masked layout'.mask = dst.typeCode
      · -- the consumer's type stands on the level below, and the producer lies in it
        have hmask : node.value.code.masked layout'.mask = node.value.code := by
          rw [← hdst, ← hmatch, Code.masked_masked, Code.masked_self]
        have hmem : node ∈ children := hlevel.mem_of_code_masked hsub hmask
        have hsrc : node.value.covers src = true :=
          (hlevel.fits.covers_iff hmem src).mpr (hmatch.trans hdst)
        have hself : node.value.covers dst = true := by
          rw [hlevel.fits.covers_iff hmem, hdst, hmask]
        rw [if_pos hmatch, hlevel.chain_of_covers hmem hself,
          hlevel.chain_children_eq_nil hmem hdst, acceptor_singleton, hsrc]
      · rw [if_neg hmatch]
        refine ih slot layout' children htop hsub fun hmem => ?_
        rw [Bool.eq_false_iff, Ne, hlevel.fits.covers_iff hmem, ← hdst]
        exact hmatch

end Level

/-! ### Root types -/

/-- On the root level of a table a name stands for the one type that has it. -/
theorem rootCategory?_eq_some_iff {typeBits : Nat} {owner : Code} {names : List String}
    {remaining : Nat} {table : CodeTable}
    (h : LevelFits typeBits owner names remaining table.root table.nodes) {name : String}
    {node : TableNode} :
    table.rootCategory? name = some node ↔ node ∈ table.nodes ∧ node.value.info.name = name :=
  find?_key_eq_some_iff h.distinct

theorem liesIn_iff (table : CodeTable) (names : List String) (c : Code) :
    table.liesIn names c = true ↔
      ∃ node ∈ table.nodes, node.value.info.name ∈ names ∧ node.value.covers c = true := by
  simp only [CodeTable.liesIn, List.any_eq_true, Bool.and_eq_true, List.contains_iff_mem]

section Root

variable {typeBits : Nat} {owner : Code} {names : List String} {remaining : Nat}
  {table : CodeTable} (h : LevelFits typeBits owner names remaining table.root table.nodes)
include h

/-- What the root mask leaves of a code is the code of a named root type just if the code lies in
that type. -/
theorem categorySymbol?_any_iff (name : String) (c : Code) :
    ((table.categorySymbol? name).any fun symbol =>
        symbol.code == c.typeCode.masked table.root.mask) = true ↔
      ∃ node ∈ table.nodes, node.value.info.name = name ∧ node.value.covers c = true := by
  rw [CodeTable.categorySymbol?, Option.any_map, Option.any_eq_true]
  constructor
  · rintro ⟨node, hsome, hcode⟩
    obtain ⟨hnode, hname⟩ := (rootCategory?_eq_some_iff h).mp hsome
    exact ⟨node, hnode, hname, (h.covers_iff hnode c).mpr (beq_iff_eq.mp hcode).symm⟩
  · rintro ⟨node, hnode, hname, hcovers⟩
    refine ⟨node, (rootCategory?_eq_some_iff h).mpr ⟨hnode, hname⟩, ?_⟩
    exact beq_iff_eq.mpr ((h.covers_iff hnode c).mp hcovers).symm

theorem isSwitch_eq_liesIn (c : Code) :
    table.compatibility.isSwitch (c.typeCode.masked table.root.mask) =
      table.liesIn ["BINARY", "TERNARY"] c := by
  rw [Bool.eq_iff_iff, liesIn_iff]
  constructor
  · intro hswitch
    obtain ⟨symbol, hsymbol, hcode⟩ := List.any_eq_true.mp hswitch
    obtain ⟨name, hname, hsome⟩ := List.mem_filterMap.mp hsymbol
    obtain ⟨node, hnode, rfl, hcovers⟩ :=
      (categorySymbol?_any_iff h name c).mp ((Option.any_eq_true _ _).mpr ⟨symbol, hsome, hcode⟩)
    exact ⟨node, hnode, hname, hcovers⟩
  · rintro ⟨node, hnode, hname, hcovers⟩
    have hany := (categorySymbol?_any_iff h node.value.info.name c).mpr ⟨node, hnode, rfl, hcovers⟩
    obtain ⟨symbol, hsome, hcode⟩ := (Option.any_eq_true _ _).mp hany
    exact List.any_eq_true.mpr ⟨symbol, List.mem_filterMap.mpr ⟨_, hname, hsome⟩, hcode⟩

theorem isEncoder_eq_liesIn (c : Code) :
    table.compatibility.isEncoder (c.typeCode.masked table.root.mask) =
      table.liesIn ["ENCODER"] c := by
  rw [Bool.eq_iff_iff, liesIn_iff]
  refine (categorySymbol?_any_iff h "ENCODER" c).trans ?_
  simp only [List.mem_singleton]

end Root

/-! ### The verdict -/

section Verdict

variable {typeBits : Nat} {table : CodeTable} {node : TableNode}
  (h : LevelPlaced typeBits .unknown [] table.typeBits table.root table.nodes)
  (hnode : node ∈ table.preorder)
include h hnode

/-- The path to a type is the chain of the type's code. -/
theorem pathTo_eq_chain : table.pathTo node = table.chain node.value.code := by
  refine List.filter_congr fun above habove => ?_
  rw [Bool.eq_iff_iff, decide_eq_true_iff]
  exact h.mem_preorder_iff_covers habove hnode

/-- The path to a type starts on the root level, goes down level by level and ends at the type. -/
theorem descent_pathTo : Tree.Descent table.nodes (table.pathTo node) ∧
    (table.pathTo node).getLast? = some node := by
  rw [pathTo_eq_chain h hnode]
  exact ⟨h.descent_chain _, h.getLast?_chain_self hnode (h.typeCode_code hnode)⟩

/-- What the root mask leaves of a producer is the code of a type just if that is a root type and
the producer lies in it. -/
theorem masked_eq_code_iff (src : Code) :
    src.typeCode.masked table.root.mask = node.value.code ↔
      node ∈ table.nodes ∧ node.value.covers src = true := by
  constructor
  · intro heq
    have hmask : node.value.code.masked table.root.mask = node.value.code := by
      rw [← heq, Code.masked_masked, Code.masked_self]
    have hmem := h.mem_of_code_masked hnode hmask
    exact ⟨hmem, (h.fits.covers_iff hmem src).mpr heq⟩
  · rintro ⟨hmem, hcovers⟩
    exact (h.fits.covers_iff hmem src).mp hcovers

/-- What the rules leave over is accepted if the producer lies where producers are sought. -/
theorem evaluate_compatibility_descent {dst src : Code} (hdst : dst.typeCode = node.value.code)
    (hexact : ¬(node ∈ table.nodes ∧ node.value.covers src = true)) :
    table.compatibility.descent.evaluate (.pair dst src) =
      (TableNode.acceptor (table.pathTo node) node).value.covers src := by
  have hchain : table.chain node.value.code = TableNode.chain table.nodes dst :=
    TableNode.chain_congr _ ((h.typeCode_code hnode).trans hdst.symm)
  rw [pathTo_eq_chain h hnode, hchain]
  exact evaluate_descent h hnode hdst src fun hmem =>
    Bool.eq_false_iff.mpr fun hcovers => hexact ⟨hmem, hcovers⟩

end Verdict

/-- **The rules are settled on the tree.**  The verdict on a consumer of a type and any producer is
that of the first rule that applies, each rule looking only at the root types that the two lie in,
and at the topmost compatible type on the consumer's path where no rule applies. -/
theorem check_eq_verdict {schema : Schema} {table : CodeTable} (h : allocate schema = .ok table)
    {node : TableNode} (hnode : node ∈ table.preorder) (isCommand : Bool) (src : Code) :
    (Artifacts.ofTable table).check (node.value.consumer isCommand) src =
      table.verdict node isCommand src := by
  have hplaced := levelPlaced_of_allocate h
  have hcode := hplaced.typeCode_code hnode
  have htype : (node.value.consumer isCommand).typeCode = node.value.code :=
    Code.typeCode_consumer hcode isCommand
  have hinput : (node.value.consumer isCommand).isInput = true :=
    Code.isInput_consumer hcode isCommand
  have hcommand : (node.value.consumer isCommand).isCommand = isCommand :=
    Code.isCommand_consumer hcode isCommand
  have hsrcSwitch := isSwitch_eq_liesIn hplaced.fits src
  have hdstSwitch := isSwitch_eq_liesIn hplaced.fits node.value.code
  rw [hcode] at hdstSwitch
  have hencoder := isEncoder_eq_liesIn hplaced.fits src
  have hmask : table.compatibility.category.code = table.root.mask := rfl
  show table.compatibility.check (node.value.consumer isCommand) src = _
  simp only [Compatibility.check, CodeTable.verdict, hinput, hcommand, htype, hmask, hsrcSwitch,
    hdstSwitch, hencoder, masked_eq_code_iff hplaced hnode]
  have hdirection : (!src.isOutput || !true) = true ↔ src.masked .directionMask ≠ .output := by
    rw [Bool.not_true, Bool.or_false, Bool.not_eq_true', ← Bool.not_eq_true, Code.isOutput_iff]
  refine if_congr hdirection rfl ?_
  by_cases hexact : node ∈ table.nodes ∧ node.value.covers src = true
  · rw [if_pos hexact, if_pos hexact]
  · rw [if_neg hexact, if_neg hexact, evaluate_compatibility_descent hplaced hnode htype hexact]

/-- A rotary encoder takes the values of its own type.  A fan that takes commands is refused those
of a level, which do not lie in the compatible type above the fan. -/
theorem check_sample : allocate Schema.sample = .ok Schema.sample.table ∧
    (Artifacts.ofTable Schema.sample.table).check ⟨0x8140⟩ ⟨0x4140⟩ = ⟨true, .structuralDescent⟩ ∧
    (Artifacts.ofTable Schema.sample.table).check ⟨0xa0a8⟩ ⟨0x6180⟩ =
      ⟨false, .structuralDescent⟩ := by
  refine ⟨allocate_sample, ?_, ?_⟩
  · have hrotary : .leaf ⟨⟨"ROTARY", .none, "Rotary", some "STEPS", ""⟩, ["ENCODER", "ROTARY"], 1,
        ⟨0x140⟩, ⟨0x1c0⟩⟩ ∈ Schema.sample.table.preorder := by decide
    refine (check_eq_verdict allocate_sample hrotary false ⟨0x4140⟩).trans ?_
    decide
  · have hfan : .leaf ⟨⟨"FAN", .command, "Fan", some "SPEED", ""⟩, ["BINARY", "POWER", "FAN"], 2,
        ⟨0xa8⟩, ⟨0x1fc⟩⟩ ∈ Schema.sample.table.preorder := by decide
    refine (check_eq_verdict allocate_sample hfan true ⟨0x6180⟩).trans ?_
    decide

end PlugTaxonomy
