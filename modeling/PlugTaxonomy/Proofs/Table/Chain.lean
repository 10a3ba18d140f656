import PlugTaxonomy.Proofs.Decision.Switch
import PlugTaxonomy.Proofs.Table.Layout

/-!
# The types that a code lies in

A code lies in a type if the mask of the type's level gives the type's code.  In an allocated
table the types that a code lies in are the beginning of one path from the root level down: on
each level there is at most one, and it stands right below the one before.

* `Slot.covers`, `CodeTable.chain` — whether a code lies in a type, and all types that it lies
  in, in pre-order;
* `chain_of_covers`, `chain_eq_nil` — the chain on a level goes on below the one type of the level
  that the code lies in, and ends where there is none;
* `descent_chain` — the chain is a path;
* `getLast?_chain_self` — the chain of a type's own code ends at the type;
* `mem_preorder_iff_covers` — a type's code lies in just those types that it stands in or below;
* `masked_code_of_descendant` — the mask of a level does not tell a type on it from those below.
-/

namespace PlugTaxonomy

/-- Whether a code lies in a type: the mask of the type's level gives the type's code. -/
def Slot.covers (slot : Slot) (c : Code) : Bool :=
  c.typeCode.masked slot.categoryMask == slot.code

/-- The types that a code lies in, on the levels of a list and below, in pre-order. -/
def TableNode.chain (nodes : List TableNode) (c : Code) : List TableNode :=
  (Tree.preorders nodes).filter fun node => node.value.covers c

/-- The types of a table that a code lies in, in pre-order. -/
def CodeTable.chain (table : CodeTable) (c : Code) : List TableNode :=
  table.preorder.filter fun node => node.value.covers c

theorem Slot.covers_iff (slot : Slot) (c : Code) :
    slot.covers c = true ↔ c.typeCode.masked slot.categoryMask = slot.code := by
  rw [covers, beq_iff_eq]

/-- Direction and command flag are no matter to what a code lies in. -/
theorem Slot.covers_congr (slot : Slot) {c d : Code} (h : c.typeCode = d.typeCode) :
    slot.covers c = slot.covers d := by
  rw [covers, covers, h]

theorem TableNode.chain_congr (nodes : List TableNode) {c d : Code} (h : c.typeCode = d.typeCode) :
    TableNode.chain nodes c = TableNode.chain nodes d := by
  rw [chain, chain]
  congr 1
  funext node
  exact node.value.covers_congr h

theorem TableNode.mem_chain_iff {nodes : List TableNode} {c : Code} {node : TableNode} :
    node ∈ TableNode.chain nodes c ↔
      node ∈ Tree.preorders nodes ∧ node.value.covers c = true :=
  List.mem_filter

/-! ### One level -/

namespace LevelFits

variable {typeBits : Nat} {owner : Code} {names : List String} {remaining : Nat}
  {layout : Layout} {nodes : List TableNode} {node : TableNode}

/-- A code lies in a type if the mask of the level selects the type. -/
theorem covers_iff (h : LevelFits typeBits owner names remaining layout nodes)
    (hnode : node ∈ nodes) (c : Code) :
    node.value.covers c = true ↔ c.typeCode.masked layout.mask = node.value.code := by
  rw [Slot.covers_iff, h.categoryMask_eq hnode, h.mask_eq]

/-- A code lies in a type if the mask of the type's level takes it to the type's code, flags and
all. -/
theorem covers_iff_masked (h : LevelFits typeBits owner names remaining layout nodes)
    (hnode : node ∈ nodes) (c : Code) :
    node.value.covers c = true ↔ c.masked node.value.categoryMask = node.value.code := by
  rw [Slot.covers_iff, h.categoryMask_eq hnode,
    Code.typeCode_masked_categoryMask c layout.offset h.typeBits_le]

/-- What lies in a type lies under the owner of the type's level. -/
theorem masked_of_covers (h : LevelFits typeBits owner names remaining layout nodes)
    (hnode : node ∈ nodes) {c : Code} (hcovers : node.value.covers c = true) :
    c.typeCode.masked (Code.categoryMask remaining typeBits) = owner := by
  rw [Slot.covers_iff, h.categoryMask_eq hnode] at hcovers
  rw [← h.code_masked_owner hnode, ← hcovers, Code.masked_masked_of_le _ _ h.offset_le]

theorem covers_self (h : LevelFits typeBits owner names remaining layout nodes)
    (hnode : node ∈ nodes) : node.value.covers node.value.code = true := by
  rw [Slot.covers_iff, h.categoryMask_eq hnode, h.typeCode_code hnode, h.code_masked hnode]

/-- The owner of a level lies in none of the types on it. -/
theorem not_covers_owner (h : LevelFits typeBits owner names remaining layout nodes)
    (hnode : node ∈ nodes) {c : Code} (hc : c.typeCode = owner) : node.value.covers c = false := by
  rw [Bool.eq_false_iff]
  intro hcovers
  rw [h.covers_iff hnode, hc, h.owner_masked_mask] at hcovers
  exact h.code_ne_owner hnode hcovers.symm

/-- A code lies in at most one type of a level. -/
theorem eq_of_covers (h : LevelFits typeBits owner names remaining layout nodes)
    {node' : TableNode} (hnode : node ∈ nodes) (hnode' : node' ∈ nodes) {c : Code}
    (hcovers : node.value.covers c = true) (hcovers' : node'.value.covers c = true) :
    node = node' := by
  rw [h.covers_iff hnode] at hcovers
  rw [h.covers_iff hnode'] at hcovers'
  exact h.eq_of_code_eq hnode hnode' (hcovers.symm.trans hcovers')

section Switch

variable {α : Type} {answer : TableNode → Decision α} {arms : Arms α} {default : Decision α}
  {operand : Operand} {operands : Operands} {c : Code}

/-- A switch whose arms stand for types of a level goes on with the arm of the type that a code
lies in. -/
theorem evaluate_switch_of_covers (h : LevelFits typeBits owner names remaining layout nodes)
    (harms : ∀ arm ∈ arms, ∃ node ∈ nodes, arm = (node.value.symbol, answer node))
    (hoperand : operands.get operand = c.typeCode) (hnode : node ∈ nodes)
    (hmem : (node.value.symbol, answer node) ∈ arms) (hcovers : node.value.covers c = true) :
    (Decision.switch operand layout.symbol arms default).evaluate operands =
      (answer node).evaluate operands := by
  have hselector : (operands.get operand).masked layout.symbol.code = node.value.symbol.code := by
    rw [hoperand]
    exact (h.covers_iff hnode c).mp hcovers
  rw [Decision.evaluate, hselector, Decision.evaluateArms_eq_some hmem]
  intro arm harm hcode
  obtain ⟨node', hnode', rfl⟩ := harms arm harm
  rw [h.eq_of_code_eq hnode' hnode hcode]

/-- A switch goes on with its default if none of its arms stands for a type that a code lies
in. -/
theorem evaluate_switch_of_none (h : LevelFits typeBits owner names remaining layout nodes)
    (harms : ∀ arm ∈ arms, ∃ node ∈ nodes, arm = (node.value.symbol, answer node))
    (hoperand : operands.get operand = c.typeCode)
    (hnone : ∀ node ∈ nodes, (node.value.symbol, answer node) ∈ arms →
      node.value.covers c = false) :
    (Decision.switch operand layout.symbol arms default).evaluate operands =
      default.evaluate operands := by
  rw [Decision.evaluate, Decision.evaluateArms_eq_none]
  intro arm harm hcode
  obtain ⟨node', hnode', rfl⟩ := harms arm harm
  rw [hoperand] at hcode
  have hcovers := (h.covers_iff hnode' c).mpr hcode.symm
  rw [hnone node' hnode' harm] at hcovers
  cases hcovers

end Switch

end LevelFits

/-! ### All levels -/

namespace LevelPlaced

variable {typeBits : Nat} {owner : Code} {names : List String} {remaining : Nat}
  {layout : Layout} {nodes : List TableNode}

theorem fits (h : LevelPlaced typeBits owner names remaining layout nodes) :
    LevelFits typeBits owner names remaining layout nodes := by
  cases h with
  | intro fits below => exact fits

theorem level_below (h : LevelPlaced typeBits owner names remaining layout nodes) {slot : Slot}
    {layout' : Layout} {children : List TableNode} (hmem : .branch slot layout' children ∈ nodes) :
    LevelPlaced typeBits slot.code slot.names layout.offset layout' children := by
  cases h with
  | intro fits below => exact below slot layout' children hmem

/-- What lies in a type anywhere below a level lies under the owner of the level. -/
theorem masked_of_covers (h : LevelPlaced typeBits owner names remaining layout nodes)
    {node : TableNode} {c : Code} (hnode : node ∈ Tree.preorders nodes)
    (hcovers : node.value.covers c = true) :
    c.typeCode.masked (Code.categoryMask remaining typeBits) = owner := by
  induction h with
  | intro fits below ih =>
    obtain ⟨top, htop, rfl | hsub⟩ := Tree.mem_preorders_iff.mp hnode
    · exact fits.masked_of_covers htop hcovers
    · cases top with
      | leaf slot => cases hsub
      | branch slot layout' children =>
        have hslot := ih slot layout' children htop hsub
        refine fits.masked_of_covers htop ?_
        rw [Slot.covers_iff, fits.categoryMask_eq htop]
        exact hslot

/-- What lies in a type below another lies in the other. -/
theorem covers_of_mem_children (h : LevelPlaced typeBits owner names remaining layout nodes)
    {node sub : TableNode} {c : Code} (hnode : node ∈ nodes)
    (hsub : sub ∈ Tree.preorders node.children) (hcovers : sub.value.covers c = true) :
    node.value.covers c = true := by
  cases node with
  | leaf slot => cases hsub
  | branch slot layout' children =>
    rw [Slot.covers_iff, h.fits.categoryMask_eq hnode]
    exact (h.level_below hnode).masked_of_covers hsub hcovers

/-- Every type stands on a placed level. -/
theorem exists_level (h : LevelPlaced typeBits owner names remaining layout nodes)
    {node : TableNode} (hnode : node ∈ Tree.preorders nodes) :
    ∃ owner' names' remaining' layout' nodes',
      LevelPlaced typeBits owner' names' remaining' layout' nodes' ∧ node ∈ nodes' := by
  induction h with
  | @intro owner names remaining layout nodes fits below ih =>
    obtain ⟨top, htop, rfl | hsub⟩ := Tree.mem_preorders_iff.mp hnode
    · exact ⟨owner, names, remaining, layout, nodes, .intro fits below, htop⟩
    · cases top with
      | leaf slot => cases hsub
      | branch slot layout' children => exact ih slot layout' children htop hsub

theorem covers_self (h : LevelPlaced typeBits owner names remaining layout nodes)
    {node : TableNode} (hnode : node ∈ Tree.preorders nodes) :
    node.value.covers node.value.code = true := by
  obtain ⟨_, _, _, _, _, hlevel, hmem⟩ := h.exists_level hnode
  exact hlevel.fits.covers_self hmem

theorem typeCode_code (h : LevelPlaced typeBits owner names remaining layout nodes)
    {node : TableNode} (hnode : node ∈ Tree.preorders nodes) :
    node.value.code.typeCode = node.value.code := by
  obtain ⟨_, _, _, _, _, hlevel, hmem⟩ := h.exists_level hnode
  exact hlevel.fits.typeCode_code hmem

/-! ### The chain of a code -/

/-- A code that lies in no type of a level lies in none below either. -/
theorem chain_eq_nil (h : LevelPlaced typeBits owner names remaining layout nodes) {c : Code}
    (hnone : ∀ node ∈ nodes, node.value.covers c = false) : TableNode.chain nodes c = [] := by
  rw [TableNode.chain, List.filter_eq_nil_iff]
  intro sub hsub hcovers
  obtain ⟨top, htop, rfl | hsub⟩ := Tree.mem_preorders_iff.mp hsub
  · rw [hnone sub htop] at hcovers
    cases hcovers
  · have htopcovers := h.covers_of_mem_children htop hsub hcovers
    rw [hnone top htop] at htopcovers
    cases htopcovers

/-- The code of a type lies in nothing below the type. -/
theorem chain_children_eq_nil (h : LevelPlaced typeBits owner names remaining layout nodes)
    {node : TableNode} {c : Code} (hnode : node ∈ nodes) (hc : c.typeCode = node.value.code) :
    TableNode.chain node.children c = [] := by
  cases node with
  | leaf slot => rfl
  | branch slot layout' children =>
    have hbelow := h.level_below hnode
    exact hbelow.chain_eq_nil fun child hchild => hbelow.fits.not_covers_owner hchild hc

/-- A code that lies in a type of a level lies in that type, and otherwise only below it. -/
theorem chain_of_covers (h : LevelPlaced typeBits owner names remaining layout nodes)
    {node : TableNode} {c : Code} (hnode : node ∈ nodes) (hcovers : node.value.covers c = true) :
    TableNode.chain nodes c = node :: TableNode.chain node.children c := by
  obtain ⟨before, after, hsplit⟩ := List.append_of_mem hnode
  have hnodup : nodes.Nodup := List.Nodup.of_map _ h.fits.nodup_codes
  -- the siblings of the type and all that is below them drop out
  have hothers : ∀ other ∈ before ++ after, ∀ sub ∈ other.preorder,
      ¬sub.value.covers c = true := by
    intro other hother sub hsub hsubcovers
    have hmem : other ∈ nodes := by
      rw [hsplit]
      rcases List.mem_append.mp hother with hother | hother
      · exact List.mem_append_left _ hother
      · exact List.mem_append_right _ (List.mem_cons_of_mem _ hother)
    have hothercovers : other.value.covers c = true := by
      rcases Tree.mem_preorder_iff.mp hsub with rfl | hsub
      · exact hsubcovers
      · exact h.covers_of_mem_children hmem hsub hsubcovers
    obtain rfl := h.fits.eq_of_covers hmem hnode hothercovers hcovers
    rw [hsplit] at hnodup
    exact (List.nodup_middle.mp hnodup).notMem hother
  have hdropped : ∀ others : List TableNode, (∀ other ∈ others, other ∈ before ++ after) →
      (others.flatMap Tree.preorder).filter (·.value.covers c) = [] := by
    intro others hsub
    rw [List.filter_eq_nil_iff]
    intro sub hmem
    obtain ⟨other, hother, hbelow⟩ := List.mem_flatMap.mp hmem
    exact hothers other (hsub other hother) sub hbelow
  have hbefore := hdropped before fun other hother => List.mem_append_left _ hother
  have hafter := hdropped after fun other hother => List.mem_append_right _ hother
  rw [TableNode.chain, Tree.preorders_eq_flatMap, hsplit, List.flatMap_append, List.flatMap_cons,
    List.filter_append, List.filter_append, hbefore, hafter, Tree.preorder_eq, List.append_nil,
    List.nil_append, List.filter_cons, if_pos hcovers]
  rfl

/-- The chain on a level is empty, or it starts with a type of the level. -/
theorem chain_cases (h : LevelPlaced typeBits owner names remaining layout nodes) (c : Code) :
    ((∀ node ∈ nodes, node.value.covers c = false) ∧ TableNode.chain nodes c = []) ∨
      ∃ node ∈ nodes, node.value.covers c = true ∧
        TableNode.chain nodes c = node :: TableNode.chain node.children c := by
  by_cases hex : ∃ node ∈ nodes, node.value.covers c = true
  · obtain ⟨node, hnode, hcovers⟩ := hex
    exact Or.inr ⟨node, hnode, hcovers, h.chain_of_covers hnode hcovers⟩
  · have hnone : ∀ node ∈ nodes, node.value.covers c = false := fun node hnode =>
      Bool.eq_false_iff.mpr fun hcovers => hex ⟨node, hnode, hcovers⟩
    exact Or.inl ⟨hnone, h.chain_eq_nil hnone⟩

/-- The types that a code lies in stand one right below the other. -/
theorem descent_chain (h : LevelPlaced typeBits owner names remaining layout nodes) (c : Code) :
    Tree.Descent nodes (TableNode.chain nodes c) := by
  induction h with
  | intro fits below ih =>
    rcases (LevelPlaced.intro fits below).chain_cases c with
      ⟨-, hchain⟩ | ⟨node, hnode, -, hchain⟩
    · rw [hchain]
      exact .nil _
    · rw [hchain]
      refine .cons hnode ?_
      cases node with
      | leaf slot => exact .nil _
      | branch slot layout' children => exact ih slot layout' children hnode

/-- Behind a type of a chain comes the chain below that type. -/
theorem exists_chain_eq_append (h : LevelPlaced typeBits owner names remaining layout nodes)
    {node : TableNode} {c : Code} (hnode : node ∈ TableNode.chain nodes c) :
    ∃ before, TableNode.chain nodes c = before ++ node :: TableNode.chain node.children c := by
  induction h with
  | intro fits below ih =>
    rcases (LevelPlaced.intro fits below).chain_cases c with
      ⟨-, hchain⟩ | ⟨top, htop, -, hchain⟩
    · rw [hchain] at hnode
      cases hnode
    · rw [hchain] at hnode ⊢
      rcases List.mem_cons.mp hnode with rfl | hnode
      · exact ⟨[], rfl⟩
      · cases top with
        | leaf slot => cases hnode
        | branch slot layout' children =>
          obtain ⟨before, hbefore⟩ := ih slot layout' children htop hnode
          exact ⟨.branch slot layout' children :: before, congrArg _ hbefore⟩

/-- The chain of a type's code ends at the type. -/
theorem getLast?_chain_self (h : LevelPlaced typeBits owner names remaining layout nodes)
    {node : TableNode} {c : Code} (hnode : node ∈ Tree.preorders nodes)
    (hc : c.typeCode = node.value.code) : (TableNode.chain nodes c).getLast? = some node := by
  obtain ⟨_, _, _, _, _, hlevel, hmem⟩ := h.exists_level hnode
  have htype : c.typeCode = node.value.code.typeCode := by
    rw [hlevel.fits.typeCode_code hmem, hc]
  have hcovers : node.value.covers c = true := by
    rw [node.value.covers_congr htype, hlevel.fits.covers_self hmem]
  obtain ⟨before, hchain⟩ := h.exists_chain_eq_append (TableNode.mem_chain_iff.mpr ⟨hnode, hcovers⟩)
  rw [hchain, hlevel.chain_children_eq_nil hmem hc, List.getLast?_append, List.getLast?_singleton,
    Option.some_or]

/-- A type whose code the mask of a level keeps stands on that level. -/
theorem mem_of_code_masked (h : LevelPlaced typeBits owner names remaining layout nodes)
    {node : TableNode} (hnode : node ∈ Tree.preorders nodes)
    (hmask : node.value.code.masked layout.mask = node.value.code) : node ∈ nodes := by
  have htype := h.typeCode_code hnode
  have hlast := h.getLast?_chain_self hnode htype
  rcases h.chain_cases node.value.code with ⟨-, hchain⟩ | ⟨top, htop, hcovers, hchain⟩
  · rw [hchain] at hlast
    cases hlast
  · rw [h.fits.covers_iff htop, htype, hmask] at hcovers
    rw [hchain, h.chain_children_eq_nil htop (htype.trans hcovers), List.getLast?_singleton,
      Option.some.injEq] at hlast
    rw [← hlast]
    exact htop

/-- The code of a type lies in just those types that the type stands in or below. -/
theorem mem_preorder_iff_covers (h : LevelPlaced typeBits owner names remaining layout nodes)
    {node sub : TableNode} (hnode : node ∈ Tree.preorders nodes)
    (hsub : sub ∈ Tree.preorders nodes) :
    sub ∈ node.preorder ↔ node.value.covers sub.value.code = true := by
  constructor
  · intro hmem
    obtain ⟨_, _, _, _, _, hlevel, hlevelmem⟩ := h.exists_level hnode
    rcases Tree.mem_preorder_iff.mp hmem with rfl | hmem
    · exact h.covers_self hnode
    · exact hlevel.covers_of_mem_children hlevelmem hmem (h.covers_self hsub)
  · intro hcovers
    have hlast := h.getLast?_chain_self hsub (h.typeCode_code hsub)
    obtain ⟨before, hchain⟩ :=
      h.exists_chain_eq_append (TableNode.mem_chain_iff.mpr ⟨hnode, hcovers⟩)
    rw [hchain, List.getLast?_append_of_ne_nil _ (List.cons_ne_nil _ _)] at hlast
    rw [Tree.mem_preorder_iff]
    rcases List.mem_cons.mp (List.mem_of_getLast? hlast) with rfl | hmem
    · exact Or.inl rfl
    · exact Or.inr (TableNode.mem_chain_iff.mp hmem).1

/-! ### Levels below one another -/

/-- The mask of a level takes no more than the mask of the level below leaves. -/
theorem masked_below (h : LevelPlaced typeBits owner names remaining layout nodes) {slot : Slot}
    {layout' : Layout} {children : List TableNode} (hbranch : .branch slot layout' children ∈ nodes)
    (c : Code) : (c.masked layout'.mask).masked layout.mask = c.masked layout.mask := by
  have hbelow := (h.level_below hbranch).fits
  rw [hbelow.mask_eq, h.fits.mask_eq, Code.masked_masked_of_le c typeBits hbelow.offset_le]

/-- A code of which the mask of a level leaves what lies in the type that owns the level lies in that
type too. -/
theorem covers_of_masked_below (h : LevelPlaced typeBits owner names remaining layout nodes)
    {slot : Slot} {layout' : Layout} {children : List TableNode}
    (hbranch : .branch slot layout' children ∈ nodes) {c d : Code} (hcovers : slot.covers d = true)
    (hmask : c.typeCode.masked layout'.mask = d.typeCode) : slot.covers c = true := by
  have hcode := (h.fits.covers_iff hbranch d).mp hcovers
  refine (h.fits.covers_iff hbranch c).mpr ?_
  rw [← h.masked_below hbranch, hmask, hcode]

section Below

variable {node sub : TableNode}

/-- A type whose code lies in a type of a level is that type or stands below it. -/
theorem eq_or_mem_children (h : LevelPlaced typeBits owner names remaining layout nodes)
    {top : TableNode} (htop : top ∈ nodes) (hnode : node ∈ Tree.preorders nodes)
    (hcovers : top.value.covers node.value.code = true) :
    node = top ∨ node ∈ Tree.preorders top.children :=
  Tree.mem_preorder_iff.mp
    ((h.mem_preorder_iff_covers (Tree.mem_preorders_of_mem htop) hnode).mpr hcovers)

/-- A type of a level that another lies in has all types below the other in it. -/
theorem covers_of_descendant (h : LevelPlaced typeBits owner names remaining layout nodes)
    {top : TableNode} (htop : top ∈ nodes) (hnode : node ∈ Tree.preorders nodes)
    (hsub : sub ∈ node.preorder) (hcovers : top.value.covers node.value.code = true) :
    top.value.covers sub.value.code = true := by
  have hmem := Tree.mem_preorders_of_mem htop
  have hbelow := (h.mem_preorder_iff_covers hmem hnode).mpr hcovers
  rw [← h.mem_preorder_iff_covers hmem (Tree.mem_preorders_of_mem_preorder hnode hsub)]
  exact Tree.mem_preorder_trans hbelow hsub

/-- The mask of a level leaves the same of a type and of all types below it. -/
theorem masked_code_of_descendant (h : LevelPlaced typeBits owner names remaining layout nodes)
    (hnode : node ∈ Tree.preorders nodes) (hsub : sub ∈ node.preorder) :
    sub.value.code.masked layout.mask = node.value.code.masked layout.mask := by
  have hmem := Tree.mem_preorders_of_mem_preorder hnode hsub
  obtain ⟨top, htop, hbelow⟩ := Tree.mem_preorders_iff.mp hnode
  have hcovers := (h.mem_preorder_iff_covers (Tree.mem_preorders_of_mem htop) hnode).mp
    (Tree.mem_preorder_iff.mpr hbelow)
  have hsubcovers := h.covers_of_descendant htop hnode hsub hcovers
  rw [h.fits.covers_iff htop, h.typeCode_code hnode] at hcovers
  rw [h.fits.covers_iff htop, h.typeCode_code hmem] at hsubcovers
  rw [hsubcovers, hcovers]

end Below

end LevelPlaced

end PlugTaxonomy
