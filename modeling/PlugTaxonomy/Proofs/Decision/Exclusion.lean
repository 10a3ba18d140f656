import PlugTaxonomy.Proofs.Decision.Levels

/-!
# Arms exclude one another

The arms of a switch are for types of one level.  Their codes differ, the mask of the switch keeps
each of them, and none is the code of no type.  So no arm stands in the shadow of another, each of
them is taken, and their order is no matter.

* `ArmsExclusive` — all of that, for all switches of a decision;
* `FollowsLevels.armsExclusive` — a decision that follows levels that fit has exclusive arms;
* `armsExclusive_labels`, `armsExclusive_usage`, `armsExclusive_descent` — the decisions of a table.
-/

namespace PlugTaxonomy

namespace Decision

variable {α : Type}

/-- The arms of each switch of a decision exclude one another, and none is there in vain. -/
structure ArmsExclusive (asked : Code → Operands) (decision : Decision α) : Prop where
  /-- No two arms of a switch have the same code. -/
  nodup_codes : ∀ s ∈ decision.switches, (s.arms.map (·.1.code)).Nodup
  /-- No arm has the code zero. -/
  code_ne_unknown : ∀ s ∈ decision.switches, ∀ arm ∈ s.arms, arm.1.code ≠ .unknown
  /-- The mask of a switch takes nothing from the codes of its arms. -/
  code_masked : ∀ s ∈ decision.switches, ∀ arm ∈ s.arms, arm.1.code.masked s.mask.code = arm.1.code
  /-- For each arm there is a code that is asked about and for which the evaluation comes to the
  switch and takes the arm. -/
  taken : ∀ s ∈ decision.switches, ∀ arm ∈ s.arms,
    ∃ c, decision.Reaches (asked c) s.decision ∧ s.select (asked c) = some arm
  /-- With the arms of any switches in another order, the values are the same. -/
  evaluate_reordered : ∀ other, decision.Reordered other →
    ∀ operands, other.evaluate operands = decision.evaluate operands

/-! ### One switch -/

namespace Switch.StandsOn

variable {operand : Operand} {level : TableLevel} {s : Switch α} {typeBits : Nat}
  {names : List String} (h : s.StandsOn operand level)
include h

/-- An arm of a switch over a level is for a type of the level. -/
theorem exists_node {arm : Symbol × Decision α} (harm : arm ∈ s.arms) :
    ∃ node ∈ level.nodes, node.value.symbol = arm.1 :=
  List.mem_map.mp (h.arms_sublist.subset (List.mem_map_of_mem harm))

variable (hfits : LevelFits typeBits level.owner names level.top level.layout level.nodes)
include hfits

theorem nodup_codes : (s.arms.map (·.1.code)).Nodup := by
  have hcodes := h.arms_sublist.map Symbol.code
  rw [List.map_map, List.map_map] at hcodes
  exact hfits.nodup_codes.sublist hcodes

/-- The code of the level's owner takes no arm, as it lies in no type of the level. -/
theorem select_owner {asked : Code → Operands} (hasked : ∀ c, (asked c).get operand = c.typeCode) :
    s.select (asked level.owner) = none := by
  rw [select, h.operand_eq, hasked, hfits.typeCode_owner, h.mask_eq, List.find?_eq_none]
  intro arm harm hselected
  obtain ⟨node, hnode, hsymbol⟩ := h.exists_node harm
  have hcode : node.value.code = level.owner := by
    rw [← hfits.owner_masked_mask]
    exact (congrArg Symbol.code hsymbol).trans (of_decide_eq_true hselected)
  exact hfits.code_ne_owner hnode hcode

variable {arm : Symbol × Decision α} (harm : arm ∈ s.arms)
include harm

theorem code_ne_unknown : arm.1.code ≠ .unknown := by
  obtain ⟨node, hnode, hsymbol⟩ := h.exists_node harm
  rw [← hsymbol]
  exact hfits.code_ne_unknown hnode

/-- The mask of a switch over a level keeps the codes of the level. -/
theorem code_masked : arm.1.code.masked s.mask.code = arm.1.code := by
  obtain ⟨node, hnode, hsymbol⟩ := h.exists_node harm
  rw [← hsymbol, h.mask_eq]
  show node.value.code.masked level.layout.mask = node.value.code
  rw [hfits.mask_eq]
  exact hfits.code_masked hnode

theorem typeCode_code : arm.1.code.typeCode = arm.1.code := by
  obtain ⟨node, hnode, hsymbol⟩ := h.exists_node harm
  rw [← hsymbol]
  exact hfits.typeCode_code hnode

theorem holds_code : level.Holds typeBits arm.1.code := by
  rw [TableLevel.Holds, h.typeCode_code hfits harm]
  obtain ⟨node, hnode, hsymbol⟩ := h.exists_node harm
  rw [← hsymbol]
  exact hfits.code_masked_owner hnode

/-- The code of an arm takes the arm. -/
theorem select_code {asked : Code → Operands} (hasked : ∀ c, (asked c).get operand = c.typeCode) :
    s.select (asked arm.1.code) = some arm := by
  refine select_eq_some (h.nodup_codes hfits) harm ?_
  rw [h.operand_eq, hasked, h.typeCode_code hfits harm, h.code_masked hfits harm]

end Switch.StandsOn

/-! ### All switches -/

section FollowsLevels

variable {operand : Operand} {asked : Code → Operands} {typeBits : Nat} {levels : List TableLevel}
  {decision : Decision α}

/-- The switches of a decision may be said to stand on their levels in a weaker way. -/
theorem FollowsLevels.imp {stands stands' : TableLevel → Switch α → Prop}
    (h : decision.FollowsLevels typeBits asked stands levels)
    (hstands : ∀ level s, stands level s → stands' level s) :
    decision.FollowsLevels typeBits asked stands' levels := by
  intro s hs
  obtain ⟨level, hlevel, hs, hreaches⟩ := h s hs
  exact ⟨level, hlevel, hstands level s hs, hreaches⟩

/-- The arms of a decision that follows levels that fit exclude one another: they are for types,
which are told apart by the mask of their level. -/
theorem FollowsLevels.armsExclusive
    (h : decision.FollowsLevels typeBits asked (Switch.StandsOn operand) levels)
    (hasked : ∀ c, (asked c).get operand = c.typeCode)
    (hfits : ∀ level ∈ levels, ∃ names,
      LevelFits typeBits level.owner names level.top level.layout level.nodes) :
    decision.ArmsExclusive asked := by
  have hplace : ∀ s ∈ decision.switches, ∃ level names,
      LevelFits typeBits level.owner names level.top level.layout level.nodes ∧
        s.StandsOn operand level ∧
        ∀ c, level.Holds typeBits c → decision.Reaches (asked c) s.decision := by
    intro s hs
    obtain ⟨level, hlevel, hstands, hreaches⟩ := h s hs
    obtain ⟨names, hfits⟩ := hfits level hlevel
    exact ⟨level, names, hfits, hstands, hreaches⟩
  have hnodup : ∀ s ∈ decision.switches, (s.arms.map (·.1.code)).Nodup := by
    intro s hs
    obtain ⟨level, names, hfits, hstands, -⟩ := hplace s hs
    exact hstands.nodup_codes hfits
  refine ⟨hnodup, ?_, ?_, ?_, fun other hother operands =>
    evaluate_of_reordered operands hother hnodup⟩
  · intro s hs arm harm
    obtain ⟨level, names, hfits, hstands, -⟩ := hplace s hs
    exact hstands.code_ne_unknown hfits harm
  · intro s hs arm harm
    obtain ⟨level, names, hfits, hstands, -⟩ := hplace s hs
    exact hstands.code_masked hfits harm
  · intro s hs arm harm
    obtain ⟨level, names, hfits, hstands, hreaches⟩ := hplace s hs
    exact ⟨arm.1.code, hreaches _ (hstands.holds_code hfits harm),
      hstands.select_code hfits harm hasked⟩

end FollowsLevels

end Decision

/-! ### The decisions of a table -/

section Table

variable {table : CodeTable}
  (h : LevelPlaced table.typeBits .unknown [] table.typeBits table.root table.nodes)
include h

/-- All levels of a table are placed. -/
theorem placed_levels : ∀ level ∈ table.levels,
    ∃ names, LevelPlaced table.typeBits level.owner names level.top level.layout level.nodes :=
  h.placed_levels

theorem fits_levels : ∀ level ∈ table.levels,
    ∃ names, LevelFits table.typeBits level.owner names level.top level.layout level.nodes := by
  intro level hlevel
  obtain ⟨names, hplaced⟩ := placed_levels h level hlevel
  exact ⟨names, hplaced.fits⟩

theorem armsExclusive_labels : table.labels.ArmsExclusive .ofType :=
  (followsLevels_labels h none).armsExclusive (fun _ => rfl) (fits_levels h)

theorem armsExclusive_usage : table.usage.ArmsExclusive .ofType :=
  ((followsLevels_usage h .root).imp fun _ _ hs => hs.standsOn).armsExclusive (fun _ => rfl)
    (fits_levels h)

theorem armsExclusive_descent :
    table.compatibility.descent.ArmsExclusive (fun dst => .pair dst .unknown) :=
  (followsLevels_descent h).armsExclusive (fun _ => rfl) (fits_levels h)

end Table

end PlugTaxonomy
