import PlugTaxonomy.Proofs.Decision.Contents
import PlugTaxonomy.Proofs.Keyed

/-!
# The arms that evaluations take

An evaluation goes from switch to switch, and on each of them it takes one arm or the default.  Here
the switches of a decision are listed, so that something can be said of all of them, and the way of
an evaluation is described, so that it can be said which arms are ever taken.

* `Switch`, `switches` — a switch of a decision, and all of them in the order of the tree;
* `madeOf_of_mem_switches` — what is known of a decision is known of its switches;
* `Switch.select`, `Switch.evaluate_decision` — the arm that a switch goes on with;
* `Reaches`, `Reaches.evaluate_eq` — the decisions that an evaluation comes to: each of them has the
  value of the whole;
* `Reordered`, `evaluate_of_reordered` — where the codes of the arms of each switch differ, their
  order is no matter.
-/

namespace PlugTaxonomy.Decision

variable {α : Type}

/-! ### Switches -/

/-- A switch that stands in a decision. -/
structure Switch (α : Type) where
  operand : Operand
  mask : Symbol
  arms : Arms α
  default : Decision α

namespace Switch

/-- A switch as a decision of its own. -/
def decision (s : Switch α) : Decision α :=
  .switch s.operand s.mask s.arms s.default

/-- The arm that a switch goes on with, the first one that has the selected code. -/
def select (s : Switch α) (operands : Operands) : Option (Symbol × Decision α) :=
  s.arms.find? fun arm => arm.1.code = (operands.get s.operand).masked s.mask.code

end Switch

mutual

/-- All switches of a decision, each one before those in its arms and behind its default. -/
def switches : Decision α → List (Switch α)
  | give _ => []
  | switch operand mask arms default =>
    ⟨operand, mask, arms, default⟩ :: (armSwitches arms ++ default.switches)
  | ifMatch _ _ _ _ miss => miss.switches

/-- All switches in the arms of a switch. -/
def armSwitches : Arms α → List (Switch α)
  | [] => []
  | (_, decision) :: arms => decision.switches ++ armSwitches arms

end

theorem mem_armSwitches_iff {arms : Arms α} {s : Switch α} :
    s ∈ armSwitches arms ↔ ∃ arm ∈ arms, s ∈ arm.2.switches := by
  induction arms with
  | nil => simp [armSwitches]
  | cons arm arms ih =>
    simp only [armSwitches, List.mem_append, ih, List.mem_cons, exists_eq_or_imp]

section MadeOf

variable {symbol : Symbol → Prop} {operand : Operand → Prop} {value : α → Prop}

mutual

/-- The switches of a decision are made of what the decision is made of. -/
theorem madeOf_of_mem_switches (decision : Decision α)
    (h : decision.MadeOf symbol operand value) :
    ∀ s ∈ decision.switches, s.decision.MadeOf symbol operand value := by
  cases decision with
  | give v => exact List.forall_mem_nil _
  | switch o mask arms default =>
    obtain ⟨-, -, -, harms, hdefault⟩ := id h
    exact List.forall_mem_cons.mpr ⟨h, List.forall_mem_append.mpr
      ⟨madeOf_of_mem_armSwitches arms harms, madeOf_of_mem_switches default hdefault⟩⟩
  | ifMatch o mask comparand hit miss =>
    obtain ⟨-, -, -, -, hmiss⟩ := h
    exact madeOf_of_mem_switches miss hmiss

theorem madeOf_of_mem_armSwitches (arms : Arms α) (h : ArmsMadeOf symbol operand value arms) :
    ∀ s ∈ armSwitches arms, s.decision.MadeOf symbol operand value := by
  cases arms with
  | nil => exact List.forall_mem_nil _
  | cons arm arms =>
    obtain ⟨s, decision⟩ := arm
    obtain ⟨-, hdecision, harms⟩ := h
    exact List.forall_mem_append.mpr ⟨madeOf_of_mem_switches decision hdecision,
      madeOf_of_mem_armSwitches arms harms⟩

end

end MadeOf

/-! ### Selection -/

/-- The arms have a value where one of them has the selected code. -/
theorem evaluateArms_eq_map_find? (operands : Operands) (selector : Code) (arms : Arms α) :
    evaluateArms operands selector arms =
      (arms.find? fun arm => arm.1.code = selector).map fun arm => arm.2.evaluate operands := by
  induction arms with
  | nil => rfl
  | cons arm arms ih =>
    obtain ⟨symbol, decision⟩ := arm
    by_cases hcode : symbol.code = selector
    · simp [evaluateArms, hcode]
    · simp [evaluateArms, hcode, ih]

namespace Switch

variable {s : Switch α} {operands : Operands} {arm : Symbol × Decision α}

theorem evaluate_decision_of_some (h : s.select operands = some arm) :
    s.decision.evaluate operands = arm.2.evaluate operands := by
  rw [select] at h
  rw [decision, evaluate, evaluateArms_eq_map_find?, h]
  rfl

theorem evaluate_decision_of_none (h : s.select operands = none) :
    s.decision.evaluate operands = s.default.evaluate operands := by
  rw [select] at h
  rw [decision, evaluate, evaluateArms_eq_map_find?, h]
  rfl

/-- Where the codes of the arms differ, the arm whose code an operand has under the mask is the one
that is taken. -/
theorem select_eq_some (hnodup : (s.arms.map (·.1.code)).Nodup) (harm : arm ∈ s.arms)
    (hcode : (operands.get s.operand).masked s.mask.code = arm.1.code) :
    s.select operands = some arm := by
  rw [select, hcode]
  exact find?_key_eq hnodup harm

end Switch

/-! ### The way of an evaluation -/

/-- The evaluation of a decision comes to another one: to itself, and to all that the arm or the
default that it goes on with comes to. -/
inductive Reaches (operands : Operands) : Decision α → Decision α → Prop
  | here (decision : Decision α) : Reaches operands decision decision
  | arm {s : Switch α} {arm : Symbol × Decision α} {goal : Decision α}
      (selected : s.select operands = some arm) (beyond : Reaches operands arm.2 goal) :
      Reaches operands s.decision goal
  | default {s : Switch α} {goal : Decision α} (selected : s.select operands = none)
      (beyond : Reaches operands s.default goal) : Reaches operands s.decision goal
  | miss {operand : Operand} {mask : Symbol} {comparand : Comparand} {hit : α}
      {miss goal : Decision α}
      (differs : (operands.get operand).masked mask.code ≠ operands.resolve comparand)
      (beyond : Reaches operands miss goal) :
      Reaches operands (.ifMatch operand mask comparand hit miss) goal

/-- All that an evaluation comes to has the value of the whole. -/
theorem Reaches.evaluate_eq {operands : Operands} {decision goal : Decision α}
    (h : decision.Reaches operands goal) : decision.evaluate operands = goal.evaluate operands := by
  induction h with
  | here decision => rfl
  | arm selected beyond ih => rw [Switch.evaluate_decision_of_some selected, ih]
  | default selected beyond ih => rw [Switch.evaluate_decision_of_none selected, ih]
  | miss differs beyond ih => rw [evaluate, if_neg differs, ih]

/-! ### The order of arms -/

mutual

/-- Two decisions are the same but for the order of the arms on each of their switches. -/
inductive Reordered : Decision α → Decision α → Prop
  | give (value : α) : Reordered (.give value) (.give value)
  | switch (operand : Operand) (mask : Symbol) {arms between arms' : Arms α}
      {default default' : Decision α} (inside : ArmsReordered arms between)
      (order : between.Perm arms') (otherwise : Reordered default default') :
      Reordered (.switch operand mask arms default) (.switch operand mask arms' default')
  | ifMatch (operand : Operand) (mask : Symbol) (comparand : Comparand) (hit : α)
      {miss miss' : Decision α} (beyond : Reordered miss miss') :
      Reordered (.ifMatch operand mask comparand hit miss)
        (.ifMatch operand mask comparand hit miss')

/-- The arms of two switches, one by one, have the same symbols, and decisions that are the same but
for the order of arms. -/
inductive ArmsReordered : Arms α → Arms α → Prop
  | nil : ArmsReordered [] []
  | cons (symbol : Symbol) {decision decision' : Decision α} {arms arms' : Arms α}
      (first : Reordered decision decision') (others : ArmsReordered arms arms') :
      ArmsReordered ((symbol, decision) :: arms) ((symbol, decision') :: arms')

end

mutual

/-- Nothing has to be put in another order, so a reordering may be that of a single switch. -/
theorem Reordered.refl (decision : Decision α) : Reordered decision decision := by
  cases decision with
  | give value => exact .give value
  | switch operand mask arms default =>
    exact .switch operand mask (ArmsReordered.refl arms) (.refl arms) (Reordered.refl default)
  | ifMatch operand mask comparand hit miss =>
    exact .ifMatch operand mask comparand hit (Reordered.refl miss)

theorem ArmsReordered.refl (arms : Arms α) : ArmsReordered arms arms := by
  cases arms with
  | nil => exact .nil
  | cons arm arms => exact .cons arm.1 (Reordered.refl arm.2) (ArmsReordered.refl arms)

end

theorem ArmsReordered.map_code {arms arms' : Arms α} (h : ArmsReordered arms arms') :
    arms'.map (·.1.code) = arms.map (·.1.code) := by
  induction arms generalizing arms' with
  | nil =>
    cases h
    rfl
  | cons arm arms ih =>
    cases h with
    | cons symbol first others => rw [List.map_cons, List.map_cons, ih others]

section Reordered

variable (operands : Operands)

/-- Arms whose codes differ have the same value in any order. -/
theorem evaluateArms_perm {arms arms' : Arms α} (hnodup : (arms.map (·.1.code)).Nodup)
    (h : arms.Perm arms') (selector : Code) :
    evaluateArms operands selector arms = evaluateArms operands selector arms' := by
  rw [evaluateArms_eq_map_find?, evaluateArms_eq_map_find?, find?_key_perm hnodup h]

mutual

/-- A decision on all of whose switches the codes of the arms differ has the same value if the arms
are put in another order. -/
theorem evaluate_of_reordered {decision decision' : Decision α} (h : Reordered decision decision')
    (hnodup : ∀ s ∈ decision.switches, (s.arms.map (·.1.code)).Nodup) :
    decision'.evaluate operands = decision.evaluate operands := by
  cases h with
  | give value => rfl
  | switch operand mask inside order otherwise =>
    rw [switches, List.forall_mem_cons, List.forall_mem_append] at hnodup
    obtain ⟨hhere, harms, hdefault⟩ := hnodup
    rw [← inside.map_code] at hhere
    rw [evaluate, evaluate, ← evaluateArms_perm operands hhere order,
      evaluateArms_of_reordered inside harms, evaluate_of_reordered otherwise hdefault]
  | ifMatch operand mask comparand hit beyond =>
    rw [evaluate, evaluate, evaluate_of_reordered beyond hnodup]

theorem evaluateArms_of_reordered {arms arms' : Arms α} (h : ArmsReordered arms arms')
    (hnodup : ∀ s ∈ armSwitches arms, (s.arms.map (·.1.code)).Nodup) {selector : Code} :
    evaluateArms operands selector arms' = evaluateArms operands selector arms := by
  cases h with
  | nil => rfl
  | cons symbol first others =>
    rw [armSwitches, List.forall_mem_append] at hnodup
    rw [evaluateArms, evaluateArms, evaluate_of_reordered first hnodup.1,
      evaluateArms_of_reordered others hnodup.2]

end

end Reordered

end PlugTaxonomy.Decision
