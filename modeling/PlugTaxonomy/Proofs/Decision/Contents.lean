import PlugTaxonomy.Decision.Basic

/-!
# What decisions are made of

A decision can be followed, printed or stored if that can be done with the symbols, the operands and
the values in it, and if the labels of each switch differ.

* `Decision.MadeOf` — a decision of symbols, operands and values with some properties, its labels
  different on each switch;
* `Decision.symbols` — all symbols of a decision, and `forall_mem_symbols_of_madeOf`;
* `evaluate_mem_values` — evaluation gives one of the values.
-/

namespace PlugTaxonomy

variable {α : Type}

section MadeOf

variable (symbol : Symbol → Prop) (operand : Operand → Prop) (value : α → Prop)

/-- The symbol or the operand of a comparand has its property. -/
def Comparand.MadeOf : Comparand → Prop
  | .symbol s => symbol s
  | .operand o => operand o

mutual

/-- All symbols, operands and values of a decision have their properties, and no two arms of a
switch have the same code. -/
def Decision.MadeOf : Decision α → Prop
  | .give v => value v
  | .switch o mask arms default =>
    operand o ∧ symbol mask ∧ (arms.map (·.1.code)).Nodup ∧ Decision.ArmsMadeOf arms ∧
      default.MadeOf
  | .ifMatch o mask comparand hit miss =>
    operand o ∧ symbol mask ∧ comparand.MadeOf symbol operand ∧ value hit ∧ miss.MadeOf

/-- What the arms of a switch are made of. -/
def Decision.ArmsMadeOf : Arms α → Prop
  | [] => True
  | (s, decision) :: arms => symbol s ∧ decision.MadeOf ∧ Decision.ArmsMadeOf arms

end

end MadeOf

namespace Decision

theorem armsMadeOf_iff {symbol : Symbol → Prop} {operand : Operand → Prop} {value : α → Prop}
    {arms : Arms α} :
    ArmsMadeOf symbol operand value arms ↔
      ∀ arm ∈ arms, symbol arm.1 ∧ arm.2.MadeOf symbol operand value := by
  induction arms with
  | nil => simp [ArmsMadeOf]
  | cons arm arms ih => simp only [ArmsMadeOf, ih, List.forall_mem_cons, and_assoc]

/-! ### Symbols -/

end Decision

/-- The symbol that a comparand is, if it is no operand. -/
def Comparand.symbols : Comparand → List Symbol
  | .symbol s => [s]
  | .operand _ => []

namespace Decision

mutual

/-- All symbols of a decision: the masks, the labels of switches and what operands are compared
with. -/
def symbols : Decision α → List Symbol
  | give _ => []
  | switch _ mask arms default => mask :: (armSymbols arms ++ default.symbols)
  | ifMatch _ mask comparand _ miss => mask :: (comparand.symbols ++ miss.symbols)

/-- The labels of the arms of a switch, and all symbols in them. -/
def armSymbols : Arms α → List Symbol
  | [] => []
  | (s, decision) :: arms => s :: (decision.symbols ++ armSymbols arms)

end

section Symbols

variable {symbol : Symbol → Prop} {operand : Operand → Prop} {value : α → Prop}

theorem forall_mem_comparand_symbols {comparand : Comparand}
    (h : comparand.MadeOf symbol operand) : ∀ s ∈ comparand.symbols, symbol s := by
  cases comparand with
  | symbol s => exact List.forall_mem_singleton.mpr h
  | operand o => exact List.forall_mem_nil _

mutual

/-- A decision has no symbols but those that it is made of. -/
theorem forall_mem_symbols_of_madeOf (decision : Decision α)
    (h : decision.MadeOf symbol operand value) : ∀ s ∈ decision.symbols, symbol s := by
  cases decision with
  | give v => exact List.forall_mem_nil _
  | switch o mask arms default =>
    obtain ⟨-, hmask, -, harms, hdefault⟩ := h
    exact List.forall_mem_cons.mpr ⟨hmask, List.forall_mem_append.mpr
      ⟨forall_mem_armSymbols_of_madeOf arms harms, forall_mem_symbols_of_madeOf default hdefault⟩⟩
  | ifMatch o mask comparand hit miss =>
    obtain ⟨-, hmask, hcomparand, -, hmiss⟩ := h
    exact List.forall_mem_cons.mpr ⟨hmask, List.forall_mem_append.mpr
      ⟨forall_mem_comparand_symbols hcomparand, forall_mem_symbols_of_madeOf miss hmiss⟩⟩

theorem forall_mem_armSymbols_of_madeOf (arms : Arms α)
    (h : ArmsMadeOf symbol operand value arms) : ∀ s ∈ armSymbols arms, symbol s := by
  cases arms with
  | nil => exact List.forall_mem_nil _
  | cons arm arms =>
    obtain ⟨s, decision⟩ := arm
    obtain ⟨hlabel, hdecision, harms⟩ := h
    exact List.forall_mem_cons.mpr ⟨hlabel, List.forall_mem_append.mpr
      ⟨forall_mem_symbols_of_madeOf decision hdecision,
        forall_mem_armSymbols_of_madeOf arms harms⟩⟩

end

end Symbols

/-! ### Values -/

theorem mem_armValues_iff {value : α} {arms : Arms α} :
    value ∈ armValues arms ↔ ∃ arm ∈ arms, value ∈ arm.2.values := by
  induction arms with
  | nil => simp [armValues]
  | cons arm arms ih =>
    simp only [armValues, List.mem_append, ih, List.mem_cons, exists_eq_or_imp]

mutual

/-- Evaluation gives one of the values of a decision. -/
theorem evaluate_mem_values (operands : Operands) (decision : Decision α) :
    decision.evaluate operands ∈ decision.values := by
  cases decision with
  | give value => exact List.mem_singleton_self value
  | switch operand mask arms default =>
    rw [evaluate, values, List.mem_append]
    cases harms : evaluateArms operands ((operands.get operand).masked mask.code) arms with
    | some value => exact Or.inl (mem_armValues_of_evaluateArms operands _ arms harms)
    | none => exact Or.inr (evaluate_mem_values operands default)
  | ifMatch operand mask comparand hit miss =>
    rw [evaluate, values]
    split
    · exact List.mem_cons_self
    · exact List.mem_cons_of_mem _ (evaluate_mem_values operands miss)

theorem mem_armValues_of_evaluateArms (operands : Operands) (selector : Code) (arms : Arms α)
    {value : α} (h : evaluateArms operands selector arms = some value) :
    value ∈ armValues arms := by
  cases arms with
  | nil => cases h
  | cons arm arms =>
    obtain ⟨symbol, decision⟩ := arm
    rw [evaluateArms] at h
    rw [armValues, List.mem_append]
    split at h
    · obtain rfl := Option.some.inj h
      exact Or.inl (evaluate_mem_values operands decision)
    · exact Or.inr (mem_armValues_of_evaluateArms operands selector arms h)

end

end Decision

end PlugTaxonomy
