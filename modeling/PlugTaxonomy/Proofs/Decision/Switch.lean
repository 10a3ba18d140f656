import PlugTaxonomy.Decision.Basic

/-!
# Switches and their arms

Evaluation takes the first arm that a code selects.  Where the codes of the arms differ there is
at most one, so the order of the arms is no matter.

* `evaluateArms_eq_none` — no arm is selected;
* `evaluateArms_eq_some` — the one arm that is selected.
-/

namespace PlugTaxonomy.Decision

variable {α : Type}

/-- A switch without an arm for a code leaves it to the default. -/
theorem evaluateArms_eq_none {operands : Operands} {selector : Code} {arms : Arms α}
    (h : ∀ arm ∈ arms, arm.1.code ≠ selector) : evaluateArms operands selector arms = none := by
  induction arms with
  | nil => rfl
  | cons arm arms ih =>
    obtain ⟨symbol, decision⟩ := arm
    rw [evaluateArms, if_neg (h _ List.mem_cons_self)]
    exact ih fun other hother => h other (List.mem_cons_of_mem _ hother)

/-- A code that selects one arm only gets the value of that arm. -/
theorem evaluateArms_eq_some {operands : Operands} {arms : Arms α} {symbol : Symbol}
    {decision : Decision α} (hmem : (symbol, decision) ∈ arms)
    (honly : ∀ arm ∈ arms, arm.1.code = symbol.code → arm = (symbol, decision)) :
    evaluateArms operands symbol.code arms = some (decision.evaluate operands) := by
  induction arms with
  | nil => cases hmem
  | cons arm arms ih =>
    obtain ⟨symbol', decision'⟩ := arm
    rw [evaluateArms]
    by_cases hcode : symbol'.code = symbol.code
    · obtain ⟨-, rfl⟩ := Prod.mk.inj (honly _ List.mem_cons_self hcode)
      rw [if_pos hcode]
    · rw [if_neg hcode]
      rcases List.mem_cons.mp hmem with heq | hmem
      · exact absurd (congrArg (·.1.code) heq.symm) hcode
      · exact ih hmem fun other hother => honly other (List.mem_cons_of_mem _ hother)

end PlugTaxonomy.Decision
