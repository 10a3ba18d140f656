import PlugTaxonomy.Proofs.Cpp.Source
import PlugTaxonomy.Proofs.Decision.Exclusion

/-!
# Case labels

A compiler refuses a `switch` with two cases of one value.  The labels of the generated switches are
the constants of the arms, so they stand for codes that differ.

* `Statement.switchLabels`, `Statement.blockSwitchLabels` — the labels of each switch in a body;
* `blockSwitchLabels_decisionBody` — in the body of a decision, they are those of the arms;
* `labels_nodup_of_madeOf` — the codes that they stand for differ;
* `arms_exclusive` — no arm of a decision stands in the shadow of another, nor does a generated
  case.
-/

namespace PlugTaxonomy.Cpp

/-! ### Labels of switches -/

mutual

/-- The labels of each switch in a statement. -/
def Statement.switchLabels : Statement → List (List String)
  | .comment _ => []
  | .blank => []
  | .declareCode _ _ => []
  | .declareTruth _ _ => []
  | .giveBack _ => []
  | .giveBackIf _ _ => []
  | .guard _ _ => []
  | .switch _ cases default =>
    cases.map (·.1) :: (Statement.caseSwitchLabels cases ++ Statement.blockSwitchLabels default)

def Statement.blockSwitchLabels : List Statement → List (List String)
  | [] => []
  | statement :: statements => statement.switchLabels ++ Statement.blockSwitchLabels statements

def Statement.caseSwitchLabels : List (String × List Statement) → List (List String)
  | [] => []
  | (_, block) :: cases => Statement.blockSwitchLabels block ++ Statement.caseSwitchLabels cases

end

namespace Statement

theorem blockSwitchLabels_append (statements others : List Statement) :
    blockSwitchLabels (statements ++ others) =
      blockSwitchLabels statements ++ blockSwitchLabels others := by
  induction statements with
  | nil => rfl
  | cons statement statements ih =>
    rw [List.cons_append, blockSwitchLabels, blockSwitchLabels, ih, List.append_assoc]

theorem plainCases_map_label (cases : List (String × List Statement)) :
    (plainCases cases).map (·.1) = cases.map (·.1) := by
  induction cases with
  | nil => rfl
  | cons entry cases ih => rw [plainCases, List.map_cons, List.map_cons, ih]

mutual

theorem blockSwitchLabels_plain (statement : Statement) :
    blockSwitchLabels statement.plain = statement.switchLabels := by
  cases statement with
  | switch term cases default =>
    rw [plain, blockSwitchLabels, switchLabels, switchLabels, plainCases_map_label,
      caseSwitchLabels_plainCases, blockSwitchLabels_plainBlock, blockSwitchLabels, List.append_nil]
  | _ => rfl

/-- Reading a body keeps the labels of its switches. -/
theorem blockSwitchLabels_plainBlock (statements : List Statement) :
    blockSwitchLabels (plainBlock statements) = blockSwitchLabels statements := by
  cases statements with
  | nil => rfl
  | cons statement statements =>
    rw [plainBlock, blockSwitchLabels_append, blockSwitchLabels_plain,
      blockSwitchLabels_plainBlock statements, blockSwitchLabels]

theorem caseSwitchLabels_plainCases (cases : List (String × List Statement)) :
    caseSwitchLabels (plainCases cases) = caseSwitchLabels cases := by
  cases cases with
  | nil => rfl
  | cons entry cases =>
    rw [plainCases, caseSwitchLabels, caseSwitchLabels, blockSwitchLabels_plainBlock,
      caseSwitchLabels_plainCases cases]

end

end Statement

/-! ### Generated bodies -/

section Decision

variable {α : Type} (answer : α → Answer)

mutual

/-- The switches of a decision's body are those of the decision, with the labels of their arms. -/
theorem blockSwitchLabels_decisionBody (decision : Decision α) :
    Statement.blockSwitchLabels (decisionBody answer decision) =
      decision.switches.map fun s => (decisionCases answer s.arms).map (·.1) := by
  cases decision with
  | give value => rfl
  | switch operand mask arms default =>
    rw [decisionBody, Statement.blockSwitchLabels, Statement.switchLabels, Decision.switches,
      List.map_cons, List.map_append, caseSwitchLabels_decisionCases arms,
      blockSwitchLabels_decisionBody default, Statement.blockSwitchLabels, List.append_nil]
  | ifMatch operand mask comparand hit miss =>
    rw [decisionBody, Statement.blockSwitchLabels, Statement.switchLabels, List.nil_append,
      blockSwitchLabels_decisionBody miss, Decision.switches]

theorem caseSwitchLabels_decisionCases (arms : Arms α) :
    Statement.caseSwitchLabels (decisionCases answer arms) =
      (Decision.armSwitches arms).map fun s => (decisionCases answer s.arms).map (·.1) := by
  cases arms with
  | nil => rfl
  | cons arm arms =>
    rw [decisionCases, Statement.caseSwitchLabels, Decision.armSwitches, List.map_append,
      blockSwitchLabels_decisionBody arm.2, caseSwitchLabels_decisionCases arms]

end

/-- The labels of the switches in a decision's body stand for codes that differ. -/
theorem labels_nodup_of_madeOf {scope : Scope} {symbol : Symbol → Prop} {operand : Operand → Prop}
    {value : α → Prop} {decision : Decision α}
    (hsymbol : ∀ s, symbol s → scope.code? s.name = some s.code)
    (h : decision.MadeOf symbol operand value) :
    ∀ labels ∈ Statement.blockSwitchLabels (decisionBody answer decision),
      ∃ codes, labels.mapM scope.code? = some codes ∧ codes.Nodup := by
  intro labels hlabels
  rw [blockSwitchLabels_decisionBody] at hlabels
  obtain ⟨s, hs, rfl⟩ := List.mem_map.mp hlabels
  obtain ⟨-, -, hnodup, harms, -⟩ := Decision.madeOf_of_mem_switches decision h s hs
  refine ⟨s.arms.map (·.1.code), ?_, hnodup⟩
  rw [List.mapM_map]
  exact mapM_labels answer hsymbol harms

end Decision

/-- The rules of wiring stand in front of all switches. -/
theorem blockSwitchLabels_compatibilityRules (rules : Compatibility) :
    Statement.blockSwitchLabels (compatibilityRules rules) = [] := by
  rw [compatibilityRules]
  cases rules.encoderCategory <;> rfl

theorem blockSwitchLabels_compatibilityFunction (rules : Compatibility) :
    Statement.blockSwitchLabels (compatibilityFunction rules).body =
      Statement.blockSwitchLabels (decisionBody .truth rules.descent) := by
  show Statement.blockSwitchLabels (compatibilityRules rules ++ .blank :: _) = _
  rw [Statement.blockSwitchLabels_append, blockSwitchLabels_compatibilityRules, List.nil_append,
    Statement.blockSwitchLabels, Statement.switchLabels, List.nil_append]

section Allocated

variable {schema : Schema} {table : CodeTable} (h : allocate schema = .ok table)
include h

/-- In each function of the generated source, the labels of each switch stand for codes that
differ. -/
theorem labels_nodup_of_mem_functions :
    ∀ function ∈ [labelDefinition table, usageDefinition table, compatibilityDefinition table],
      ∀ labels ∈ Statement.blockSwitchLabels function.body, ∃ codes,
        labels.mapM (Artifacts.ofTable table).scope.code? = some codes ∧ codes.Nodup := by
  have hsymbol : ∀ s, table.Declares s →
      (Artifacts.ofTable table).scope.code? s.name = some s.code := fun s => code?_of_declares h
  simp only [List.forall_mem_cons]
  refine ⟨?_, ?_, ?_, List.forall_mem_nil _⟩
  · rw [labelDefinition, Statement.blockSwitchLabels_plainBlock]
    exact labels_nodup_of_madeOf labelAnswer hsymbol (madeOf_table_labels h)
  · rw [usageDefinition, Statement.blockSwitchLabels_plainBlock]
    exact labels_nodup_of_madeOf usageAnswer hsymbol (madeOf_table_usage h)
  · rw [compatibilityDefinition, Statement.blockSwitchLabels_plainBlock,
      blockSwitchLabels_compatibilityFunction]
    exact labels_nodup_of_madeOf .truth hsymbol (madeOf_table_descent h)

end Allocated

/-- **Arms exclude one another, and so do the generated cases.**  Where a schema is accepted, the
codes of the arms on each switch of the three decisions differ, none of them is zero, and the mask
of the switch keeps them; each arm is taken for some code, and the order of arms is no matter.  In
the generated source no two labels of a switch have the same value. -/
theorem arms_exclusive {schema : Schema} {table : CodeTable} (h : allocate schema = .ok table) :
    (Artifacts.ofTable table).labels.ArmsExclusive .ofType ∧
      (Artifacts.ofTable table).usage.ArmsExclusive .ofType ∧
      (Artifacts.ofTable table).compatibility.descent.ArmsExclusive
        (fun dst => .pair dst .unknown) ∧
      ∃ functions, readSource (functionsSource (.ofTable table)) = some functions ∧
        ∀ function ∈ functions, ∀ labels ∈ Statement.blockSwitchLabels function.body, ∃ codes,
          labels.mapM (Artifacts.ofTable table).scope.code? = some codes ∧ codes.Nodup := by
  have hplaced := levelPlaced_of_allocate h
  exact ⟨armsExclusive_labels hplaced, armsExclusive_usage hplaced, armsExclusive_descent hplaced,
    _, readSource_functionsSource h, labels_nodup_of_mem_functions h⟩

/-- The labels of the sample, with the categories in reverse order. -/
theorem arms_exclusive_sample : allocate Schema.sample = .ok Schema.sample.table ∧
    ∀ operands, (Decision.switch .type Schema.sample.table.root.symbol
      (labelArms Schema.sample.table.nodes).reverse (.give none)).evaluate operands =
        (Artifacts.ofTable Schema.sample.table).labels.evaluate operands := by
  obtain ⟨hlabels, -, -, -⟩ := arms_exclusive allocate_sample
  have hreordered : (Artifacts.ofTable Schema.sample.table).labels.Reordered
      (.switch .type Schema.sample.table.root.symbol
        (labelArms Schema.sample.table.nodes).reverse (.give none)) :=
    .switch .type _ (.refl _) (List.reverse_perm _).symm (.give none)
  exact ⟨allocate_sample, hlabels.evaluate_reordered _ hreordered⟩

end PlugTaxonomy.Cpp
