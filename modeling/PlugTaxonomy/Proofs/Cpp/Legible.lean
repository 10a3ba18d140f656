import PlugTaxonomy.Cpp.Functions
import PlugTaxonomy.Proofs.Cpp.Spelling
import PlugTaxonomy.Proofs.Decision.Contents
import PlugTaxonomy.Proofs.Table.Names

/-!
# Generated bodies are legible

* `legible_decisionBody` — the body of a decision whose symbols and values are names;
* `legible_compatibilityRules` — the rules of wiring, if what they look at are names.
-/

namespace PlugTaxonomy.Cpp

theorem isName_operandVariable (operand : Operand) : isName (operandVariable operand) = true := by
  cases operand <;> decide

theorem blockLegible_append {statements others : List Statement} :
    Statement.BlockLegible (statements ++ others) ↔
      Statement.BlockLegible statements ∧ Statement.BlockLegible others := by
  induction statements with
  | nil => simp [Statement.BlockLegible]
  | cons statement statements ih => simp [Statement.BlockLegible, ih, and_assoc]

/-! ### Decisions -/

section Decision

variable {α : Type} {symbol : Symbol → Prop} {operand : Operand → Prop} {value : α → Prop}

mutual

/-- The body of a decision is legible if its symbols are names and its answers are legible. -/
theorem legible_decisionBody (answer : α → Answer)
    (hsymbol : ∀ s, symbol s → isName s.name = true)
    (hanswer : ∀ v, value v → (answer v).Legible) (decision : Decision α)
    (h : decision.MadeOf symbol operand value) :
    Statement.BlockLegible (decisionBody answer decision) := by
  cases decision with
  | give v => exact ⟨hanswer v h, trivial⟩
  | switch o mask arms default =>
    obtain ⟨-, hmask, -, harms, hdefault⟩ := h
    exact ⟨⟨⟨isName_operandVariable o, hsymbol mask hmask⟩,
      legible_decisionCases answer hsymbol hanswer arms harms,
      legible_decisionBody answer hsymbol hanswer default hdefault⟩, trivial⟩
  | ifMatch o mask comparand hit miss =>
    obtain ⟨-, hmask, hcomparand, hhit, hmiss⟩ := h
    have hterm : (comparandTerm comparand).Legible := by
      cases comparand with
      | symbol s => exact hsymbol s hcomparand
      | operand other => exact isName_operandVariable other
    exact ⟨⟨⟨⟨isName_operandVariable o, hsymbol mask hmask⟩, hterm⟩, hanswer hit hhit⟩,
      legible_decisionBody answer hsymbol hanswer miss hmiss⟩

theorem legible_decisionCases (answer : α → Answer)
    (hsymbol : ∀ s, symbol s → isName s.name = true)
    (hanswer : ∀ v, value v → (answer v).Legible) (arms : Arms α)
    (h : Decision.ArmsMadeOf symbol operand value arms) :
    Statement.CasesLegible (decisionCases answer arms) := by
  cases arms with
  | nil => trivial
  | cons arm arms =>
    obtain ⟨s, decision⟩ := arm
    obtain ⟨hs, hdecision, harms⟩ := h
    exact ⟨hsymbol s hs, legible_decisionBody answer hsymbol hanswer decision hdecision,
      legible_decisionCases answer hsymbol hanswer arms harms⟩

end

end Decision

/-! ### Label and usage -/

theorem legible_declareType {name parameter : String} (hname : isName name = true)
    (hparameter : isName parameter = true) : (declareType name parameter).Legible :=
  ⟨hname, hparameter, by decide⟩

theorem legible_declareCommand {name parameter : String} (hname : isName name = true)
    (hparameter : isName parameter = true) : (declareCommand name parameter).Legible :=
  ⟨hname, hparameter, by decide⟩

theorem legible_labelAnswer (label : Option String) : (labelAnswer label).Legible := by
  cases label <;> trivial

/-- A usage is legible if its tag is an identifier, and so is its toggle variant. -/
theorem legible_usageAnswer {tag : UsageTag} (h : Identifier tag.tag) :
    (usageAnswer tag).Legible := by
  have htoggle : Identifier tag.toggleTag := h.append (by decide)
  rw [usageAnswer]
  split
  · exact ⟨by decide, isName_of_identifier htoggle, isName_of_identifier h⟩
  · exact isName_of_identifier h

/-! ### Compatibility -/

section Rules

/-- Whether a variable holds one of some codes is legible if the codes have names. -/
theorem legible_anyOf {name : String} (hname : isName name = true) {symbols : List Symbol}
    (hsymbols : ∀ s ∈ symbols, isName s.name = true) : (anyOf name symbols).Legible := by
  revert hsymbols
  refine anyOf_induction
    (motive := fun symbols condition => (∀ s ∈ symbols, isName s.name = true) → condition.Legible)
    (fun _ => trivial) (fun s hs => ⟨hname, hs s (List.mem_singleton_self s)⟩)
    (fun before condition s ih hall => ?_) symbols
  obtain ⟨hbefore, hs⟩ := List.forall_mem_append.mp hall
  exact ⟨ih hbefore, ⟨hname, hs s (List.mem_singleton_self s)⟩, Nat.le_succ 2⟩

theorem legible_ruleGuard (rule : Rule) {condition : Condition} (h : condition.Legible)
    (compatible : Bool) : Statement.BlockLegible (ruleGuard rule condition compatible) := by
  have hplain : (rule.text.toList.all fun c => c != '\n' && c != '\\') = true := by
    cases rule <;> rfl
  have htext : ∀ c ∈ rule.text.toList, c ≠ '\n' ∧ c ≠ '\\' := by
    intro c hc
    have hchar := List.all_eq_true.mp hplain c hc
    rwa [Bool.and_eq_true, bne_iff_ne, bne_iff_ne] at hchar
  exact ⟨htext, ⟨h, trivial⟩, trivial⟩

/-- The rules of wiring are legible if the types that they look at have names. -/
theorem legible_compatibilityRules {rules : Compatibility}
    (hcategory : isName rules.category.name = true)
    (hswitches : ∀ s ∈ rules.switchCategories, isName s.name = true)
    (hencoder : ∀ s ∈ rules.encoderCategory, isName s.name = true) :
    Statement.BlockLegible (compatibilityRules rules) := by
  have hsrcType : isName "srcType" = true := by decide
  have hdstType : isName "dstType" = true := by decide
  have hsrc : isName "src" = true := by decide
  have hdst : isName "dst" = true := by decide
  have hsrcCategory : isName "srcCategory" = true := by decide
  have hdstCategory : isName "dstCategory" = true := by decide
  have hsrcSwitch : isName "srcSwitch" = true := by decide
  have hdstSwitch : isName "dstSwitch" = true := by decide
  have hsrcCommand : isName "srcCommand" = true := by decide
  have hdstCommand : isName "dstCommand" = true := by decide
  have hmask : isName "DIRECTION_MASK" = true := by decide
  have hout : isName "OUT" = true := by decide
  have hin : isName "IN" = true := by decide
  simp only [compatibilityRules, blockLegible_append, and_assoc]
  refine ⟨legible_ruleGuard _ ?_ _, ?_, legible_ruleGuard _ ?_ _, ?_, legible_ruleGuard _ ?_ _,
    legible_ruleGuard _ ?_ _, legible_ruleGuard _ ?_ _, ?_, legible_ruleGuard _ ?_ _⟩
  · exact ⟨⟨⟨hsrcType, hmask⟩, hout⟩, ⟨⟨hdstType, hmask⟩, hin⟩, Nat.le_succ 2⟩
  · exact ⟨legible_declareCommand hsrcCommand hsrcType,
      legible_declareCommand hdstCommand hdstType, legible_declareType hsrc hsrcType,
      legible_declareType hdst hdstType, ⟨hsrcCategory, hsrc, hcategory⟩,
      ⟨hdstCategory, hdst, hcategory⟩, trivial⟩
  · exact ⟨hsrcCategory, hdst⟩
  · exact ⟨⟨hsrcSwitch, legible_anyOf hsrcCategory hswitches⟩,
      ⟨hdstSwitch, legible_anyOf hdstCategory hswitches⟩, trivial⟩
  · exact ⟨hsrcSwitch, hdstSwitch, Nat.le_succ 2, Nat.le_refl 3⟩
  · exact ⟨hsrcSwitch, hdstCommand, Nat.le_succ 2, Nat.le_refl 3⟩
  · exact ⟨hsrcCommand, hdstSwitch, Nat.le_succ 2, Nat.le_refl 3⟩
  · cases hsome : rules.encoderCategory with
    | none => trivial
    | some symbol =>
      refine legible_ruleGuard _ ?_ _
      exact ⟨⟨⟨hsrcCategory, hencoder symbol hsome⟩, hdstCommand, Nat.le_succ 2, Nat.le_refl 3⟩,
        hdstSwitch, Nat.le_refl 2, Nat.le_refl 3⟩
  · exact ⟨hsrcCommand, hdstCommand, Nat.le_succ 2, Nat.le_refl 3⟩

end Rules

end PlugTaxonomy.Cpp
