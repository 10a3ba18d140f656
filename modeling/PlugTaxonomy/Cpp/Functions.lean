import PlugTaxonomy.Artifacts
import PlugTaxonomy.Cpp.Printer

/-!
# Generated functions

The three decisions of a taxonomy as functions over codes.

* `decisionBody` — a decision as nested switches and comparisons;
* `labelFunction`, `usageFunction` — label and usage of a code;
* `compatibilityRules`, `compatibilityFunction` — the rules of wiring in their order, and behind
  them the decision along the consumer's path.
-/

namespace PlugTaxonomy.Cpp

/-! ### Decisions -/

/-- The variable that holds an operand. -/
def operandVariable : Operand → String
  | .type => "t"
  | .dst => "dst"
  | .src => "src"

/-- An operand under a mask. -/
def maskedOperand (operand : Operand) (mask : Symbol) : Term :=
  .masked (.var (operandVariable operand)) mask.name

/-- What a masked operand is compared with. -/
def comparandTerm : Comparand → Term
  | .symbol symbol => .constant symbol.name
  | .operand operand => .var (operandVariable operand)

mutual

/-- A decision as statements that give back its value. -/
def decisionBody {α : Type} (answer : α → Answer) : Decision α → List Statement
  | .give value => [.giveBack (answer value)]
  | .switch operand mask arms default =>
    [.switch (maskedOperand operand mask) (decisionCases answer arms)
      (decisionBody answer default)]
  | .ifMatch operand mask comparand hit miss =>
    .giveBackIf (.equal (maskedOperand operand mask) (comparandTerm comparand)) (answer hit) ::
      decisionBody answer miss

/-- The arms of a switch as its cases. -/
def decisionCases {α : Type} (answer : α → Answer) : Arms α → List (String × List Statement)
  | [] => []
  | (symbol, decision) :: arms =>
    (symbol.name, decisionBody answer decision) :: decisionCases answer arms

end

/-! ### Label and usage -/

def typeMaskName : String := "TYPE_MASK"
def commandName : String := "CMD"

/-- Declares the type of a code. -/
def declareType (name parameter : String) : Statement :=
  .declareCode name (.masked (.var parameter) typeMaskName)

/-- Declares whether a code has the command flag. -/
def declareCommand (name parameter : String) : Statement :=
  .declareTruth name (.nonzero (.masked (.var parameter) commandName))

def labelAnswer : Option String → Answer
  | some label => .label label
  | none => .empty

/-- The label of a code. -/
def labelFunction (labels : Decision (Option String)) : Function :=
  { head := "String getTypeLabel(" ++ enumName ++ " type)"
    body := declareType "t" "type" :: .blank :: decisionBody labelAnswer labels }

def usageAnswer (tag : UsageTag) : Answer :=
  if tag.toggle then .choice "cmd" tag.toggleTag tag.tag else .usage tag.tag

/-- The usage of a code. -/
def usageFunction (usage : Decision UsageTag) : Function :=
  { head := usageName ++ " getUsage(" ++ enumName ++ " type)"
    body := declareCommand "cmd" "type" :: declareType "t" "type" :: .blank ::
      decisionBody usageAnswer usage }

/-! ### Compatibility -/

/-- Whether a variable holds one of some codes. -/
def anyOf (name : String) : List Symbol → Condition
  | [] => .constant false
  | symbol :: symbols =>
    symbols.foldl (fun condition s => .either condition (.equal (.var name) (.constant s.name)))
      (.equal (.var name) (.constant symbol.name))

/-- What holds of no code and of one code, and is kept by each code behind others, holds whether a
variable holds one of any codes. -/
theorem anyOf_induction {name : String} {motive : List Symbol → Condition → Prop}
    (nil : motive [] (.constant false))
    (single : ∀ s, motive [s] (.equal (.var name) (.constant s.name)))
    (concat : ∀ symbols condition s, motive symbols condition →
      motive (symbols ++ [s]) (.either condition (.equal (.var name) (.constant s.name))))
    (symbols : List Symbol) : motive symbols (anyOf name symbols) := by
  cases symbols with
  | nil => exact nil
  | cons first others =>
    have hfold : ∀ (rest before : List Symbol) (condition : Condition), motive before condition →
        motive (before ++ rest) (rest.foldl (fun condition s =>
          .either condition (.equal (.var name) (.constant s.name))) condition) := by
      intro rest
      induction rest with
      | nil =>
        intro before condition hbefore
        rw [List.append_nil]
        exact hbefore
      | cons s rest ih =>
        intro before condition hbefore
        rw [List.append_cons]
        exact ih _ _ (concat before condition s hbefore)
    exact hfold others [first] _ (single first)

/-- A rule as a guard under its text. -/
def ruleGuard (rule : Rule) (condition : Condition) (compatible : Bool) : List Statement :=
  [.comment rule.text, .guard condition (.truth compatible)]

/-- The rules of wiring in their order. -/
def compatibilityRules (rules : Compatibility) : List Statement :=
  let category (name : String) : Term := .masked (.var name) rules.category.name
  let direction (parameter : String) : Term := .masked (.var parameter) "DIRECTION_MASK"
  let srcSwitch : Condition := .var "srcSwitch"
  let dstSwitch : Condition := .var "dstSwitch"
  let srcCommand : Condition := .var "srcCommand"
  let dstCommand : Condition := .var "dstCommand"
  let encoder : List Statement :=
    match rules.encoderCategory with
    | none => []
    | some symbol =>
      ruleGuard .encoderDrivesCommand
        (.both (.both (.equal (.var "srcCategory") (.constant symbol.name)) dstCommand)
          (.negated dstSwitch)) true
  ruleGuard .direction
      (.either (.differ (direction "srcType") (.constant "OUT"))
        (.differ (direction "dstType") (.constant "IN"))) false
    ++ [declareCommand "srcCommand" "srcType", declareCommand "dstCommand" "dstType",
      declareType "src" "srcType", declareType "dst" "dstType",
      .declareCode "srcCategory" (category "src"), .declareCode "dstCategory" (category "dst")]
    ++ ruleGuard .exactMatch (.equal (.var "srcCategory") (.var "dst")) true
    ++ [.declareTruth "srcSwitch" (anyOf "srcCategory" rules.switchCategories),
      .declareTruth "dstSwitch" (anyOf "dstCategory" rules.switchCategories)]
    ++ ruleGuard .switchEquivalence (.both srcSwitch dstSwitch) true
    ++ ruleGuard .switchDrivesCommand (.both srcSwitch dstCommand) true
    ++ ruleGuard .valueDrivesSwitch (.both (.negated srcCommand) dstSwitch) true
    ++ encoder
    ++ ruleGuard .commandAsymmetry (.both srcCommand (.negated dstCommand)) false

/-- Whether a consumer may be wired to a producer. -/
def compatibilityFunction (rules : Compatibility) : Function :=
  { head := "bool isCompatible(" ++ enumName ++ " dstType, " ++ enumName ++ " srcType)"
    body := compatibilityRules rules ++ .blank :: decisionBody .truth rules.descent }

end PlugTaxonomy.Cpp
