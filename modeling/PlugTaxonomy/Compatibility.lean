import PlugTaxonomy.Decision.Basic
import PlugTaxonomy.Log.Entry
import PlugTaxonomy.Table.Basic
import PlugTaxonomy.Text.Escape

/-!
# Compatibility of endpoints

Whether a consumer may be wired to a producer is decided by a sequence of rules; the first one
that applies decides.  What is left over is settled along the consumer's path in the taxonomy,
where a type flagged as compatible accepts everything that lies in it.

* `Rule`, `Verdict` — the rules with their texts, and an outcome with the rule that decided it;
* `descentDecision`, `descentArms` — the decision along the consumer's path;
* `Compatibility` — the named categories that the rules look at, and that decision;
* `Compatibility.check` — the verdict on a consumer and a producer;
* `CodeTable.compatibility` — the rules of a table.

Categories without a type of their name in the root level disable the rules about them.
-/

namespace PlugTaxonomy

/-- The rules of wiring, in the order in which they are tried. -/
inductive Rule where
  | direction
  | exactMatch
  | switchEquivalence
  | switchDrivesCommand
  | valueDrivesSwitch
  | encoderDrivesCommand
  | commandAsymmetry
  | structuralDescent
  deriving DecidableEq, Repr

namespace Rule

/-- What a rule says. -/
def text : Rule → String
  | direction => "output must connect to input"
  | exactMatch => "source lies in destination category"
  | switchEquivalence => "switches interchange"
  | switchDrivesCommand => "switch drives command"
  | valueDrivesSwitch => "value drives switch"
  | encoderDrivesCommand => "encoder drives command"
  | commandAsymmetry => "command cannot drive a value"
  | structuralDescent => "type hierarchy"

/-- The words of a rule's name. -/
def words : Rule → List String
  | direction => ["direction"]
  | exactMatch => ["exact", "match"]
  | switchEquivalence => ["switch", "equivalence"]
  | switchDrivesCommand => ["switch", "drives", "command"]
  | valueDrivesSwitch => ["value", "drives", "switch"]
  | encoderDrivesCommand => ["encoder", "drives", "command"]
  | commandAsymmetry => ["command", "asymmetry"]
  | structuralDescent => ["structural", "descent"]

/-- The name of a rule in answers, such as `exact_match`. -/
def name (rule : Rule) : String :=
  String.intercalate "_" rule.words

/-- The name of a rule in the log, such as `ExactMatch`. -/
def title (rule : Rule) : String :=
  String.join (rule.words.map String.capitalize)

end Rule

/-- The outcome of a check with the rule that decided it. -/
structure Verdict where
  compatible : Bool
  rule : Rule
  deriving DecidableEq, Repr

/-! ### Along the consumer's path -/

/-- Accepts the producers that lie in a type of a level, and no others. -/
def acceptWithin (layout : Layout) (slot : Slot) : Decision Bool :=
  .ifMatch .src layout.symbol (.symbol slot.symbol) true (.give false)

mutual

/-- The decision for consumers that lie in a type.  A compatible type accepts all producers in
it, and so does a leaf.  Otherwise a producer is accepted that lies in the consumer's own code
on the level below, or else by the child that the consumer lies in. -/
def descentDecision (layout : Layout) : TableNode → Decision Bool
  | .leaf slot => acceptWithin layout slot
  | .branch slot below children =>
    if slot.info.flags.contains .compatible then acceptWithin layout slot
    else
      .ifMatch .src below.symbol (.operand .dst) true
        (.switch .dst below.symbol (descentArms below children) (.give false))

/-- One arm for each type of a level. -/
def descentArms (layout : Layout) : List TableNode → Arms Bool
  | [] => []
  | node :: nodes => (node.value.symbol, descentDecision layout node) :: descentArms layout nodes

end

/-! ### Rules -/

/-- What the rules of a taxonomy look at. -/
structure Compatibility where
  /-- The mask of the root level. -/
  category : Symbol
  /-- The root types whose values behave like switches. -/
  switchCategories : List Symbol
  /-- The root type of relative steps. -/
  encoderCategory : Option Symbol
  descent : Decision Bool

/-- The names of the root types whose values behave like switches. -/
def switchNames : List String := ["BINARY", "TERNARY"]

/-- The name of the root type of relative steps. -/
def encoderName : String := "ENCODER"

/-- The symbol of the root type with a name. -/
def CodeTable.categorySymbol? (table : CodeTable) (name : String) : Option Symbol :=
  (table.rootCategory? name).map (·.value.symbol)

/-- The rules of a table. -/
def CodeTable.compatibility (table : CodeTable) : Compatibility :=
  { category := table.root.symbol
    switchCategories := switchNames.filterMap table.categorySymbol?
    encoderCategory := table.categorySymbol? encoderName
    descent := .switch .dst table.root.symbol (descentArms table.root table.nodes) (.give false) }

namespace Compatibility

/-- Whether a root code belongs to a type whose values behave like switches. -/
def isSwitch (rules : Compatibility) (category : Code) : Bool :=
  rules.switchCategories.any (·.code == category)

/-- Whether a root code belongs to the type of relative steps. -/
def isEncoder (rules : Compatibility) (category : Code) : Bool :=
  rules.encoderCategory.any (·.code == category)

/-- The verdict on a consumer and a producer. -/
def check (rules : Compatibility) (dst src : Code) : Verdict :=
  let dstType := dst.typeCode
  let dstCategory := dstType.masked rules.category.code
  let srcCategory := src.typeCode.masked rules.category.code
  let dstSwitch := rules.isSwitch dstCategory
  let srcSwitch := rules.isSwitch srcCategory
  if !src.isOutput || !dst.isInput then ⟨false, .direction⟩
  else if srcCategory = dstType then ⟨true, .exactMatch⟩
  else if srcSwitch && dstSwitch then ⟨true, .switchEquivalence⟩
  else if srcSwitch && dst.isCommand then ⟨true, .switchDrivesCommand⟩
  else if !src.isCommand && dstSwitch then ⟨true, .valueDrivesSwitch⟩
  else if rules.isEncoder srcCategory && dst.isCommand && !dstSwitch then
    ⟨true, .encoderDrivesCommand⟩
  else if src.isCommand && !dst.isCommand then ⟨false, .commandAsymmetry⟩
  else ⟨rules.descent.evaluate (.pair dst src), .structuralDescent⟩

/-- Whether a consumer may be wired to a producer. -/
def isCompatible (rules : Compatibility) (dst src : Code) : Bool :=
  (rules.check dst src).compatible

/-! ### Log -/

/-- What is reported of the categories that a taxonomy lacks. -/
def log (rules : Compatibility) : List LogEntry :=
  let count := rules.switchCategories.length
  let switches : LogEntry :=
    ⟨.warn, .compatibility, "Schema lacks some of the switch categories [" ++
      String.intercalate ", " (switchNames.map Text.quoted) ++ "], switch rules apply to " ++
      toString count ++ " of them"⟩
  let encoder : LogEntry :=
    ⟨.warn, .compatibility, "Schema has no " ++ encoderName ++ " category, encoder rule disabled"⟩
  (if count < switchNames.length then [switches] else []) ++
    (if rules.encoderCategory.isNone then [encoder] else [])

end Compatibility

end PlugTaxonomy
