import PlugTaxonomy.Decision.Basic
import PlugTaxonomy.Table.Basic

/-!
# Labels

A code is labelled as the most specific type it lies in.  Below a type, a code that lies in
none of the children keeps the label of that type; outside all root types there is no label.

* `labelDecision`, `labelArms` — the decision below a type, and the arms of a level;
* `CodeTable.labels` — the decision of a whole table.
-/

namespace PlugTaxonomy

mutual

/-- The label of codes that lie in a type. -/
def labelDecision : TableNode → Decision (Option String)
  | .leaf slot => .give (some slot.info.label)
  | .branch slot layout children =>
    .switch .type layout.symbol (labelArms children) (.give (some slot.info.label))

/-- One arm for each type of a level. -/
def labelArms : List TableNode → Arms (Option String)
  | [] => []
  | node :: nodes => (node.value.symbol, labelDecision node) :: labelArms nodes

end

/-- The label of every code. -/
def CodeTable.labels (table : CodeTable) : Decision (Option String) :=
  .switch .type table.root.symbol (labelArms table.nodes) (.give none)

end PlugTaxonomy
