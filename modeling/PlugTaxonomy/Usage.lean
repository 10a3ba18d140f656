import PlugTaxonomy.Decision.Basic
import PlugTaxonomy.Table.Basic
import Std.Data.TreeSet

/-!
# Usages

The usage of a code is that of the nearest type on its path which declares one.  If that type,
or one below it on the path, is flagged as a toggle, a command resolves to the toggle variant of
the usage.

* `UsageTag` — a usage, and whether a toggle variant of it applies;
* `Inherited` — the usage that the types above leave to a type;
* `usageDecision`, `usageArms` — the decision below a type: types that change nothing have no
  arm, and a level without arms needs no switch;
* `CodeTable.usage` — the decision of a whole table;
* `CodeTable.usages` — all usages a program has to know, in ascending order.
-/

namespace PlugTaxonomy

/-- The usage of codes that lie in a type, before the command flag counts. -/
structure UsageTag where
  tag : String
  toggle : Bool
  deriving DecidableEq, Repr

namespace UsageTag

/-- The usage of codes for which none is declared. -/
def none : UsageTag := ⟨"NONE", false⟩

/-- The toggle variant of a usage. -/
def toggleTag (tag : UsageTag) : String :=
  tag.tag ++ "_TOGGLE"

/-- The usage of a value or of a command. -/
def resolve (tag : UsageTag) (isCommand : Bool) : String :=
  if tag.toggle && isCommand then tag.toggleTag else tag.tag

end UsageTag

/-! ### Inheritance -/

/-- What the types above declare: the nearest usage, and whether a toggle flag stands at it or
below it. -/
structure Inherited where
  usage : Option String
  toggle : Bool
  deriving DecidableEq, Repr

namespace Inherited

/-- Nothing is declared above the root level. -/
def root : Inherited := ⟨none, false⟩

/-- What is left to the types below a type. -/
def enter (inherited : Inherited) (info : TypeInfo) : Inherited :=
  let toggle := info.flags.contains .toggle
  match info.usage with
  | some usage => ⟨some usage, toggle⟩
  | none => ⟨inherited.usage, inherited.toggle || toggle⟩

def tag (inherited : Inherited) : UsageTag :=
  match inherited.usage with
  | some usage => ⟨usage, inherited.toggle⟩
  | none => .none

end Inherited

/-! ### Decision -/

/-- A switch over the arms of a level, or the inherited usage alone if there are no arms. -/
def usageSwitch (inherited : Inherited) (layout : Layout) (arms : Arms UsageTag) :
    Decision UsageTag :=
  if arms.isEmpty then .give inherited.tag
  else .switch .type layout.symbol arms (.give inherited.tag)

mutual

/-- The usage of codes that lie in a type. -/
def usageDecision (inherited : Inherited) : TableNode → Decision UsageTag
  | .leaf slot => .give (inherited.enter slot.info).tag
  | .branch slot layout children =>
    let effective := inherited.enter slot.info
    usageSwitch effective layout (usageArms effective children)

/-- One arm for each type of a level in which the usage is not just the inherited one. -/
def usageArms (inherited : Inherited) : List TableNode → Arms UsageTag
  | [] => []
  | node :: nodes =>
    let decision := usageDecision inherited node
    let arms := usageArms inherited nodes
    if decision.isGive inherited.tag then arms else (node.value.symbol, decision) :: arms

end

/-- The usage of every code. -/
def CodeTable.usage (table : CodeTable) : Decision UsageTag :=
  usageSwitch .root table.root (usageArms .root table.nodes)

/-! ### All usages -/

/-- The texts of a list in ascending order, each one once. -/
def ascending (texts : List String) : List String :=
  (Std.TreeSet.ofList texts).toList

/-- Every usage that a program has to know: those that are declared, and those that codes and
commands resolve to. -/
def CodeTable.usages (table : CodeTable) : List String :=
  let declared := table.preorder.filterMap (·.value.info.usage)
  let resolved := table.usage.values.flatMap fun tag => [tag.resolve false, tag.resolve true]
  ascending (UsageTag.none.tag :: declared ++ resolved)

end PlugTaxonomy
