import PlugTaxonomy.Code.Symbol
import PlugTaxonomy.Schema.Basic
import PlugTaxonomy.Text.Field

/-!
# Code tables

A code table is a taxonomy in which every type has its code and every level its place in the
code word.

* `Slot` — a declared type with its names from the root, selector value, code and mask;
* `Layout` — the bits that the selector of a level takes, and the mask down to it;
* `CodeTable` — the allocated tree, with `preorder`, `find?` and `usedBits`;
* `Slot.variants` — a type's code alone, per direction and, for commands, as a command.
-/

namespace PlugTaxonomy

/-- An allocated type. -/
structure Slot where
  /-- What the schema declares for the type. -/
  info : TypeInfo
  /-- The names from the root down to the type. -/
  names : List String
  /-- The value of the selector among the siblings, from one on. -/
  index : Nat
  code : Code
  /-- The mask of the level on which the type stands. -/
  categoryMask : Code
  deriving DecidableEq, Repr

/-- The place of a level in the code word. -/
structure Layout where
  /-- The names from the root down to the owner of the level, none for the root level. -/
  names : List String
  /-- The position of the lowest bit of the selector. -/
  offset : Nat
  bitCount : Nat
  mask : Code
  deriving DecidableEq, Repr

/-- An allocated type with the types below it. -/
abbrev TableNode := Tree Slot Layout

/-- A taxonomy with all its codes. -/
structure CodeTable where
  typeBits : Nat
  root : Layout
  nodes : List TableNode
  deriving DecidableEq, Repr

/-! ### Names -/

/-- The dotted path of a type, for instance `BINARY.POWER.LIGHT`. -/
def Slot.path (slot : Slot) : String :=
  String.intercalate "." slot.names

/-- The name of a type in the enumeration, for instance `BINARY_POWER_LIGHT`. -/
def Slot.qualifiedName (slot : Slot) : String :=
  String.intercalate "_" slot.names

/-- The text in front of all names of a level, for instance `BINARY_POWER_`. -/
def Layout.namePrefix (layout : Layout) : String :=
  String.join (layout.names.map (· ++ "_"))

/-- The name of a level's mask in the enumeration. -/
def Layout.maskName (layout : Layout) : String :=
  layout.namePrefix ++ "CATEGORY"

def Layout.symbol (layout : Layout) : Symbol :=
  ⟨layout.maskName, layout.mask⟩

def Slot.symbol (slot : Slot) : Symbol :=
  ⟨slot.qualifiedName, slot.code⟩

/-- The dotted path of the owner of a level. -/
def ownerPath : List String → String
  | [] => "<root>"
  | names => String.intercalate "." names

/-! ### Variants -/

/-- Whether values of the type may arrive as commands. -/
def Slot.isCommand (slot : Slot) : Bool :=
  slot.info.flags.contains .command

/-- The named codes of a type: the bare one, one per direction and, for command types, one per
direction as a command. -/
def Slot.variants (slot : Slot) : List Symbol :=
  let name := slot.qualifiedName
  let code := slot.code
  let plain := [⟨name, code⟩, ⟨name ++ "_IN", code.withDirection .input⟩,
    ⟨name ++ "_OUT", code.withDirection .output⟩]
  let commands := [⟨name ++ "_CMD_IN", code.withCommand.withDirection .input⟩,
    ⟨name ++ "_CMD_OUT", code.withCommand.withDirection .output⟩]
  if slot.isCommand then plain ++ commands else plain

/-! ### Offsets -/

mutual

/-- The least offset among a bound and the levels of a tree. -/
def TableNode.leastOffset (bound : Nat) : TableNode → Nat
  | .leaf _ => bound
  | .branch _ layout children => TableNode.leastOffsets (min bound layout.offset) children

/-- The least offset among a bound and the levels of a list of trees. -/
def TableNode.leastOffsets (bound : Nat) : List TableNode → Nat
  | [] => bound
  | node :: nodes => TableNode.leastOffsets (node.leastOffset bound) nodes

end

/-! ### Look-up -/

/-- The first type of a level that has a name. -/
def TableNode.named? (name : String) (nodes : List TableNode) : Option TableNode :=
  nodes.find? fun node => node.value.info.name = name

/-- The type that is reached by names from a level down. -/
def TableNode.reached? : List String → List TableNode → Option TableNode
  | [], _ => none
  | [name], nodes => TableNode.named? name nodes
  | name :: names, nodes => do
    let node ← TableNode.named? name nodes
    TableNode.reached? names node.children

namespace CodeTable

/-- All types in pre-order, each with the types below it. -/
def preorder (table : CodeTable) : List TableNode :=
  Tree.preorders table.nodes

/-- The type with a dotted path. -/
def find? (table : CodeTable) (path : String) : Option TableNode :=
  TableNode.reached? ((Text.fields '.' path.toList).map String.ofList) table.nodes

/-- The type of the root level with a name. -/
def rootCategory? (table : CodeTable) (name : String) : Option TableNode :=
  TableNode.named? name table.nodes

/-- The number of type bits that the deepest path takes. -/
def usedBits (table : CodeTable) : Nat :=
  table.typeBits - TableNode.leastOffsets table.root.offset table.nodes

end CodeTable

end PlugTaxonomy
