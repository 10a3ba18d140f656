import PlugTaxonomy.Json.Writer
import PlugTaxonomy.Table.Basic

/-!
# Code tables in JSON

The complete table: each level with its place in the code word, each type with its names, code
and mask, and the level below it or null.
-/

namespace PlugTaxonomy

/-- A code as a number. -/
def Code.toJson (code : Code) : JsonValue :=
  .nat code.toNat

/-- The members that an allocated type has of its own. -/
def Slot.members (slot : Slot) : List (String × JsonValue) :=
  [("name", .string slot.info.name),
   ("qualified_name", .string slot.qualifiedName),
   ("path", .string slot.path),
   ("index", .nat slot.index),
   ("code", slot.code.toJson),
   ("category_mask", slot.categoryMask.toJson),
   ("flags", .string slot.info.flags.text),
   ("label", .string slot.info.label),
   ("usage", .stringOrNull slot.info.usage),
   ("description", .string slot.info.description)]

/-- A level with its types. -/
def Layout.toJson (layout : Layout) (nodes : List JsonValue) : JsonValue :=
  .object [("prefix", .string layout.namePrefix), ("offset", .nat layout.offset),
    ("bit_count", .nat layout.bitCount), ("mask", layout.mask.toJson), ("nodes", .array nodes)]

mutual

/-- An allocated type with all types below it. -/
def TableNode.toJson : TableNode → JsonValue
  | .leaf slot => .object (slot.members ++ [("children", .null)])
  | .branch slot layout children =>
    .object (slot.members ++ [("children", layout.toJson (TableNode.toJsons children))])

/-- The allocated types of a list. -/
def TableNode.toJsons : List TableNode → List JsonValue
  | [] => []
  | node :: nodes => node.toJson :: TableNode.toJsons nodes

end

/-- A code table. -/
def CodeTable.toJson (table : CodeTable) : JsonValue :=
  .object [("type_bits", .nat table.typeBits),
    ("root", table.root.toJson (TableNode.toJsons table.nodes))]

end PlugTaxonomy
