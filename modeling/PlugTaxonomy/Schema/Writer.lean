import PlugTaxonomy.Json.Writer
import PlugTaxonomy.Schema.Basic

/-!
# Writing schemas

A schema is written as one JSON object.  A type's usage, description and level are left out
where there is none.
-/

namespace PlugTaxonomy

/-- The members that a type has of its own. -/
def TypeInfo.members (info : TypeInfo) : List (String × JsonValue) :=
  [("name", .string info.name), ("flags", .string info.flags.text), ("label", .string info.label)]
    ++ (info.usage.toList.map fun usage => ("usage", .string usage))
    ++ if info.description.isEmpty then [] else [("description", .string info.description)]

mutual

/-- A type with all types below it. -/
def TypeNode.toJson : TypeNode → JsonValue
  | .leaf info => .object (TypeInfo.members info)
  | .branch info bitCount children =>
    .object (TypeInfo.members info ++
      [("children", .object [("bit_count", .nat bitCount.toNat),
        ("types", .array (TypeNode.toJsons children))])])

/-- The types of a list. -/
def TypeNode.toJsons : List TypeNode → List JsonValue
  | [] => []
  | type :: types => type.toJson :: TypeNode.toJsons types

end

/-- A schema. -/
def Schema.toJson (schema : Schema) : JsonValue :=
  .object [("type_bits", .nat schema.typeBits.toNat), ("bit_count", .nat schema.bitCount.toNat),
    ("types", .array (TypeNode.toJsons schema.types))]

/-- The text of a schema. -/
def Schema.text (schema : Schema) : String :=
  schema.toJson.compact

end PlugTaxonomy
