import PlugTaxonomy.Artifacts
import PlugTaxonomy.Decision.Json

/-!
# Artifacts in JSON

Everything made of a schema as one object, with enough in it to answer all questions about
codes again.
-/

namespace PlugTaxonomy

/-- A constant.  The comment is left out where there is none. -/
def Constant.toJson (constant : Constant) : JsonValue :=
  .object <|
    [("name", .string constant.name), ("code", constant.code.toJson)] ++
    (constant.comment.toList.map fun comment => ("comment", .string comment)) ++
    [("depth", .nat constant.depth)]

def UsageTag.toJson (tag : UsageTag) : JsonValue :=
  .object [("tag", .string tag.tag), ("toggle", .boolean tag.toggle)]

/-- The rules of wiring. -/
def Compatibility.toJson (rules : Compatibility) : JsonValue :=
  .object [("category", rules.category.toJson),
    ("switch_categories", .array (rules.switchCategories.map Symbol.toJson)),
    ("encoder_category", (rules.encoderCategory.map Symbol.toJson).getD .null),
    ("descent", rules.descent.toJson .boolean)]

/-- All artifacts. -/
def Artifacts.toJson (artifacts : Artifacts) : JsonValue :=
  .object [("type_bits", .nat artifacts.typeBits),
    ("type_count", .nat artifacts.typeCount),
    ("used_bits", .nat artifacts.usedBits),
    ("enumeration", .array (artifacts.enumeration.map Constant.toJson)),
    ("usages", .array (artifacts.usages.map .string)),
    ("labels", artifacts.labels.toJson .stringOrNull),
    ("usage", artifacts.usage.toJson UsageTag.toJson),
    ("compatibility", artifacts.compatibility.toJson)]

end PlugTaxonomy
