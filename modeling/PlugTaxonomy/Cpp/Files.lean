import PlugTaxonomy.Code.Numeral
import PlugTaxonomy.Cpp.Functions

/-!
# Generated sources

* `plugTypeHeader` — the enumeration of codes, constants indented by their depth;
* `usageHeader` — the enumeration of usages;
* `functionsSource` — the generated functions.
-/

namespace PlugTaxonomy.Cpp

/-- The first line of all generated sources. -/
def notice : String := "// generated by plugc, do not edit"

/-- The lines of a constant: its comment, if there is one, and its value. -/
def constantLines (constant : Constant) : List String :=
  let margin := indent (constant.depth + 1)
  (constant.comment.toList.map fun comment => margin ++ "// " ++ comment) ++
    [margin ++ constant.name ++ " = " ++ constant.code.text ++ ","]

/-- The enumeration of codes. -/
def plugTypeHeader (enumeration : List Constant) : String :=
  linesText <|
    [notice, "#pragma once", "", "#include <cstdint>", "#include <enum.hpp>", "", "",
     "enum class " ++ enumName ++ " : uint16_t \x7b"] ++
    enumeration.flatMap constantLines ++
    ["\x7d;", "FLAGS_ENUM(" ++ enumName ++ ")"]

/-- The enumeration of usages. -/
def usageHeader (usages : List String) : String :=
  linesText <|
    [notice, "#pragma once", "", "#include <cstdint>", "", "",
     "enum class " ++ usageName ++ " : uint8_t \x7b"] ++
    (usages.map fun usage => indent 1 ++ usage ++ ",") ++ ["\x7d;"]

/-- The functions over codes. -/
def functionsSource (artifacts : Artifacts) : String :=
  linesText <|
    [notice, ""] ++ (labelFunction artifacts.labels).lines ++ [""] ++
    (usageFunction artifacts.usage).lines ++ [""] ++
    (compatibilityFunction artifacts.compatibility).lines

end PlugTaxonomy.Cpp
