import PlugTaxonomy.Artifacts.Json
import PlugTaxonomy.Cpp.Files
import PlugTaxonomy.Output.Format

/-!
# Output files

* `OutputFile` — the name and the contents of a generated file;
* `Artifacts.render` — the files of a format.

The enumeration of usages has one byte per usage, so C++ output is refused if there are more
usages than a byte tells apart.
-/

namespace PlugTaxonomy

/-- A generated file, its name taken within the output directory. -/
structure OutputFile where
  name : String
  contents : String
  deriving DecidableEq, Repr

/-- More usages than an enumeration can hold. -/
structure TooManyUsages where
  count : Nat
  deriving DecidableEq, Repr

/-- The number of usages that a byte tells apart. -/
def maxUsages : Nat := 256

def TooManyUsages.message (error : TooManyUsages) : String :=
  toString error.count ++ " usages do not fit into an enumeration of at most " ++
    toString maxUsages ++ " entries"

namespace Artifacts

/-- The C++ sources. -/
def cppFiles (artifacts : Artifacts) : Except TooManyUsages (List OutputFile) :=
  if maxUsages < artifacts.usages.length then .error ⟨artifacts.usages.length⟩
  else
    .ok [⟨"PlugType.generated.hpp", Cpp.plugTypeHeader artifacts.enumeration⟩,
      ⟨"Usage.generated.hpp", Cpp.usageHeader artifacts.usages⟩,
      ⟨"functions.generated.cpp", Cpp.functionsSource artifacts⟩]

/-- The JSON file. -/
def jsonFiles (artifacts : Artifacts) : List OutputFile :=
  [⟨"plug_types.json", artifacts.toJson.pretty ++ "\n"⟩]

/-- The files of a format. -/
def render (artifacts : Artifacts) : Format → Except TooManyUsages (List OutputFile)
  | .cpp => artifacts.cppFiles
  | .json => .ok artifacts.jsonFiles

end Artifacts

end PlugTaxonomy
