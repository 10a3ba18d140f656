import PlugTaxonomy.Allocation.Site
import PlugTaxonomy.Compatibility
import PlugTaxonomy.Enumeration
import PlugTaxonomy.Label
import PlugTaxonomy.Usage

/-!
# Everything made of one schema

* `Artifacts` — sizes, enumeration, usages and the three decisions of a taxonomy;
* `Artifacts.ofTable`, `compile` — the artifacts of a code table and of a schema;
* `label?`, `usageOf`, `check`, `lookup?` — the answers about single codes.
-/

namespace PlugTaxonomy

/-- What is generated from a schema. -/
structure Artifacts where
  typeBits : Nat
  /-- The number of types. -/
  typeCount : Nat
  /-- The number of type bits that the deepest path takes. -/
  usedBits : Nat
  enumeration : List Constant
  usages : List String
  labels : Decision (Option String)
  usage : Decision UsageTag
  compatibility : Compatibility

namespace Artifacts

/-- The artifacts of a code table. -/
def ofTable (table : CodeTable) : Artifacts :=
  { typeBits := table.typeBits
    typeCount := table.preorder.length
    usedBits := table.usedBits
    enumeration := table.enumeration
    usages := table.usages
    labels := table.labels
    usage := table.usage
    compatibility := table.compatibility }

/-- The label of the most specific type that a code lies in. -/
def label? (artifacts : Artifacts) (code : Code) : Option String :=
  artifacts.labels.evaluate (.ofType code)

/-- The usage of a code as a value or as a command. -/
def usageOf (artifacts : Artifacts) (code : Code) (isCommand : Bool) : String :=
  (artifacts.usage.evaluate (.ofType code)).resolve isCommand

/-- The verdict on a consumer and a producer. -/
def check (artifacts : Artifacts) (dst src : Code) : Verdict :=
  artifacts.compatibility.check dst src

/-- The code of the constant with a name. -/
def lookup? (artifacts : Artifacts) (name : String) : Option Code :=
  (artifacts.enumeration.find? fun constant => constant.name = name).map (·.code)

/-- What is reported when artifacts are made. -/
def log (artifacts : Artifacts) : List LogEntry :=
  artifacts.compatibility.log ++
    [⟨.debug, .compilation, "Compiled " ++ toString artifacts.enumeration.length ++
      " constants and " ++ toString artifacts.usages.length ++ " usages"⟩]

end Artifacts

/-- The artifacts of a schema, or the violation that keeps it from being allocated. -/
def compile (schema : Schema) : Except AllocationError Artifacts := do
  let table ← allocate schema
  return .ofTable table

/-- What is reported when a schema is compiled. -/
def compileLog (schema : Schema) : List LogEntry :=
  schema.allocationLog ++
    match compile schema with
    | .error _ => []
    | .ok artifacts => artifacts.log

end PlugTaxonomy
