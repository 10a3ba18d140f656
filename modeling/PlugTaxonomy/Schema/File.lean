import PlugTaxonomy.Artifacts
import PlugTaxonomy.Files.Disk
import PlugTaxonomy.Schema.Reader
import PlugTaxonomy.Schema.Reference

/-!
# Schema files

* `SchemaError` — a schema file that cannot be read, or that is no schema;
* `Schema.load` — the schema of a file, or the reference schema where none is named;
* `LoadError`, `Artifacts.load` — the artifacts of a file, or what is wrong with it.
-/

namespace PlugTaxonomy

/-- Why a file is not read as a schema. -/
inductive SchemaError where
  | unreadable (path : String) (cause : FileError)
  | unparsable (cause : JsonError)
  deriving DecidableEq, Repr

namespace SchemaError

def cause : SchemaError → String
  | unreadable _ cause => cause.text
  | unparsable cause => cause.message

def message : SchemaError → String
  | unreadable path cause => "could not read schema file " ++ path ++ ": " ++ cause.text
  | unparsable cause => "could not parse schema JSON: " ++ cause.message

end SchemaError

/-- Why there are no artifacts of a file. -/
inductive LoadError where
  | schema (error : SchemaError)
  | allocation (error : AllocationError)
  deriving DecidableEq, Repr

variable {m : Type → Type} [Monad m]

/-- What is reported when the reference schema is used. -/
def Reference.entry : LogEntry :=
  ⟨.debug, .schema, "Using built-in reference schema"⟩

/-- The schema of a file, or the reference schema where none is named, and what is reported. -/
def Schema.load (disk : Disk m) : Option String → m (Except SchemaError Schema × List LogEntry)
  | none => return (.ok Reference.schema, [Reference.entry])
  | some path => do
    let log : List LogEntry := [⟨.debug, .schema, "Loading schema from " ++ path⟩]
    match ← disk.readText path with
    | .error error => return (.error (.unreadable path error), log)
    | .ok text => return ((Schema.read text).mapError .unparsable, log)

/-- The artifacts of a schema file, or of the reference schema, and what is reported. -/
def Artifacts.load (disk : Disk m) (path : Option String) :
    m (Except LoadError Artifacts × List LogEntry) := do
  match ← Schema.load disk path with
  | (.error error, log) => return (.error (.schema error), log)
  | (.ok schema, log) =>
    return ((compile schema).mapError .allocation, log ++ compileLog schema)

end PlugTaxonomy
