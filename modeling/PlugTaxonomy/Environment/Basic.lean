import PlugTaxonomy.Text.Blank

/-!
# The environment

Variables of the environment choose what is not given on the command line.

* `Environment` — the variables with their values;
* `referred?` — the value that a name in another value stands for;
* `schemaFile?`, `outputDirectory`, `formatName` — schema, directory and format of output;
* `logDirectives` — what is shown of the log.
-/

namespace PlugTaxonomy

/-- The variables that are set, with their values. -/
abbrev Environment := List (String × String)

namespace Environment

/-- The value of a variable. -/
def get? (environment : Environment) (name : String) : Option String :=
  environment.lookup name

/-- The value that a name refers to.  A name with an equals sign reaches into a value: if `A` is
`B=x`, then `A=B` refers to `x`. -/
def referred? (environment : Environment) (name : String) : Option String :=
  match name.toList.span (· ≠ '=') with
  | (_, []) => environment.get? name
  | (key, _ :: part) => do
    let value := (← environment.get? (String.ofList key)).toList
    let front := part ++ ['=']
    if front.isPrefixOf value then return String.ofList (value.drop front.length) else none

/-- The environment with a variable, unless that is set already. -/
def setNew (environment : Environment) (name value : String) : Environment :=
  match environment.get? name with
  | some _ => environment
  | none => environment ++ [(name, value)]

/-- The schema file that is named, if the name is not empty. -/
def schemaFile? (environment : Environment) : Option String :=
  (environment.get? "PLUGC_SCHEMA").filter (!·.isEmpty)

/-- The directory that output goes to. -/
def outputDirectory (environment : Environment) : String :=
  ((environment.get? "PLUGC_OUT_DIR").filter (!·.isEmpty)).getD "generated"

/-- The name of the output format.  A blank name counts as none. -/
def formatName (environment : Environment) : String :=
  ((environment.get? "PLUGC_FORMAT").filter fun name => !(Text.trim name.toList).isEmpty).getD
    "cpp"

/-- What is shown of the log. -/
def logDirectives (environment : Environment) : String :=
  (environment.get? "LOG_LEVEL").getD "info"

end Environment

end PlugTaxonomy
