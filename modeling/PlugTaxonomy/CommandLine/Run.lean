import PlugTaxonomy.Code.Numeral
import PlugTaxonomy.CommandLine.Arguments
import PlugTaxonomy.Environment.File
import PlugTaxonomy.Files.Transaction
import PlugTaxonomy.Log.Filter
import PlugTaxonomy.Schema.File

/-!
# Commands at work

* `Failure` — a message with its cause;
* `Report` — the lines that a command writes, its log, and its failure if it has one;
* `Command.perform` — a command on a disk;
* `Outcome`, `run` — a whole command line: the environment is completed from a file, the
  arguments are read, and the log is filtered.
-/

namespace PlugTaxonomy

/-- Why a command fails. -/
structure Failure where
  message : String
  cause : Option String
  deriving DecidableEq, Repr

namespace Failure

def ofLoad : LoadError → Failure
  | .schema error => ⟨error.message, some error.cause⟩
  | .allocation error => ⟨error.message, none⟩

def ofWrite (error : WriteError) : Failure :=
  ⟨error.message, some error.cause.text⟩

/-- A text of several lines with blanks in front of all lines but the first. -/
def continued (text : String) : String :=
  String.ofList (text.toList.flatMap fun c => if c = '\n' then "\n    ".toList else [c])

/-- The written form of a failure. -/
def text (failure : Failure) : String :=
  "Error: " ++ failure.message ++
    match failure.cause with
    | none => ""
    | some cause => "\n\nCaused by:\n    " ++ continued cause

end Failure

/-- The written form of a log entry. -/
def LogEntry.line (entry : LogEntry) : String :=
  entry.mark ++ " " ++ Failure.continued entry.text

/-- What a command does apart from changing files. -/
structure Report where
  log : List LogEntry
  output : List String
  failure : Option Failure

namespace Report

/-- A command that fails. -/
def failed (log : List LogEntry) (failure : Failure) : Report :=
  ⟨log, [], some failure⟩

/-- A command that writes lines. -/
def written (log : List LogEntry) (output : List String) : Report :=
  ⟨log, output, none⟩

end Report

/-! ### Answers about artifacts -/

namespace Artifacts

/-- The code that an argument denotes: the name of a constant, or a number. -/
def resolve (artifacts : Artifacts) (argument : String) : Except Failure Code :=
  match artifacts.lookup? argument with
  | some code => .ok code
  | none =>
    (Code.read argument).mapError fun error =>
      ⟨"'" ++ argument ++ "' is neither a plug type name nor a code: " ++ error.message, none⟩

/-- The sizes of a taxonomy. -/
def summary (artifacts : Artifacts) : String :=
  toString artifacts.typeCount ++ " types, " ++ toString artifacts.usedBits ++ " of " ++
    toString artifacts.typeBits ++ " type bits used, " ++ toString artifacts.usages.length ++
    " usages"

/-- A line for each constant. -/
def codeLines (artifacts : Artifacts) : List String :=
  artifacts.enumeration.map fun constant => constant.name ++ " = " ++ constant.code.text

/-- The label of the code that an argument denotes. -/
def labelLine (artifacts : Artifacts) (argument : String) : Except Failure String := do
  let code ← artifacts.resolve argument
  match artifacts.label? code with
  | some label => return label
  | none => throw ⟨"No plug type matches " ++ code.text, none⟩

/-- The usage of the code that an argument denotes.  It counts as a command if that is asked
for, or if the code has the command flag. -/
def usageLine (artifacts : Artifacts) (isCommand : Bool) (argument : String) :
    Except Failure String := do
  let code ← artifacts.resolve argument
  return artifacts.usageOf code (isCommand || code.isCommand)

/-- The line of a verdict. -/
def verdictLine (verdict : Verdict) : String :=
  (if verdict.compatible then "compatible (" else "incompatible (") ++ verdict.rule.text ++ ")"

/-- What is reported of a verdict. -/
def verdictEntry (dst src : Code) (verdict : Verdict) : LogEntry :=
  ⟨.debug, .query, dst.text ++ " <- " ++ src.text ++ ": Verdict \x7b compatible: " ++
    (if verdict.compatible then "true" else "false") ++ ", rule: " ++ verdict.rule.title ++
    " \x7d"⟩

/-- The verdict on the codes that two arguments denote. -/
def verdictReport (artifacts : Artifacts) (dst src : String) : Report :=
  let found : Except Failure (Code × Code) := do
    return (← artifacts.resolve dst, ← artifacts.resolve src)
  match found with
  | .error failure => .failed [] failure
  | .ok (dst, src) =>
    let verdict := artifacts.check dst src
    .written [verdictEntry dst src verdict] [verdictLine verdict]

/-- The report of a single line. -/
def lineReport : Except Failure String → Report
  | .error failure => .failed [] failure
  | .ok line => .written [] [line]

end Artifacts

/-! ### Commands -/

namespace Command

variable {m : Type → Type} [Monad m]

/-- A command about the artifacts of a schema. -/
def inspect (disk : Disk m) (environment : Environment) (schema : Option String)
    (report : Artifacts → Report) : m Report := do
  match ← Artifacts.load disk (schema <|> environment.schemaFile?) with
  | (.error error, log) => return .failed log (.ofLoad error)
  | (.ok artifacts, log) =>
    let answer := report artifacts
    return { answer with log := log ++ answer.log }

/-- Generates the files of a format.  The format is looked at first, and everything is rendered
before a file is written. -/
def generateFiles (disk : Disk m) (environment : Environment)
    (schema directory format : Option String) : m Report := do
  match Format.read (format.getD environment.formatName) with
  | .error error => return .failed [] ⟨error.message, none⟩
  | .ok format =>
    let directory := directory.getD environment.outputDirectory
    match ← Artifacts.load disk (schema <|> environment.schemaFile?) with
    | (.error error, log) => return .failed log (.ofLoad error)
    | (.ok artifacts, log) =>
      match artifacts.render format with
      | .error error => return .failed log ⟨error.message, none⟩
      | .ok files =>
        match ← Transaction.writeAll disk directory files with
        | (.error error, more) => return .failed (log ++ more) (.ofWrite error)
        | (.ok paths, more) =>
          let entry : LogEntry :=
            ⟨.info, .generation, "Generated " ++ toString paths.length ++ " " ++ format.name ++
              " files for " ++ toString artifacts.typeCount ++ " types in " ++ directory⟩
          return .written (log ++ more ++ [entry]) paths

/-- A command on a disk. -/
def perform (disk : Disk m) (environment : Environment) : Command → m Report
  | generate schema directory format => generateFiles disk environment schema directory format
  | check schema =>
    inspect disk environment schema fun artifacts => .written [] [artifacts.summary]
  | codes schema =>
    inspect disk environment schema fun artifacts => .written [] artifacts.codeLines
  | label schema code =>
    inspect disk environment schema fun artifacts =>
      Artifacts.lineReport (artifacts.labelLine code)
  | usage schema isCommand code =>
    inspect disk environment schema fun artifacts =>
      Artifacts.lineReport (artifacts.usageLine isCommand code)
  | compatible schema dst src =>
    inspect disk environment schema fun artifacts => artifacts.verdictReport dst src

end Command

/-! ### Command lines -/

/-- What comes of a command line apart from changed files. -/
structure Outcome where
  /-- Warnings about the log directives. -/
  warnings : List String
  /-- What is shown of the log. -/
  log : List LogEntry
  output : List String
  failure : Option Failure

namespace Outcome

/-- The status that the program ends with. -/
def status (outcome : Outcome) : Nat :=
  if outcome.failure.isSome then 1 else 0

/-- What is written as output. -/
def outputText (outcome : Outcome) : String :=
  String.join (outcome.output.map (· ++ "\n"))

/-- What is written beside the output. -/
def errorText (outcome : Outcome) : String :=
  let lines := outcome.warnings ++ outcome.log.map LogEntry.line ++
    outcome.failure.toList.map Failure.text
  String.join (lines.map (· ++ "\n"))

end Outcome

variable {m : Type → Type} [Monad m]

/-- A command line in an environment. -/
def run (disk : Disk m) (environment : Environment) (arguments : List String) : m Outcome := do
  let (environment, file) ← EnvironmentFile.load disk environment
  let (filter, warnings) := LogFilter.read environment.logDirectives
  let loaded : List LogEntry := file.toList.map fun path => ⟨.debug, .program, "Loaded " ++ path⟩
  let report ← match Command.read arguments with
    | .error error => pure (Report.failed [] ⟨error.message, none⟩)
    | .ok command => command.perform disk environment
  return { warnings
           log := (loaded ++ report.log).filter filter.shows
           output := report.output
           failure := report.failure }

end PlugTaxonomy
