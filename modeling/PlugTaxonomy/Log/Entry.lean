/-!
# Log entries

What the program reports besides its results: one text per event, with a severity and the
activity that it comes from.  Every activity states the entries it leaves as a list, in order;
which of them are shown is decided at the end.

* `Severity` — how much an entry matters;
* `LogSource` — the activities, and the names under which directives refer to them;
* `LogEntry` — one event.
-/

namespace PlugTaxonomy

/-- The severities, the most severe one first. -/
inductive Severity where
  | error
  | warn
  | info
  | debug
  | trace
  deriving DecidableEq, Repr

namespace Severity

/-- The place in the order of severities, from one on. -/
def rank : Severity → Nat
  | error => 1
  | warn => 2
  | info => 3
  | debug => 4
  | trace => 5

/-- The written form. -/
def text : Severity → String
  | error => "ERROR"
  | warn => "WARN"
  | info => "INFO"
  | debug => "DEBUG"
  | trace => "TRACE"

end Severity

/-- The activities that leave entries. -/
inductive LogSource where
  /-- The start of the program. -/
  | program
  | schema
  | allocation
  | compilation
  | compatibility
  | writer
  | generation
  | query
  deriving DecidableEq, Repr

namespace LogSource

/-- The name under which a directive refers to a source.  All names start with that of the
program. -/
def name : LogSource → String
  | program => "plugc"
  | schema => "plugc::schema"
  | allocation => "plugc::codes::allocator"
  | compilation => "plugc::compile"
  | compatibility => "plugc::compile::compat"
  | writer => "plugc::writer"
  | generation => "plugc::command::generate"
  | query => "plugc::command::query"

end LogSource

/-- One event of a log. -/
structure LogEntry where
  severity : Severity
  source : LogSource
  text : String
  deriving DecidableEq, Repr

namespace LogEntry

/-- What is written in front of an entry: its severity, filled up to the length of the longest
one, and its source. -/
def mark (entry : LogEntry) : String :=
  let severity := entry.severity.text
  "[" ++ severity ++ String.ofList (List.replicate (5 - severity.length) ' ') ++ " " ++
    entry.source.name ++ "]"

end LogEntry

end PlugTaxonomy
