import PlugTaxonomy.Text.Escape

/-!
# Arguments of a command line

The first argument is the command unless it starts with a dash.  Options are taken out of the
others by name, wherever they stand; what is left are free arguments.

* `ArgumentError` — arguments that make no command;
* `takeOption`, `takeFlag`, `takeFree` — take an option with its value, an option without one,
  and a free argument;
* `Command`, `Command.read` — the commands, and the one that arguments denote.
-/

namespace PlugTaxonomy

/-- Why arguments make no command. -/
inductive ArgumentError where
  | unknownCommand
  | missingValue (option : String)
  | missingArgument
  | unexpected (arguments : List String)
  deriving DecidableEq, Repr

def ArgumentError.message : ArgumentError → String
  | unknownCommand =>
    "Subcommand must be one of 'generate', 'check', 'codes', 'label', 'usage', 'compatible'"
  | missingValue option => "the '" ++ option ++ "' option doesn't have an associated value"
  | missingArgument => "free-standing argument is missing"
  | unexpected arguments => "Unexpected arguments: " ++ Text.quotedList arguments

/-- What is asked of the program. -/
inductive Command where
  | generate (schema directory format : Option String)
  | check (schema : Option String)
  | codes (schema : Option String)
  | label (schema : Option String) (code : String)
  | usage (schema : Option String) (isCommand : Bool) (code : String)
  | compatible (schema : Option String) (dst src : String)
  deriving DecidableEq, Repr

namespace CommandLine

/-! ### Taking arguments -/

/-- Takes the first occurrence of an option with the argument behind it. -/
def takeOption (option : String) :
    List String → Except ArgumentError (Option String × List String)
  | [] => .ok (none, [])
  | argument :: arguments =>
    if argument = option then
      match arguments with
      | [] => .error (.missingValue option)
      | value :: arguments => .ok (some value, arguments)
    else do
      let (value, arguments) ← takeOption option arguments
      return (value, argument :: arguments)

/-- Takes the first occurrence of an option without a value. -/
def takeFlag (option : String) (arguments : List String) : Bool × List String :=
  (decide (option ∈ arguments), arguments.erase option)

/-- Takes the first argument that is left. -/
def takeFree : List String → Except ArgumentError (String × List String)
  | [] => .error .missingArgument
  | argument :: arguments => .ok (argument, arguments)

/-- A command, unless arguments are left. -/
def finish (command : Command) : List String → Except ArgumentError Command
  | [] => .ok command
  | arguments => .error (.unexpected arguments)

/-- Takes the option that names a schema. -/
def takeSchema : List String → Except ArgumentError (Option String × List String) :=
  takeOption "--schema"

end CommandLine

open CommandLine

namespace Command

/-! ### Commands -/

/-- The command of a name and the arguments behind it. -/
def ofName (name : String) (arguments : List String) : Except ArgumentError Command := do
  match name with
  | "generate" =>
    let (schema, arguments) ← takeSchema arguments
    let (directory, arguments) ← takeOption "--out" arguments
    let (format, arguments) ← takeOption "--format" arguments
    finish (generate schema directory format) arguments
  | "check" =>
    let (schema, arguments) ← takeSchema arguments
    finish (check schema) arguments
  | "codes" =>
    let (schema, arguments) ← takeSchema arguments
    finish (codes schema) arguments
  | "label" =>
    let (schema, arguments) ← takeSchema arguments
    let (code, arguments) ← takeFree arguments
    finish (label schema code) arguments
  | "usage" =>
    let (schema, arguments) ← takeSchema arguments
    let (isCommand, arguments) := takeFlag "--command" arguments
    let (code, arguments) ← takeFree arguments
    finish (usage schema isCommand code) arguments
  | "compatible" =>
    let (schema, arguments) ← takeSchema arguments
    let (dst, arguments) ← takeFree arguments
    let (src, arguments) ← takeFree arguments
    finish (compatible schema dst src) arguments
  | _ => .error .unknownCommand

/-- The command that arguments denote. -/
def read : List String → Except ArgumentError Command
  | [] => .error .unknownCommand
  | name :: arguments =>
    if name.toList.head? = some '-' then .error .unknownCommand else ofName name arguments

end Command

end PlugTaxonomy
