import PlugTaxonomy.CommandLine.Run

/-!
# The program

Runs a command line on the disk of the computer.

* `Computer.disk` — the operations of the system;
* `Computer.environment` — the variables that are set;
* `main` — the program.
-/

namespace PlugTaxonomy.Computer

/-- The number that the system gives for a failure. -/
def number : IO.Error → UInt32
  | .alreadyExists _ number _ => number
  | .otherError number _ => number
  | .resourceBusy number _ => number
  | .unsatisfiedConstraints number _ => number
  | .noFileOrDirectory _ number _ => number
  | .invalidArgument _ number _ => number
  | .permissionDenied _ number _ => number
  | .resourceExhausted _ number _ => number
  | .inappropriateType _ number _ => number
  | .noSuchThing _ number _ => number
  | _ => 0

/-- The reason of a failure. -/
def reason (error : IO.Error) : FileError :=
  match number error with
  | 2 => .notFound
  | 16 => .busy
  | 17 => .exists
  | 20 => .notDirectory
  | 21 => .isDirectory
  | 22 => .invalid
  | 36 => .nameTooLong
  | 39 => .notEmpty
  | 40 => .tooManyLinks
  | _ => .other (toString error)

/-- An operation on a path, with its failure as an outcome. -/
def attempt {α : Type} (path : String) (operation : IO α) : IO (Except FileError α) := do
  if '\x00' ∈ path.toList then return .error .nulInPath
  if path.isEmpty then return .error .notFound
  match ← operation.toBaseIO with
  | .ok value => return .ok value
  | .error error => return .error (reason error)

/-- The kind of an entry. -/
def kind (metadata : IO.FS.Metadata) : FileKind :=
  match metadata.type with
  | .dir => .directory
  | .symlink => .link
  | _ => .file

/-- The operations of the system. -/
def disk : Disk IO where
  current := do return (← IO.currentDir).toString
  status path := attempt path do return kind (← ((← IO.currentDir) / path).metadata)
  linkStatus path := attempt path do return kind (← ((← IO.currentDir) / path).symlinkMetadata)
  readFile path := attempt path do IO.FS.readBinFile path
  writeFile path contents := attempt path do IO.FS.writeBinFile path contents
  createDirectory path := attempt path do IO.FS.createDir path
  rename source target := attempt source do IO.FS.rename source target
  removeFile path := attempt path do IO.FS.removeFile path

/-- The variable of an assignment. -/
def variableOf (assignment : List UInt8) : Option (String × String) := do
  let text ← String.fromUTF8? ⟨assignment.toArray⟩
  let name := text.toList.takeWhile (· ≠ '=')
  return (String.ofList name, String.ofList (text.toList.drop (name.length + 1)))

/-- The variables that are set. -/
def environment : IO Environment := do
  let contents ← IO.FS.readBinFile "/proc/self/environ"
  let assignments := (Text.fields 0 contents.data.toList).filter (!·.isEmpty)
  return assignments.filterMap variableOf

end PlugTaxonomy.Computer

/-- Runs the arguments of the program, and ends with the status of their outcome. -/
def main (arguments : List String) : IO UInt32 := do
  let environment ← PlugTaxonomy.Computer.environment
  let outcome ← PlugTaxonomy.run PlugTaxonomy.Computer.disk environment arguments
  (← IO.getStderr).putStr outcome.errorText
  (← IO.getStdout).putStr outcome.outputText
  return UInt32.ofNat outcome.status
