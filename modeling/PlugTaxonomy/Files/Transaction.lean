import PlugTaxonomy.Files.Disk
import PlugTaxonomy.Log.Entry
import PlugTaxonomy.Output.Basic

/-!
# All-or-nothing output

Files are written into a directory all together or not at all.

* Every file is first written to a hidden temporary file beside its target (`stage`).  If one
  cannot be written, those written before it are removed (`discard`).
* Only then the temporary files are moved to their targets (`commit`).  A regular file that is
  replaced becomes a hidden backup first.  If a move fails, what is still temporary is removed
  and the files moved already are taken back, the last one first (`rollBack`).
* In the end the backups are removed (`settle`).
* `writeAll` — all of this, with the paths written or the error, and a log.
-/

namespace PlugTaxonomy

/-- The step at which output failed, the path it was about, and the reason. -/
inductive WriteError where
  | createDirectory (path : String) (cause : FileError)
  | write (path : String) (cause : FileError)
  | rename (path : String) (cause : FileError)
  deriving DecidableEq, Repr

namespace WriteError

def cause : WriteError → FileError
  | createDirectory _ cause => cause
  | write _ cause => cause
  | rename _ cause => cause

def path : WriteError → String
  | createDirectory path _ => path
  | write path _ => path
  | rename path _ => path

def message : WriteError → String
  | createDirectory path cause =>
    "could not create output directory " ++ path ++ ": " ++ cause.text
  | write path cause => "could not write " ++ path ++ ": " ++ cause.text
  | rename path cause => "could not move " ++ path ++ " into place: " ++ cause.text

end WriteError

/-- The paths of a file that is being written. -/
structure StagedFile where
  temporary : String
  backup : String
  target : String
  deriving DecidableEq, Repr

namespace Transaction

variable {m : Type → Type} [Monad m]

/-- The path of a hidden file beside the target of a name. -/
def hidden (directory name extension : String) : String :=
  Path.join directory ("." ++ name ++ "." ++ extension)

/-- The paths of a file in a directory. -/
def staged (directory name : String) : StagedFile :=
  { temporary := hidden directory name "tmp"
    backup := hidden directory name "bak"
    target := Path.join directory name }

/-- What is reported of a path if an operation on it failed. -/
def warning (trouble path : String) : Except FileError Unit → List LogEntry
  | .ok () => []
  | .error error => [⟨.warn, .writer, trouble ++ " " ++ path ++ ": " ++ error.text⟩]

def notRemoved : String := "Could not remove"
def notRestored : String := "Could not restore"

/-! ### Staging -/

/-- Removes temporary files. -/
def discard (disk : Disk m) : List StagedFile → m (List LogEntry)
  | [] => return []
  | file :: files => do
    let log := warning notRemoved file.temporary (← disk.removeFile file.temporary)
    return log ++ (← discard disk files)

/-- Writes temporary files behind those that are staged already. -/
def stage (disk : Disk m) (directory : String) (done : List StagedFile) :
    List OutputFile → m (Except WriteError (List StagedFile) × List LogEntry)
  | [] => return (.ok done, [])
  | file :: files => do
    let paths := staged directory file.name
    match ← disk.writeFile paths.temporary file.contents.toUTF8 with
    | .error error =>
      let log ← discard disk done
      return (.error (.write paths.temporary error), log)
    | .ok () => stage disk directory (done ++ [paths]) files

/-! ### Commitment -/

/-- A file in its place, and whether it has a backup of the file it replaced. -/
abbrev Committed := StagedFile × Bool

/-- Moves a temporary file to its target.  Gives back whether there is a backup. -/
def replace (disk : Disk m) (file : StagedFile) : m (Except FileError Bool × List LogEntry) := do
  if ← disk.isRegularFile file.target then
    match ← disk.rename file.target file.backup with
    | .error error => return (.error error, [])
    | .ok () =>
      match ← disk.rename file.temporary file.target with
      | .ok () => return (.ok true, [])
      | .error error =>
        let restored ← disk.rename file.backup file.target
        return (.error error, warning notRestored file.target restored)
  else
    match ← disk.rename file.temporary file.target with
    | .ok () => return (.ok false, [])
    | .error error => return (.error error, [])

/-- Takes back files in their places: replaced files return, others are removed. -/
def rollBack (disk : Disk m) : List Committed → m (List LogEntry)
  | [] => return []
  | (file, hasBackup) :: files => do
    let restored ←
      if hasBackup then disk.rename file.backup file.target else disk.removeFile file.target
    let log := warning notRestored file.target restored
    return log ++ (← rollBack disk files)

/-- Moves temporary files to their targets, after those in their places already, of which the
last one comes first. -/
def commit (disk : Disk m) (done : List Committed) :
    List StagedFile → m (Except WriteError (List Committed) × List LogEntry)
  | [] => return (.ok done.reverse, [])
  | file :: files => do
    match ← replace disk file with
    | (.ok hasBackup, log) =>
      let (result, more) ← commit disk ((file, hasBackup) :: done) files
      return (result, log ++ more)
    | (.error error, log) =>
      let discarded ← discard disk (file :: files)
      let restored ← rollBack disk done
      return (.error (.rename file.target error), log ++ discarded ++ restored)

/-- Removes the backups of files in their places. -/
def settle (disk : Disk m) : List Committed → m (List LogEntry)
  | [] => return []
  | (file, hasBackup) :: files => do
    let removed ← if hasBackup then disk.removeFile file.backup else pure (.ok ())
    let log := warning notRemoved file.backup removed
    return log ++ ⟨.debug, .writer, "Wrote " ++ file.target⟩ :: (← settle disk files)

/-! ### The whole -/

/-- Writes files into a directory, all of them or none.  Gives back their paths. -/
def writeAll (disk : Disk m) (directory : String) (files : List OutputFile) :
    m (Except WriteError (List String) × List LogEntry) := do
  match ← disk.createAll directory with
  | .error error => return (.error (.createDirectory directory error), [])
  | .ok () =>
    match ← stage disk directory [] files with
    | (.error error, log) => return (.error error, log)
    | (.ok staged, log) =>
      match ← commit disk [] staged with
      | (.error error, more) => return (.error error, log ++ more)
      | (.ok committed, more) =>
        let settled ← settle disk committed
        return (.ok (staged.map (·.target)), log ++ more ++ settled)

end Transaction

end PlugTaxonomy
