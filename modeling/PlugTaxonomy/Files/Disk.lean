import PlugTaxonomy.Files.Volume

/-!
# Disks

Activities on files are written against an interface of single operations, so that they run on
the disk of a computer as well as on a volume in memory, or on one whose operations fail.

* `Disk m` — the operations, each with an outcome in `m`;
* `Disk.createAll` — creates a directory and those it lies in;
* `Disk.readText` — the text of a file;
* `Volume.disk` — the operations on a volume.
-/

namespace PlugTaxonomy

/-- The kinds of entries. -/
inductive FileKind where
  | file
  | directory
  | link
  deriving DecidableEq, Repr

/-- The operations on files. -/
structure Disk (m : Type → Type) where
  /-- The path of the current directory. -/
  current : m String
  /-- The kind of what a path leads to, links followed. -/
  status : String → m (Except FileError FileKind)
  /-- The kind of what a path names, a link at its end not followed. -/
  linkStatus : String → m (Except FileError FileKind)
  readFile : String → m (Except FileError ByteArray)
  writeFile : String → ByteArray → m (Except FileError Unit)
  createDirectory : String → m (Except FileError Unit)
  rename : String → String → m (Except FileError Unit)
  removeFile : String → m (Except FileError Unit)

namespace Disk

variable {m : Type → Type} [Monad m]

/-- Whether a path leads to a directory. -/
def isDirectory (disk : Disk m) (path : String) : m Bool := do
  match ← disk.status path with
  | .ok .directory => return true
  | _ => return false

/-- Whether a path names a regular file, links not followed. -/
def isRegularFile (disk : Disk m) (path : String) : m Bool := do
  match ← disk.linkStatus path with
  | .ok .file => return true
  | _ => return false

/-- Whether a failure to create a directory does not matter, since it is there already. -/
def isThere (disk : Disk m) (error : FileError) (path : String) : m Bool :=
  if error = .exists then disk.isDirectory path else return false

/-- Tries to create the first of some directories that can be, each one lying in the next one.
Gives back those that have to be created still, the outermost one first. -/
def createFirst (disk : Disk m) (missing : List String) :
    List String → m (Except FileError (List String))
  | [] => return .ok missing
  | path :: paths => do
    match ← disk.createDirectory path with
    | .ok () => return .ok missing
    | .error .notFound => disk.createFirst (path :: missing) paths
    | .error error =>
      if ← disk.isThere error path then return .ok missing else return .error error

/-- Creates directories one after the other. -/
def createEach (disk : Disk m) : List String → m (Except FileError Unit)
  | [] => return .ok ()
  | path :: paths => do
    match ← disk.createDirectory path with
    | .ok () => disk.createEach paths
    | .error error =>
      if ← disk.isThere error path then disk.createEach paths else return .error error

/-- Creates a directory and those it lies in, unless they are there already. -/
def createAll (disk : Disk m) (path : String) : m (Except FileError Unit) := do
  match ← disk.createFirst [] (Path.ancestors path) with
  | .error error => return .error error
  | .ok missing => disk.createEach missing

/-- The text of a file. -/
def readText (disk : Disk m) (path : String) : m (Except FileError String) := do
  match ← disk.readFile path with
  | .error error => return .error error
  | .ok contents =>
    match String.fromUTF8? contents with
    | some text => return .ok text
    | none => return .error .notText

end Disk

/-! ### Volumes -/

namespace Volume

/-- The kind of an entry. -/
def kind : Entry → FileKind
  | .file _ => .file
  | .directory => .directory
  | .link _ => .link

/-- An operation that looks at a volume. -/
def look {α : Type} (operation : Volume → Except FileError α) :
    StateM Volume (Except FileError α) :=
  fun volume => (operation volume, volume)

/-- An operation that changes a volume unless it fails. -/
def change (operation : Volume → Except FileError Volume) :
    StateM Volume (Except FileError Unit) :=
  fun volume =>
    match operation volume with
    | .ok changed => (.ok (), changed)
    | .error error => (.error error, volume)

/-- The operations on a volume. -/
def disk : Disk (StateM Volume) where
  current := fun volume => ("/" ++ String.intercalate "/" volume.current, volume)
  status path := look fun volume => (volume.status path).map kind
  linkStatus path := look fun volume => (volume.linkStatus path).map kind
  readFile path := look fun volume => volume.readFile path
  writeFile path contents := change fun volume => volume.writeFile path contents
  createDirectory path := change fun volume => volume.createDirectory path
  rename source target := change fun volume => volume.rename source target
  removeFile path := change fun volume => volume.removeFile path

end Volume

end PlugTaxonomy
