import PlugTaxonomy.Files.Error
import PlugTaxonomy.Files.Path

/-!
# Volumes

A volume is a tree of directories, regular files and symbolic links.  Its entries are found at
locations, the names from the root down.

* `Entry`, `Location`, `Volume` — what is where;
* `walk` — the location that a path leads to, links followed;
* `destination` — the directory that a path leads to, and the last name of the path;
* `readFile`, `writeFile`, `createDirectory`, `rename`, `removeFile` — the operations on paths,
  each of which changes nothing if it fails.
-/

namespace PlugTaxonomy

/-- What is found at a location. -/
inductive Entry where
  | file (contents : ByteArray)
  | directory
  /-- A symbolic link with its target. -/
  | link (target : String)

/-- The names from the root down. -/
abbrev Location := List String

/-- A tree of files and the location of the current directory. -/
structure Volume where
  entries : List (Location × Entry)
  current : Location

namespace Volume

/-! ### Entries -/

/-- The entry at a location.  The root is a directory. -/
def entry? (volume : Volume) (location : Location) : Option Entry :=
  if location.isEmpty then some .directory else volume.entries.lookup location

/-- Whether there is a directory at a location. -/
def isDirectoryAt (volume : Volume) (location : Location) : Bool :=
  match volume.entry? location with
  | some .directory => true
  | _ => false

/-- Whether a location lies below another. -/
def isBelow (location above : Location) : Bool :=
  above.length < location.length && above.isPrefixOf location

/-- Whether there is anything below a location. -/
def isOccupied (volume : Volume) (location : Location) : Bool :=
  volume.entries.any fun found => isBelow found.1 location

/-- The volume without the entry at a location. -/
def erase (volume : Volume) (location : Location) : Volume :=
  { volume with entries := volume.entries.filter fun found => found.1 ≠ location }

/-- The volume with an entry at a location. -/
def put (volume : Volume) (location : Location) (entry : Entry) : Volume :=
  { volume with entries := (location, entry) :: (volume.erase location).entries }

/-- The volume with an entry, and all that lies below it, at another location. -/
def move (volume : Volume) (source target : Location) : Volume :=
  let moved (location : Location) : Location :=
    if location = source ∨ isBelow location source then target ++ location.drop source.length
    else location
  { volume with
    entries := (volume.erase target).entries.map fun found => (moved found.1, found.2) }

/-! ### Walks -/

/-- The longest name of an entry in bytes. -/
def maxNameLength : Nat := 255

/-- The longest path in bytes. -/
def maxPathLength : Nat := 4095

/-- The number of links that a walk follows. -/
def maxLinks : Nat := 40

/-- The first obstacle of a walk: its end, or a link with the names behind it. -/
inductive Halt where
  | arrived (location : Location)
  | link (directory : Location) (target : String) (names : List String)

/-- Follows names up to the first link. -/
def stroll (volume : Volume) (location : Location) : List String → Except FileError Halt
  | [] => .ok (.arrived location)
  | name :: names =>
    if !volume.isDirectoryAt location then .error .notDirectory
    else if name = "." then volume.stroll location names
    else if name = ".." then volume.stroll location.dropLast names
    else if maxNameLength < name.utf8ByteSize then .error .nameTooLong
    else
      match volume.entry? (location ++ [name]) with
      | none => .error .notFound
      | some (.link target) => .ok (.link location target names)
      | some _ => volume.stroll (location ++ [name]) names

/-- The location from which a path is walked. -/
def start (path : Path) (location : Location) : Location :=
  if path.absolute then [] else location

/-- The location that names lead to, links followed up to a number of them. -/
def walk (volume : Volume) : Nat → Location → List String → Except FileError Location
  | links, location, names => do
    match ← volume.stroll location names with
    | .arrived location => return location
    | .link directory target names =>
      match links with
      | 0 => throw .tooManyLinks
      | links + 1 =>
        let path := Path.ofText target
        volume.walk links (start path directory) (path.steps ++ names)

/-- A text that may be a path. -/
def checked (text : String) : Except FileError Path :=
  if '\x00' ∈ text.toList then .error .nulInPath
  else if text.isEmpty then .error .notFound
  else if maxPathLength < text.utf8ByteSize then .error .nameTooLong
  else .ok (.ofText text)

/-- The location that a path leads to. -/
def resolve (volume : Volume) (text : String) : Except FileError Location := do
  let path ← checked text
  volume.walk maxLinks (start path volume.current) path.steps

/-- Where a path leads to but for its last name. -/
inductive Destination where
  /-- A name in a directory, possibly with a slash behind it. -/
  | named (directory : Location) (name : String) (slash : Bool)
  /-- The directory itself, or the one above it. -/
  | dots

/-- The last name of a path in the directory that the other names lead to. -/
def lastStep (volume : Volume) (directory : Location) (name : String) (slash : Bool) :
    Except FileError Destination :=
  if !volume.isDirectoryAt directory then .error .notDirectory
  else if name = "." ∨ name = ".." then .ok .dots
  else if maxNameLength < name.utf8ByteSize then .error .nameTooLong
  else .ok (.named directory name slash)

/-- Where a path leads to but for its last name. -/
def destinationOf (volume : Volume) (location : Location) (path : Path) :
    Except FileError Destination := do
  match path.names.getLast? with
  | none => return .dots
  | some name =>
    let directory ← volume.walk maxLinks (start path location) path.names.dropLast
    volume.lastStep directory name path.slash

/-- Where a path leads to but for its last name. -/
def destination (volume : Volume) (text : String) : Except FileError Destination := do
  volume.destinationOf volume.current (← checked text)

/-! ### Reading -/

/-- The entry that a path leads to, links followed. -/
def status (volume : Volume) (text : String) : Except FileError Entry := do
  match volume.entry? (← volume.resolve text) with
  | some entry => return entry
  | none => throw .notFound

/-- The entry that a path names, a link at its end not followed. -/
def linkStatus (volume : Volume) (text : String) : Except FileError Entry := do
  match ← volume.destination text with
  | .dots => return .directory
  | .named _ _ true => volume.status text
  | .named directory name false =>
    match volume.entry? (directory ++ [name]) with
    | some entry => return entry
    | none => throw .notFound

/-- The contents of the file that a path leads to. -/
def readFile (volume : Volume) (text : String) : Except FileError ByteArray := do
  match ← volume.status text with
  | .file contents => return contents
  | .directory => throw .isDirectory
  | .link _ => throw .tooManyLinks

/-! ### Writing -/

/-- Whether a file may have a name in a directory.  A slash behind the name makes it that of a
directory, whatever its length. -/
def checkFileName (volume : Volume) (directory : Location) (name : String) (slash : Bool) :
    Except FileError Unit :=
  if !volume.isDirectoryAt directory then .error .notDirectory
  else if slash ∨ name = "." ∨ name = ".." then .error .isDirectory
  else if maxNameLength < name.utf8ByteSize then .error .nameTooLong
  else .ok ()

/-- The location of the file that is written under a path.  A link at its end is followed, even
if its target does not exist yet.  All links on the way count together. -/
def fileLocation (volume : Volume) : Nat → Location → Path → Except FileError Location
  | links, location, path => do
    let some name := path.names.getLast? | throw .isDirectory
    match ← volume.stroll (start path location) path.names.dropLast with
    | .link directory target names =>
      match links with
      | 0 => throw .tooManyLinks
      | links + 1 =>
        volume.fileLocation links directory
          ((Path.ofText target).continued (names ++ [name]) path.slash)
    | .arrived directory =>
      volume.checkFileName directory name path.slash
      match volume.entry? (directory ++ [name]) with
      | none => return directory ++ [name]
      | some (.file _) => return directory ++ [name]
      | some .directory => throw .isDirectory
      | some (.link target) =>
        match links with
        | 0 => throw .tooManyLinks
        | links + 1 => volume.fileLocation links directory (.ofText target)

/-- Writes a file, in place of the contents it had. -/
def writeFile (volume : Volume) (text : String) (contents : ByteArray) :
    Except FileError Volume := do
  let location ← volume.fileLocation maxLinks volume.current (← checked text)
  return volume.put location (.file contents)

/-- Creates a directory. -/
def createDirectory (volume : Volume) (text : String) : Except FileError Volume := do
  match ← volume.destination text with
  | .dots => throw .exists
  | .named directory name _ =>
    let location := directory ++ [name]
    if (volume.entry? location).isSome then throw .exists
    return volume.put location .directory

/-- Removes an entry that is no directory. -/
def removeFile (volume : Volume) (text : String) : Except FileError Volume := do
  match ← volume.destination text with
  | .dots => throw .isDirectory
  | .named directory name slash =>
    match volume.entry? (directory ++ [name]) with
    | none => throw .notFound
    | some .directory => throw .isDirectory
    | some _ => if slash then throw .notDirectory else return volume.erase (directory ++ [name])

/-- Whether an entry may take the place of what is at a location. -/
def mayReplace (volume : Volume) (isDirectory : Bool) (location : Location) :
    Except FileError Unit :=
  match isDirectory, volume.entry? location with
  | _, none => .ok ()
  | false, some .directory => .error .isDirectory
  | false, some _ => .ok ()
  | true, some .directory => if volume.isOccupied location then .error .notEmpty else .ok ()
  | true, some _ => .error .notDirectory

/-- Moves an entry to another path, in place of what was there. -/
def rename (volume : Volume) (source target : String) : Except FileError Volume := do
  let sourcePath ← checked source
  let targetPath ← checked target
  let origin ← volume.destinationOf volume.current sourcePath
  let place ← volume.destinationOf volume.current targetPath
  match origin, place with
  | .named directory name slash, .named directory' name' slash' =>
    let source := directory ++ [name]
    let target := directory' ++ [name']
    match volume.entry? source with
    | none => throw .notFound
    | some entry =>
      let isDirectory := match entry with
        | .directory => true
        | _ => false
      if !isDirectory && (slash || slash') then throw .notDirectory
      if isBelow target source then throw .invalid
      if isBelow source target then throw .notEmpty
      if source = target then return volume
      volume.mayReplace isDirectory target
      return volume.move source target
  | _, _ => throw .busy

end Volume

end PlugTaxonomy
