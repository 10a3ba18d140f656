import PlugTaxonomy.Environment.Basic
import PlugTaxonomy.Files.Disk
import PlugTaxonomy.Text.Alphanumeric
import PlugTaxonomy.Text.Field

/-!
# Variables from a file

A file named `.env` in the current directory, or in one that it lies in, sets variables that are
not set yet.  A line `NAME=value` sets one; `export` may stand in front, and a comment behind a
blank and a number sign.

* `readValue` — a value with its quotes, escapes and references to other variables resolved;
* `readLine` — the variable that a line sets;
* `loadLines` — the environment after the lines of a file;
* `load` — finds the file and loads it.

A line with an error ends the file; what was set before it stays.
-/

namespace PlugTaxonomy.EnvironmentFile

/-! ### Values -/

/-- Where a value is being read. -/
inductive Position where
  /-- Outside of quotes. -/
  | plain
  /-- Between apostrophes, where nothing but an apostrophe has a meaning. -/
  | strong
  /-- Between double quotes. -/
  | weak
  /-- Behind a backslash, possibly between double quotes. -/
  | escape (quoted : Bool)
  /-- In the name of a variable, read so far in reverse order. -/
  | reference (quoted : Bool) (name : List Char)
  /-- In the name of a variable between braces. -/
  | braced (quoted : Bool) (name : List Char)
  /-- Behind a blank, where only a comment may follow. -/
  | ended
  deriving DecidableEq, Repr

/-- The position outside of escapes and references. -/
def Position.back (quoted : Bool) : Position :=
  if quoted then .weak else .plain

/-- The characters of a variable's value in front of others, all in reverse order. -/
def insertValue (environment : Environment) (name read : List Char) : List Char :=
  ((environment.referred? (String.ofList name.reverse)).getD "").toList.reverse ++ read

/-- A value, given what has been read already in reverse order, or nothing if it has an
error. -/
def readFrom (environment : Environment) : Position → List Char → List Char → Option (List Char)
  | .plain, read, [] => some read.reverse
  | .ended, read, [] => some read.reverse
  | .escape false, read, [] => some read.reverse
  | .reference false name, read, [] => some (insertValue environment name read).reverse
  | _, _, [] => none
  | .ended, read, c :: cs =>
    if c = ' ' ∨ c = '\t' then readFrom environment .ended read cs
    else if c = '#' then some read.reverse
    else none
  | .escape quoted, read, c :: cs =>
    if c ∈ ['\\', '\x27', '"', '$', ' '] then readFrom environment (.back quoted) (c :: read) cs
    else if c = 'n' then readFrom environment (.back quoted) ('\n' :: read) cs
    else none
  | .strong, read, c :: cs =>
    if c = '\x27' then readFrom environment .plain read cs
    else readFrom environment .strong (c :: read) cs
  | .reference quoted name, read, c :: cs =>
    if Text.isAlphanumeric c then readFrom environment (.reference quoted (c :: name)) read cs
    else if c = '\x7b' ∧ name = [] then readFrom environment (.braced quoted []) read cs
    else
      let read := insertValue environment name read
      if c = '$' then readFrom environment (.reference quoted []) read cs
      else readFrom environment (.back quoted) (c :: read) cs
  | .braced quoted name, read, c :: cs =>
    if c = '\x7d' then
      readFrom environment (.back quoted) (insertValue environment name read) cs
    else readFrom environment (.braced quoted (c :: name)) read cs
  | .weak, read, c :: cs =>
    if c = '$' then readFrom environment (.reference true []) read cs
    else if c = '"' then readFrom environment .plain read cs
    else if c = '\\' then readFrom environment (.escape true) read cs
    else readFrom environment .weak (c :: read) cs
  | .plain, read, c :: cs =>
    if c = '$' then readFrom environment (.reference false []) read cs
    else if c = '\x27' then readFrom environment .strong read cs
    else if c = '"' then readFrom environment .weak read cs
    else if c = '\\' then readFrom environment (.escape false) read cs
    else if c = ' ' ∨ c = '\t' then readFrom environment .ended read cs
    else readFrom environment .plain (c :: read) cs

/-- A value with its quotes, escapes and references to other variables resolved. -/
def readValue (environment : Environment) (cs : List Char) : Option String :=
  (readFrom environment .plain [] cs).map String.ofList

/-! ### Lines -/

/-- Whether a character may start a key. -/
def startsKey (c : Char) : Bool :=
  c.isAlpha || c == '_'

/-- Whether a character may stand in a key behind the first one. -/
def continuesKey (c : Char) : Bool :=
  startsKey c || c.isDigit || c == '.'

/-- The key at the front of a text, with what stands behind it and the blanks after it. -/
def readKey (cs : List Char) : Option (List Char × List Char) :=
  match cs with
  | [] => none
  | c :: rest =>
    if startsKey c then
      some (c :: rest.takeWhile continuesKey, Text.trimStart (rest.dropWhile continuesKey))
    else none

/-- What stands behind an equals sign. -/
def readEquals : List Char → Option (List Char)
  | '=' :: cs => some cs
  | _ => none

/-- Whether a text holds nothing, or nothing but a comment. -/
def isVoid : List Char → Bool
  | [] => true
  | c :: _ => c == '#'

/-- The key that a line sets, with what stands behind the equals sign. -/
def readAssignment (cs : List Char) : Option (List Char × List Char) := do
  let (key, rest) ← readKey cs
  if key = "export".toList then
    match readEquals rest with
    | some value => return (key, value)
    | none =>
      let (key, rest) ← readKey rest
      return (key, ← readEquals rest)
  else return (key, ← readEquals rest)

/-- The environment after a line, or nothing if the line has an error. -/
def loadLine (environment : Environment) (line : String) : Option Environment := do
  let cs := Text.trim line.toList
  if isVoid cs then return environment
  let (key, rest) ← readAssignment cs
  let value := Text.trimStart rest
  let value ← if isVoid value then some "" else readValue environment value
  return environment.setNew (String.ofList key) value

/-! ### Files -/

/-- The environment after lines, and whether all of them were without an error.  A line that is
no text counts as an error. -/
def loadLines (environment : Environment) : List (Option String) → Environment × Bool
  | [] => (environment, true)
  | none :: _ => (environment, false)
  | some line :: lines =>
    match loadLine environment line with
    | some next => loadLines next lines
    | none => (environment, false)

/-- The lines of a file. -/
def linesOf (contents : ByteArray) : List (Option String) :=
  (Text.fields 10 contents.data.toList).map fun line => String.fromUTF8? ⟨line.toArray⟩

variable {m : Type → Type} [Monad m]

/-- The first of some directories in which there is such a file. -/
def find? (disk : Disk m) : List String → m (Option String)
  | [] => return none
  | directory :: directories => do
    let path := Path.join directory ".env"
    match ← disk.status path with
    | .ok .file => return some path
    | .ok _ => find? disk directories
    | .error .notFound => find? disk directories
    | .error _ => return none

/-- The environment after the file was loaded, and the path of the file if it has no error. -/
def load (disk : Disk m) (environment : Environment) : m (Environment × Option String) := do
  let current ← disk.current
  match ← find? disk (Path.ancestors current ++ ["/"]) with
  | none => return (environment, none)
  | some path =>
    match ← disk.readFile path with
    | .error _ => return (environment, none)
    | .ok contents =>
      let (environment, complete) := loadLines environment (linesOf contents)
      return (environment, if complete then some path else none)

end PlugTaxonomy.EnvironmentFile
