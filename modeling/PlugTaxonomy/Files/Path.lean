import PlugTaxonomy.Text.Field

/-!
# Paths

* `Path` — the names between the slashes of a path;
* `Path.join` — a path below a directory;
* `Path.ancestors` — a path, and then the paths of the directories it lies in, the nearest one
  first.
-/

namespace PlugTaxonomy

/-- A path taken apart.  Empty names are left out, dots are names like others. -/
structure Path where
  /-- Whether the path starts at the root. -/
  absolute : Bool
  names : List String
  /-- Whether the path ends with a slash, so that it can only be a directory. -/
  slash : Bool
  deriving DecidableEq, Repr

namespace Path

/-- A text taken apart at its slashes. -/
def ofText (text : String) : Path :=
  let cs := text.toList
  { absolute := cs.head? = some '/'
    names := ((Text.fields '/' cs).filter (!·.isEmpty)).map String.ofList
    slash := cs.getLast? = some '/' }

/-- The text of a path. -/
def text (path : Path) : String :=
  (if path.absolute then "/" else "") ++ String.intercalate "/" path.names

/-- The names to walk along.  A slash at the end is a step within the directory it follows. -/
def steps (path : Path) : List String :=
  if path.slash then path.names ++ ["."] else path.names

/-- A path continued by names, with or without a slash at the end. -/
def continued (path : Path) (names : List String) (slash : Bool) : Path :=
  { path with names := path.steps ++ names, slash }

/-- The path of a name below a directory.  A name that starts at the root replaces the
directory. -/
def join (directory name : String) : String :=
  if name.toList.head? = some '/' then name
  else if directory.isEmpty ∨ directory.toList.getLast? = some '/' then directory ++ name
  else directory ++ "/" ++ name

/-- The path without the dots that lead nowhere.  Only one in front of all names counts. -/
def withoutDots (path : Path) : Path :=
  let rest := path.names.tail.filter (· ≠ ".")
  let first := path.names.take 1
  { path with
    names := (if path.absolute then first.filter (· ≠ ".") else first) ++ rest
    slash := false }

/-- The nonempty lists of names that remain when names are dropped from the end, the longest
one first. -/
def shorter (names : List String) : List (List String) :=
  ((List.range names.length).tail.map names.take).reverse

/-- A path, and then the paths of the directories it lies in, the nearest one first.  The root
and the current directory are left out. -/
def ancestors (text : String) : List String :=
  let path := (ofText text).withoutDots
  if path.names.isEmpty then []
  else text :: (shorter path.names).map fun names => { path with names : Path }.text

end Path

end PlugTaxonomy
