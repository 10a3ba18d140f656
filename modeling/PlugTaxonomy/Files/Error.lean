/-!
# Errors of the file system

* `FileError` — why an operation on a path fails, with the text that a message quotes.
-/

namespace PlugTaxonomy

/-- Why an operation on a path fails. -/
inductive FileError where
  | notFound
  | busy
  | exists
  | notDirectory
  | isDirectory
  | invalid
  | nameTooLong
  | notEmpty
  | tooManyLinks
  /-- The path contains a character that no path may contain. -/
  | nulInPath
  /-- The contents are no text. -/
  | notText
  /-- Any other reason that the system gives. -/
  | other (text : String)
  deriving DecidableEq, Repr

/-- A reason of the system with its number. -/
def numbered (text : String) (number : Nat) : String :=
  text ++ " (os error " ++ toString number ++ ")"

def FileError.text : FileError → String
  | notFound => numbered "No such file or directory" 2
  | busy => numbered "Device or resource busy" 16
  | .exists => numbered "File exists" 17
  | notDirectory => numbered "Not a directory" 20
  | isDirectory => numbered "Is a directory" 21
  | invalid => numbered "Invalid argument" 22
  | nameTooLong => numbered "File name too long" 36
  | notEmpty => numbered "Directory not empty" 39
  | tooManyLinks => numbered "Too many levels of symbolic links" 40
  | nulInPath => "file name contained an unexpected NUL byte"
  | notText => "stream did not contain valid UTF-8"
  | other text => text

end PlugTaxonomy
