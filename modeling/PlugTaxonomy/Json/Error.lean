import PlugTaxonomy.Flags
import PlugTaxonomy.Json.Value
import PlugTaxonomy.Number.Shortest
import PlugTaxonomy.Text.Escape

/-!
# Errors in JSON texts

A text may fail to be JSON, or it may be JSON of the wrong shape.

* `Malformed` — the ways in which a text is no JSON, unfinished texts among them;
* `Found` — how a message names a value that does not fit;
* `Mismatch` — the ways in which a value has the wrong shape;
* `JsonError` — either of them, with its category and message.
-/

namespace PlugTaxonomy

/-- Why a text is not JSON. -/
inductive Malformed where
  | endInValue
  | endInString
  | endInObject
  | endInList
  | expectedValue
  | expectedIdent
  | expectedColon
  | expectedObjectCommaOrEnd
  | expectedListCommaOrEnd
  | keyMustBeString
  | trailingComma
  | trailingCharacters
  | invalidNumber
  | numberOutOfRange
  | invalidEscape
  | loneSurrogate
  | unfinishedSurrogate
  | controlCharacter
  | tooDeep
  deriving DecidableEq, Repr

namespace Malformed

def message : Malformed → String
  | endInValue => "EOF while parsing a value"
  | endInString => "EOF while parsing a string"
  | endInObject => "EOF while parsing an object"
  | endInList => "EOF while parsing a list"
  | expectedValue => "expected value"
  | expectedIdent => "expected ident"
  | expectedColon => "expected `:`"
  | expectedObjectCommaOrEnd => "expected `,` or `\x7d`"
  | expectedListCommaOrEnd => "expected `,` or `]`"
  | keyMustBeString => "key must be a string"
  | trailingComma => "trailing comma"
  | trailingCharacters => "trailing characters"
  | invalidNumber => "invalid number"
  | numberOutOfRange => "number out of range"
  | invalidEscape => "invalid escape"
  | loneSurrogate => "lone leading surrogate in hex escape"
  | unfinishedSurrogate => "unexpected end of hex escape"
  | controlCharacter => "control character (\\u0000-\\u001F) found while parsing a string"
  | tooDeep => "recursion limit exceeded"

/-- Whether the text only ended too early. -/
def isUnfinished : Malformed → Bool
  | endInValue | endInString | endInObject | endInList => true
  | _ => false

end Malformed

/-! ### Shapes -/

/-- A value that does not fit, as a message names it. -/
inductive Found where
  | null
  | boolean (value : Bool)
  | number (value : JsonNumber)
  | string (value : String)
  | sequence
  | map
  deriving DecidableEq, Repr

namespace Found

def ofValue : JsonValue → Found
  | .null => null
  | .boolean value => boolean value
  | .number value => number value
  | .string value => string value
  | .array _ => sequence
  | .object _ => map

def text : Found → String
  | null => "null"
  | boolean value => "boolean `" ++ (if value then "true" else "false") ++ "`"
  | number (.integer value) => "integer `" ++ toString value ++ "`"
  | number (.real value) => "floating point `" ++ value.text ++ "`"
  | string value => "string " ++ Text.quoted value
  | sequence => "sequence"
  | map => "map"

end Found

/-- Why a value has the wrong shape. -/
inductive Mismatch where
  | invalidType (found : Found) (wanted : String)
  | invalidValue (found : Found) (wanted : String)
  | invalidLength (length : Nat) (wanted : String)
  | unknownField (name : String) (known : List String)
  | unknownVariant (name : String) (known : List String)
  | duplicateField (name : String)
  | missingField (name : String)
  | flags (error : FlagsError)
  deriving DecidableEq, Repr

namespace Mismatch

/-- A name between grave accents. -/
def ticked (name : String) : String :=
  "`" ++ name ++ "`"

/-- The names that would have been known. -/
def choice : List String → String
  | [first, second] => ticked first ++ " or " ++ ticked second
  | names => "one of " ++ String.intercalate ", " (names.map ticked)

def message : Mismatch → String
  | invalidType found wanted => "invalid type: " ++ found.text ++ ", expected " ++ wanted
  | invalidValue found wanted => "invalid value: " ++ found.text ++ ", expected " ++ wanted
  | invalidLength length wanted =>
    "invalid length " ++ toString length ++ ", expected " ++ wanted
  | unknownField name known =>
    "unknown field " ++ ticked name ++ ", expected " ++ choice known
  | unknownVariant name known =>
    "unknown variant " ++ ticked name ++ ", expected " ++ choice known
  | duplicateField name => "duplicate field " ++ ticked name
  | missingField name => "missing field " ++ ticked name
  | flags error => error.message

end Mismatch

/-! ### Both kinds -/

/-- Why a text is not read. -/
inductive JsonError where
  | malformed (error : Malformed)
  | mismatch (error : Mismatch)
  deriving DecidableEq, Repr

namespace JsonError

def message : JsonError → String
  | malformed error => error.message
  | mismatch error => error.message

/-- The category of an error: the text ended too early, is no JSON, or has the wrong shape. -/
def category : JsonError → String
  | malformed error => if error.isUnfinished then "eof" else "syntax"
  | mismatch _ => "data"

end JsonError

end PlugTaxonomy
