import PlugTaxonomy.Code.Numeral
import PlugTaxonomy.Json.Shape

/-!
# Codes and directions in JSON

A code is a number of 16 bits.  A direction is a name, or an object whose only key is the name
and whose value is null.

* `Code.readJson` — the code that a text denotes;
* `Direction.readJson` — the direction that a text denotes.
-/

namespace PlugTaxonomy

/-- The code that a JSON text denotes. -/
def Code.readJson (text : String) : Except JsonError Code :=
  let guard : Guard := ⟨fun _ token => Shape.unsignedGuard UInt16.size "u16" token,
    fun _ _ _ => none⟩
  JsonValue.readAs guard (fun value => (Shape.unsigned UInt16.size "u16" value).map Code.ofNat) text

namespace Direction

/-- The names of the directions. -/
def names : List String := ["in", "out"]

/-- The direction with a name. -/
def named (name : String) : Except JsonError Direction :=
  match name with
  | "in" => .ok .input
  | "out" => .ok .output
  | _ => .error (.mismatch (.unknownVariant name names))

/-- How far a direction has been read. -/
inductive Progress where
  /-- A name or an object is to come. -/
  | start
  /-- The name within an object is to come. -/
  | key
  /-- The colon behind the name is to come. -/
  | colon (direction : Direction)
  /-- The null behind the colon is to come. -/
  | content (direction : Direction)
  /-- The end of the object is to come. -/
  | close (direction : Direction)
  /-- Nothing is to come, but possibly something did. -/
  | done (direction : Direction) (followed : Bool)

/-- The error for a token where a null is wanted. -/
def notNull : Token → JsonError
  | .broken error => .malformed error
  | .brokenString error => .malformed error
  | token =>
    match token.found? with
    | some found => .mismatch (.invalidType found "unit")
    | none => .malformed .expectedValue

/-- One more token of a direction. -/
def step (progress : Progress) (token : Token) : Except JsonError Progress :=
  match progress, token with
  | .start, .string name => return .done (← named name) false
  | .start, .brokenString error => .error (.malformed error)
  | .start, .openBrace => .ok .key
  | .start, _ => .error (.malformed .expectedValue)
  | .key, .string name => return .colon (← named name)
  | .key, .brokenString error => .error (.malformed error)
  | .key, .closeBrace => .error (.malformed .expectedValue)
  | .key, _ => .error (.malformed .keyMustBeString)
  | .colon direction, .colon => .ok (.content direction)
  | .colon _, _ => .error (.malformed .expectedColon)
  | .content direction, .null => .ok (.close direction)
  | .content _, token => .error (notNull token)
  | .close direction, .closeBrace => .ok (.done direction false)
  | .close _, _ => .error (.malformed .expectedValue)
  | .done direction _, _ => .ok (.done direction true)

/-- The direction that has been read when the text ends. -/
def finish : Progress → Except JsonError Direction
  | .start | .content _ => .error (.malformed .endInValue)
  | .key | .colon _ | .close _ => .error (.malformed .endInObject)
  | .done direction followed =>
    if followed then .error (.malformed .trailingCharacters) else .ok direction

/-- The direction that a JSON text denotes. -/
def readJson (text : String) : Except JsonError Direction := do
  finish (← Token.fold step .start text.toList)

end Direction

end PlugTaxonomy
