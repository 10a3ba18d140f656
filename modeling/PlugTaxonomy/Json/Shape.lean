import PlugTaxonomy.Json.Reader

/-!
# Shapes of scalars

* `unsigned` — a number below a limit;
* `text`, `items` — a string, and the items of an array;
* `Token.found?` — the value that a token begins, as a message names it;
* `unsignedGuard` — objects to anything else than a number below a limit.
-/

namespace PlugTaxonomy

/-- The value that a token begins, as a message names it. -/
def Token.found? : Token → Option Found
  | .null => some .null
  | .boolean value => some (.boolean value)
  | .number value => some (.number value)
  | .string value => some (.string value)
  | .openBracket => some .sequence
  | .openBrace => some .map
  | _ => none

namespace Shape

/-- The number below a limit that a value is, as far as a message names the value. -/
def unsignedOf (limit : Nat) (wanted : String) : Found → Except Mismatch Nat
  | .number (.integer value) =>
    if 0 ≤ value ∧ value < limit then .ok value.toNat
    else .error (.invalidValue (.number (.integer value)) wanted)
  | found => .error (.invalidType found wanted)

/-- A number below a limit. -/
def unsigned (limit : Nat) (wanted : String) (value : JsonValue) : Except Mismatch Nat :=
  unsignedOf limit wanted (.ofValue value)

/-- A number of 32 bits. -/
def word (value : JsonValue) : Except Mismatch UInt32 :=
  (unsigned UInt32.size "u32" value).map UInt32.ofNat

/-- A string. -/
def text : JsonValue → Except Mismatch String
  | .string value => .ok value
  | value => .error (.invalidType (.ofValue value) "a string")

/-- A string, or null for none. -/
def optionalText : JsonValue → Except Mismatch (Option String)
  | .null => .ok none
  | value => (text value).map some

/-- Objects to a value that does not begin as a number below a limit. -/
def unsignedGuard (limit : Nat) (wanted : String) (token : Token) : Option JsonError :=
  token.found?.bind fun found =>
    match unsignedOf limit wanted found with
    | .ok _ => none
    | .error error => some (.mismatch error)

end Shape

end PlugTaxonomy
