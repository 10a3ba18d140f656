import PlugTaxonomy.Number.Binary64

/-!
# JSON values

Schemas and artifacts are exchanged as JSON.  An object keeps its members in the order in which
they are written, repeated keys included, since the order matters for what is reported first.

* `JsonNumber` — an integer of 64 bits, or a floating point number;
* `JsonValue` — a value of any kind.
-/

namespace PlugTaxonomy

/-- A number.  Integers have 64 bits, signed or unsigned. -/
inductive JsonNumber where
  | integer (value : Int)
  | real (value : Binary64)
  deriving DecidableEq, Repr

/-- A JSON value. -/
inductive JsonValue where
  | null
  | boolean (value : Bool)
  | number (value : JsonNumber)
  | string (value : String)
  | array (items : List JsonValue)
  | object (members : List (String × JsonValue))
  deriving Repr

namespace JsonValue

/-- A natural number as a value. -/
def nat (n : Nat) : JsonValue :=
  number (.integer n)

/-- A text, or null where there is none. -/
def stringOrNull : Option String → JsonValue
  | some text => string text
  | none => null

end JsonValue

end PlugTaxonomy
