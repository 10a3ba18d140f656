import PlugTaxonomy.Code.Basic
import PlugTaxonomy.Text.Blank
import PlugTaxonomy.Text.Numeral

/-!
# Codes as texts

A code is written as four hexadecimal digits behind `0x`, and read from a hexadecimal or a
decimal numeral.

* `Code.text` — the written form;
* `Code.read` — the code of a numeral, blanks around it left aside;
* `CodeError` — a text that is no numeral, or one of a number with more than 16 bits.
-/

namespace PlugTaxonomy

/-- Why a text is not a code. -/
inductive CodeError where
  | invalid (text : String)
  | outOfRange (value : Nat)
  deriving DecidableEq, Repr

def CodeError.message : CodeError → String
  | .invalid text => "'" ++ text ++ "' is not a valid plug type code"
  | .outOfRange value => toString value ++ " does not fit into 16 bits"

namespace Code

/-- The written form of a code. -/
def text (c : Code) : String :=
  String.ofList ('0' :: 'x' :: Text.hexPadded 4 c.toNat)

/-- The number of a hexadecimal numeral behind `0x` or `0X`, or else of a decimal one.
Numbers of more than 64 bits are not read. -/
def readNumeral? : List Char → Option Nat
  | '0' :: 'x' :: digits => Text.readUnsigned? 16 UInt64.size digits
  | '0' :: 'X' :: digits => Text.readUnsigned? 16 UInt64.size digits
  | digits => Text.readUnsigned? 10 UInt64.size digits

/-- The code that a text denotes, blanks around it left aside. -/
def read (text : String) : Except CodeError Code :=
  let trimmed := Text.trim text.toList
  match readNumeral? trimmed with
  | none => .error (.invalid (String.ofList trimmed))
  | some value => if value < UInt16.size then .ok (ofNat value) else .error (.outOfRange value)

end Code

end PlugTaxonomy
