import PlugTaxonomy.Decision.Basic
import PlugTaxonomy.Table.Json

/-!
# Decisions in JSON

A decision is an object whose kind says what else is in it.  How a value is written is left to
the decision's user.
-/

namespace PlugTaxonomy

def Symbol.toJson (symbol : Symbol) : JsonValue :=
  .object [("name", .string symbol.name), ("code", symbol.code.toJson)]

/-- The name of an operand. -/
def Operand.name : Operand → String
  | .type => "type"
  | .dst => "dst"
  | .src => "src"

def Operand.toJson (operand : Operand) : JsonValue :=
  .string operand.name

def Comparand.toJson : Comparand → JsonValue
  | .symbol s => .object [("symbol", s.toJson)]
  | .operand o => .object [("operand", o.toJson)]

namespace Decision

variable {α : Type}

mutual

/-- A decision, given the written form of its values. -/
def toJson (value : α → JsonValue) : Decision α → JsonValue
  | give v => .object [("kind", .string "return"), ("value", value v)]
  | switch operand mask arms default =>
    .object [("kind", .string "switch"), ("operand", operand.toJson), ("mask", mask.toJson),
      ("arms", .array (armsToJson value arms)), ("default", default.toJson value)]
  | ifMatch operand mask comparand hit miss =>
    .object [("kind", .string "if_match"), ("operand", operand.toJson), ("mask", mask.toJson),
      ("rhs", comparand.toJson), ("then", value hit), ("otherwise", miss.toJson value)]

/-- The arms of a switch. -/
def armsToJson (value : α → JsonValue) : Arms α → List JsonValue
  | [] => []
  | (symbol, decision) :: arms =>
    .object [("case", symbol.toJson), ("then", decision.toJson value)] :: armsToJson value arms

end

end Decision

end PlugTaxonomy
