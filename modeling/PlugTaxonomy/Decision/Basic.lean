import PlugTaxonomy.Code.Symbol

/-!
# Decision trees

What is asked of a code — its label, its usage, whether two endpoints fit — is answered by a
tree of masked switches and masked comparisons.  The tree is the one source of an answer: it is
evaluated here, printed as a program, and stored.

* `Decision α` — a value, a switch on `operand & mask`, or a comparison of `operand & mask`;
* `evaluate` — the value for given operands: the first arm of a switch whose code is selected,
  its default if there is none;
* `values` — all values in the order of the tree.
-/

namespace PlugTaxonomy

/-- A code that a decision looks at. -/
inductive Operand where
  /-- The type of the code that is classified. -/
  | type
  /-- The type of the consuming endpoint. -/
  | dst
  /-- The type of the producing endpoint. -/
  | src
  deriving DecidableEq, Repr

/-- What a masked operand is compared with. -/
inductive Comparand where
  | symbol (symbol : Symbol)
  | operand (operand : Operand)
  deriving DecidableEq, Repr

/-- A decision between values. -/
inductive Decision (α : Type) where
  /-- The value itself. -/
  | give (value : α)
  /-- The arm whose code is `operand & mask`, the default if there is none. -/
  | switch (operand : Operand) (mask : Symbol) (arms : List (Symbol × Decision α))
      (default : Decision α)
  /-- The value `hit` if `operand & mask` is the comparand, the decision `miss` if not. -/
  | ifMatch (operand : Operand) (mask : Symbol) (comparand : Comparand) (hit : α)
      (miss : Decision α)
  deriving Repr

/-- The arms of a switch, each with the code that selects it. -/
abbrev Arms (α : Type) := List (Symbol × Decision α)

/-! ### Operands -/

/-- Codes for all operands. -/
structure Operands where
  type : Code
  dst : Code
  src : Code
  deriving DecidableEq, Repr

namespace Operands

/-- The operands that classify one code. -/
def ofType (code : Code) : Operands :=
  ⟨code.typeCode, .unknown, .unknown⟩

/-- The operands that relate a consumer and a producer. -/
def pair (dst src : Code) : Operands :=
  ⟨.unknown, dst.typeCode, src.typeCode⟩

def get (operands : Operands) : Operand → Code
  | .type => operands.type
  | .dst => operands.dst
  | .src => operands.src

/-- The code that a comparand stands for. -/
def resolve (operands : Operands) : Comparand → Code
  | .symbol symbol => symbol.code
  | .operand operand => operands.get operand

end Operands

namespace Decision

variable {α : Type}

/-! ### Evaluation -/

mutual

/-- The value of a decision for given operands. -/
def evaluate (operands : Operands) : Decision α → α
  | give value => value
  | switch operand mask arms default =>
    match evaluateArms operands ((operands.get operand).masked mask.code) arms with
    | some value => value
    | none => default.evaluate operands
  | ifMatch operand mask comparand hit miss =>
    if (operands.get operand).masked mask.code = operands.resolve comparand then hit
    else miss.evaluate operands

/-- The value of the first arm that a code selects. -/
def evaluateArms (operands : Operands) (selector : Code) : Arms α → Option α
  | [] => none
  | (symbol, decision) :: arms =>
    if symbol.code = selector then some (decision.evaluate operands)
    else evaluateArms operands selector arms

end

/-! ### Values -/

mutual

/-- All values of a decision, in the order of the tree. -/
def values : Decision α → List α
  | give value => [value]
  | switch _ _ arms default => armValues arms ++ default.values
  | ifMatch _ _ _ hit miss => hit :: miss.values

/-- All values of the arms of a switch. -/
def armValues : Arms α → List α
  | [] => []
  | (_, decision) :: arms => decision.values ++ armValues arms

end

/-- Whether a decision is nothing but a given value. -/
def isGive [DecidableEq α] (value : α) : Decision α → Bool
  | give other => other = value
  | _ => false

theorem isGive_iff [DecidableEq α] {value : α} {decision : Decision α} :
    decision.isGive value = true ↔ decision = give value := by
  cases decision <;> simp [isGive]

end Decision

end PlugTaxonomy
