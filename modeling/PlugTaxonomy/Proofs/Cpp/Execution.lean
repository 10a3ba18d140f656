import PlugTaxonomy.Cpp.Functions
import PlugTaxonomy.Proofs.Decision.Contents

/-!
# Execution of function bodies

A function body is executed statement by statement.  A `return` ends the function with its value; a
`switch` goes on behind the label that equals its operand, or else behind `default`, and then runs
on through all that follows.

* `Scope` — what the names of constants stand for: the two enumerations;
* `Frame` — the values of parameters and variables;
* `Term.eval`, `Condition.eval`, `Answer.eval` — the values of expressions;
* `Statement.exec`, `execBlock`, `execCases` — execution, which is stuck at names that stand for
  nothing and at labels that are equal;
* `exec_decisionBody` — the body of a decision gives back what the decision says.
-/

namespace PlugTaxonomy.Cpp

/-! ### Names -/

/-- The declared enumerations: constants with their codes, and usages. -/
structure Scope where
  constants : List Constant
  usages : List String

/-- The value of a variable. -/
inductive Value where
  | code (code : Code)
  | truth (value : Bool)

/-- The variables that are declared, the latest one first. -/
abbrev Frame := List (String × Value)

/-- What a function gives back. -/
inductive Result where
  /-- A value without contents. -/
  | empty
  | text (contents : String)
  | truth (value : Bool)
  /-- A constant of the enumeration of usages. -/
  | usage (name : String)
  deriving DecidableEq, Repr

namespace Scope

/-- The code of a constant. -/
def code? (scope : Scope) (name : String) : Option Code :=
  (scope.constants.find? fun constant => constant.name = name).map (·.code)

/-- A declared usage. -/
def usage? (scope : Scope) (name : String) : Option Result :=
  if name ∈ scope.usages then some (.usage name) else none

end Scope

namespace Value

/-- The code, if the value is one. -/
@[simp] def code? : Value → Option Code
  | .code c => some c
  | .truth _ => none

/-- The truth value, if the value is one. -/
@[simp] def truth? : Value → Option Bool
  | .code _ => none
  | .truth value => some value

end Value

namespace Frame

/-- The value of the variable with a name. -/
def value? (frame : Frame) (name : String) : Option Value :=
  frame.lookup name

/-- The code that a variable holds. -/
def code? (frame : Frame) (name : String) : Option Code :=
  (frame.value? name).bind Value.code?

/-- The truth value that a variable holds. -/
def truth? (frame : Frame) (name : String) : Option Bool :=
  (frame.value? name).bind Value.truth?

@[simp] theorem value?_cons (frame : Frame) (name other : String) (value : Value) :
    value? ((name, value) :: frame) other =
      if other = name then some value else frame.value? other := by
  rw [value?, List.lookup_cons, value?]
  by_cases hname : other = name
  · rw [if_pos hname, beq_iff_eq.mpr hname]
  · rw [if_neg hname, beq_eq_false_iff_ne.mpr hname]

end Frame

/-! ### Expressions -/

section Expression

variable (scope : Scope) (frame : Frame)

def Term.eval : Term → Option Code
  | .var name => frame.code? name
  | .constant name => scope.code? name
  | .masked term mask => do return (← term.eval).masked (← scope.code? mask)

def Condition.eval : Condition → Option Bool
  | .var name => frame.truth? name
  | .constant value => some value
  | .equal left right => do
    return decide ((← left.eval scope frame) = (← right.eval scope frame))
  | .differ left right => do
    return decide ((← left.eval scope frame) ≠ (← right.eval scope frame))
  | .nonzero term => do return decide ((← term.eval scope frame) ≠ .unknown)
  | .negated condition => do return !(← condition.eval)
  | .both left right => do return (← left.eval) && (← right.eval)
  | .either left right => do return (← left.eval) || (← right.eval)

def Answer.eval : Answer → Option Result
  | .empty => some .empty
  | .label text => some (.text text)
  | .truth value => some (.truth value)
  | .usage name => scope.usage? name
  | .choice flag yes no => do
    let value ← frame.truth? flag
    let whenTrue ← scope.usage? yes
    let whenFalse ← scope.usage? no
    return if value then whenTrue else whenFalse

end Expression

namespace Condition

variable {scope : Scope} {frame : Frame}

section Comparison

variable {left right : Term} {c d : Code}

theorem eval_equal (hleft : left.eval scope frame = some c)
    (hright : right.eval scope frame = some d) :
    (equal left right).eval scope frame = some (decide (c = d)) := by
  rw [eval, hleft, hright]
  rfl

theorem eval_differ (hleft : left.eval scope frame = some c)
    (hright : right.eval scope frame = some d) :
    (differ left right).eval scope frame = some (decide (c ≠ d)) := by
  rw [eval, hleft, hright]
  rfl

end Comparison

section Connective

variable {left right : Condition} {a b : Bool}

theorem eval_negated (h : left.eval scope frame = some a) :
    (negated left).eval scope frame = some !a := by
  rw [eval, h]
  rfl

theorem eval_both (hleft : left.eval scope frame = some a)
    (hright : right.eval scope frame = some b) :
    (both left right).eval scope frame = some (a && b) := by
  rw [eval, hleft, hright]
  rfl

theorem eval_either (hleft : left.eval scope frame = some a)
    (hright : right.eval scope frame = some b) :
    (either left right).eval scope frame = some (a || b) := by
  rw [eval, hleft, hright]
  rfl

end Connective

end Condition

/-! ### Statements -/

/-- How the execution of statements ends. -/
inductive Outcome where
  /-- The function has ended with a value. -/
  | returned (result : Result)
  /-- Control goes on behind the statements. -/
  | passed (frame : Frame)

/-- Goes on behind statements, unless they have ended the function. -/
def Outcome.andThen (outcome : Outcome) (next : Frame → Option Outcome) : Option Outcome :=
  match outcome with
  | .returned result => some (.returned result)
  | .passed frame => next frame

section Statement

variable (scope : Scope)

mutual

/-- Executes a statement.  Variables that are declared within a switch end with it. -/
def Statement.exec (frame : Frame) : Statement → Option Outcome
  | .comment _ => some (.passed frame)
  | .blank => some (.passed frame)
  | .declareCode name term => do
    return .passed ((name, .code (← term.eval scope frame)) :: frame)
  | .declareTruth name condition => do
    return .passed ((name, .truth (← condition.eval scope frame)) :: frame)
  | .giveBack answer => do return .returned (← answer.eval scope frame)
  | .giveBackIf condition answer => do
    if ← condition.eval scope frame then return .returned (← answer.eval scope frame)
    else return .passed frame
  | .guard condition answer => do
    if ← condition.eval scope frame then return .returned (← answer.eval scope frame)
    else return .passed frame
  | .switch term cases default => do
    let selector ← term.eval scope frame
    let labels ← cases.mapM fun entry => scope.code? entry.1
    if labels.Nodup then
      let outcome ← execCases selector false frame cases
      let outcome ← outcome.andThen fun within => execBlock within default
      outcome.andThen fun _ => some (.passed frame)
    else none

/-- Executes statements one after the other. -/
def execBlock (frame : Frame) : List Statement → Option Outcome
  | [] => some (.passed frame)
  | statement :: statements => do
    let outcome ← statement.exec frame
    outcome.andThen fun frame => execBlock frame statements

/-- Executes the cases of a switch from the selected label on, those behind it included.  The label
`default` stands behind all cases, so control comes there from the last case as well as if no label
is selected. -/
def execCases (selector : Code) (entered : Bool) (frame : Frame) :
    List (String × List Statement) → Option Outcome
  | [] => some (.passed frame)
  | (label, block) :: cases => do
    if entered || scope.code? label = some selector then
      let outcome ← execBlock frame block
      outcome.andThen fun frame => execCases selector true frame cases
    else execCases selector false frame cases

end

end Statement

/-! ### Decisions -/

section Decision

variable {α : Type} {scope : Scope} {symbol : Symbol → Prop} {operand : Operand → Prop}
  {value : α → Prop} {frame : Frame} {operands : Operands}

/-- The labels of a switch stand for the codes of its arms. -/
theorem mapM_labels (answer : α → Answer) {arms : Arms α}
    (hsymbol : ∀ s, symbol s → scope.code? s.name = some s.code)
    (h : Decision.ArmsMadeOf symbol operand value arms) :
    (decisionCases answer arms).mapM (fun entry => scope.code? entry.1) =
      some (arms.map (·.1.code)) := by
  induction arms with
  | nil => rfl
  | cons arm arms ih =>
    obtain ⟨s, decision⟩ := arm
    rw [decisionCases, List.mapM_cons, hsymbol s h.1, ih h.2.2]
    rfl

/-- A masked variable. -/
theorem eval_masked {name mask : String} {c bits : Code} (hname : frame.code? name = some c)
    (hmask : scope.code? mask = some bits) :
    (Term.masked (.var name) mask).eval scope frame = some (c.masked bits) := by
  rw [Term.eval, Term.eval, hname, hmask]
  rfl

/-- A masked operand is what the decision selects by. -/
theorem eval_maskedOperand (hsymbol : ∀ s, symbol s → scope.code? s.name = some s.code)
    (hoperand : ∀ o, operand o → frame.code? (operandVariable o) = some (operands.get o))
    {o : Operand} {mask : Symbol} (ho : operand o) (hmask : symbol mask) :
    (maskedOperand o mask).eval scope frame = some ((operands.get o).masked mask.code) :=
  eval_masked (hoperand o ho) (hsymbol mask hmask)

theorem eval_comparandTerm (hsymbol : ∀ s, symbol s → scope.code? s.name = some s.code)
    (hoperand : ∀ o, operand o → frame.code? (operandVariable o) = some (operands.get o))
    {comparand : Comparand} (h : comparand.MadeOf symbol operand) :
    (comparandTerm comparand).eval scope frame = some (operands.resolve comparand) := by
  cases comparand with
  | symbol s => exact hsymbol s h
  | operand o => exact hoperand o h

mutual

/-- **A decision's body gives back what the decision says**, if its symbols are declared with their
codes and the variables hold the operands.  No statement is reached behind the body. -/
theorem exec_decisionBody (answer : α → Answer)
    (hsymbol : ∀ s, symbol s → scope.code? s.name = some s.code)
    (hoperand : ∀ o, operand o → frame.code? (operandVariable o) = some (operands.get o))
    (decision : Decision α) (h : decision.MadeOf symbol operand value) :
    execBlock scope frame (decisionBody answer decision) =
      ((answer (decision.evaluate operands)).eval scope frame).map .returned := by
  cases decision with
  | give v =>
    rw [decisionBody, execBlock, Statement.exec, Decision.evaluate]
    cases (answer v).eval scope frame <;> rfl
  | switch o mask arms default =>
    obtain ⟨ho, hmask, hnodup, harms, hdefault⟩ := h
    have hcases := exec_decisionCases answer hsymbol hoperand
      ((operands.get o).masked mask.code) arms harms
    have hblock := exec_decisionBody answer hsymbol hoperand default hdefault
    rw [decisionBody, execBlock, Statement.exec, eval_maskedOperand hsymbol hoperand ho hmask,
      mapM_labels answer hsymbol harms, Decision.evaluate]
    simp only [Option.bind_eq_bind, Option.bind_some, if_pos hnodup, hcases]
    cases Decision.evaluateArms operands ((operands.get o).masked mask.code) arms with
    | some v =>
      dsimp only
      cases (answer v).eval scope frame <;> rfl
    | none =>
      simp only [Option.bind_some, Outcome.andThen, hblock]
      cases (answer (default.evaluate operands)).eval scope frame <;> rfl
  | ifMatch o mask comparand hit miss =>
    obtain ⟨ho, hmask, hcomparand, -, hmiss⟩ := h
    have hblock := exec_decisionBody answer hsymbol hoperand miss hmiss
    rw [decisionBody, execBlock, Statement.exec,
      Condition.eval_equal (eval_maskedOperand hsymbol hoperand ho hmask)
        (eval_comparandTerm hsymbol hoperand hcomparand), Decision.evaluate]
    by_cases hmatch : (operands.get o).masked mask.code = operands.resolve comparand
    · simp only [hmatch, decide_true, if_true, Option.bind_eq_bind, Option.bind_some, Option.pure_def]
      cases (answer hit).eval scope frame <;> rfl
    · simp only [hmatch, decide_false, if_false, Option.bind_eq_bind, Option.bind_some,
        Option.pure_def, Bool.false_eq_true, Outcome.andThen, hblock]

/-- The cases of a switch give back what the selected arm says, and are passed if there is none. -/
theorem exec_decisionCases (answer : α → Answer)
    (hsymbol : ∀ s, symbol s → scope.code? s.name = some s.code)
    (hoperand : ∀ o, operand o → frame.code? (operandVariable o) = some (operands.get o))
    (selector : Code) (arms : Arms α) (h : Decision.ArmsMadeOf symbol operand value arms) :
    execCases scope selector false frame (decisionCases answer arms) =
      match Decision.evaluateArms operands selector arms with
      | some v => ((answer v).eval scope frame).map .returned
      | none => some (.passed frame) := by
  cases arms with
  | nil => rfl
  | cons arm arms =>
    obtain ⟨s, decision⟩ := arm
    obtain ⟨hs, hdecision, harms⟩ := h
    have hblock := exec_decisionBody answer hsymbol hoperand decision hdecision
    have hcases := exec_decisionCases answer hsymbol hoperand selector arms harms
    rw [decisionCases, execCases, hsymbol s hs, Decision.evaluateArms]
    by_cases hcode : s.code = selector
    · simp only [hcode, hblock, decide_true, Bool.or_true, if_true, Option.bind_eq_bind]
      cases (answer (decision.evaluate operands)).eval scope frame <;> rfl
    · simp only [hcode, hcases, Option.some.injEq, decide_false, Bool.or_false, if_false,
        Bool.false_eq_true]

end

end Decision

end PlugTaxonomy.Cpp
