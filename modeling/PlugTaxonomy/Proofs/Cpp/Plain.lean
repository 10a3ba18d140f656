import PlugTaxonomy.Proofs.Cpp.Execution

/-!
# Bodies without comments

A body that has been read holds neither comments nor empty lines, and its guards stand on one line.

* `Statement.plain`, `Statement.plainBlock` — statements as they are read;
* `execBlock_plain` — reading leaves out nothing that is executed.
-/

namespace PlugTaxonomy.Cpp

mutual

/-- A statement as it is read: comments and empty lines leave nothing, and a guard is a conditional
`return` like any other. -/
def Statement.plain : Statement → List Statement
  | .comment _ => []
  | .blank => []
  | .declareCode name term => [.declareCode name term]
  | .declareTruth name condition => [.declareTruth name condition]
  | .giveBack answer => [.giveBack answer]
  | .giveBackIf condition answer => [.giveBackIf condition answer]
  | .guard condition answer => [.giveBackIf condition answer]
  | .switch term cases default =>
    [.switch term (Statement.plainCases cases) (Statement.plainBlock default)]

def Statement.plainBlock : List Statement → List Statement
  | [] => []
  | statement :: statements => statement.plain ++ Statement.plainBlock statements

def Statement.plainCases : List (String × List Statement) → List (String × List Statement)
  | [] => []
  | (constant, block) :: cases =>
    (constant, Statement.plainBlock block) :: Statement.plainCases cases

end

/-! ### Execution -/

section Plain

variable (scope : Scope)

theorem execBlock_append (frame : Frame) (statements others : List Statement) :
    execBlock scope frame (statements ++ others) =
      (execBlock scope frame statements).bind fun outcome =>
        outcome.andThen fun frame => execBlock scope frame others := by
  induction statements generalizing frame with
  | nil => rfl
  | cons statement statements ih =>
    rw [List.cons_append, execBlock, execBlock, Option.bind_eq_bind, Option.bind_assoc]
    congr 1
    funext outcome
    cases outcome with
    | returned result => rfl
    | passed frame => exact ih frame

theorem execBlock_singleton (frame : Frame) (statement : Statement) :
    execBlock scope frame [statement] = statement.exec scope frame := by
  rw [execBlock]
  cases statement.exec scope frame with
  | none => rfl
  | some outcome => cases outcome <;> rfl

theorem mapM_labels_plainCases (cases : List (String × List Statement)) :
    (Statement.plainCases cases).mapM (fun entry => scope.code? entry.1) =
      cases.mapM fun entry => scope.code? entry.1 := by
  induction cases with
  | nil => rfl
  | cons entry cases ih => rw [Statement.plainCases, List.mapM_cons, List.mapM_cons, ih]

mutual

/-- A statement does the same when it has been read. -/
theorem execBlock_plain_statement (frame : Frame) (statement : Statement) :
    execBlock scope frame statement.plain = statement.exec scope frame := by
  cases statement with
  | comment text => rfl
  | blank => rfl
  | declareCode name term => exact execBlock_singleton scope frame _
  | declareTruth name condition => exact execBlock_singleton scope frame _
  | giveBack answer => exact execBlock_singleton scope frame _
  | giveBackIf condition answer => exact execBlock_singleton scope frame _
  | guard condition answer => exact execBlock_singleton scope frame _
  | switch term cases default =>
    have hblock : ∀ within, execBlock scope within (Statement.plainBlock default) =
        execBlock scope within default := fun within => execBlock_plain within default
    have hcases : ∀ selector, execCases scope selector false frame (Statement.plainCases cases) =
        execCases scope selector false frame cases :=
      fun selector => execCases_plain selector false frame cases
    rw [Statement.plain, execBlock_singleton, Statement.exec, Statement.exec,
      mapM_labels_plainCases]
    simp only [hblock, hcases]

/-- **Reading leaves out nothing that is executed.** -/
theorem execBlock_plain (frame : Frame) (statements : List Statement) :
    execBlock scope frame (Statement.plainBlock statements) = execBlock scope frame statements := by
  cases statements with
  | nil => rfl
  | cons statement statements =>
    rw [Statement.plainBlock, execBlock_append, execBlock_plain_statement, execBlock]
    congr 1
    funext outcome
    cases outcome with
    | returned result => rfl
    | passed frame => exact execBlock_plain frame statements

theorem execCases_plain (selector : Code) (entered : Bool) (frame : Frame)
    (cases : List (String × List Statement)) :
    execCases scope selector entered frame (Statement.plainCases cases) =
      execCases scope selector entered frame cases := by
  cases cases with
  | nil => rfl
  | cons entry cases =>
    obtain ⟨label, block⟩ := entry
    rw [Statement.plainCases, execCases, execCases, execBlock_plain]
    split
    · congr 1
      funext outcome
      cases outcome with
      | returned result => rfl
      | passed frame => exact execCases_plain selector true frame cases
    · exact execCases_plain selector false frame cases

end

end Plain

end PlugTaxonomy.Cpp
