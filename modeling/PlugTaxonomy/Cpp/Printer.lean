import PlugTaxonomy.Cpp.Literal
import PlugTaxonomy.Cpp.Program

/-!
# Written function bodies

* `Term.text`, `Condition.text`, `Answer.text` — the written forms of expressions;
* `Statement.lines` — the lines of a statement, one tab for each block around it;
* `Function.lines` — the lines of a function.
-/

namespace PlugTaxonomy.Cpp

/-- The name of the enumeration of codes. -/
def enumName : String := "PlugType"

/-- The name of the enumeration of usages. -/
def usageName : String := "Usage"

/-- A constant of the enumeration of codes. -/
def constantText (name : String) : String :=
  enumName ++ "::" ++ name

def usageText (name : String) : String :=
  usageName ++ "::" ++ name

namespace Term

def text : Term → String
  | .var name => name
  | .constant name => constantText name
  | .masked term mask => term.text ++ " & " ++ constantText mask

/-- A term as it stands in a comparison. -/
def operandText : Term → String
  | .masked term mask => "(" ++ (masked term mask).text ++ ")"
  | term => term.text

end Term

def truthText (value : Bool) : String :=
  if value then "true" else "false"

def Condition.text : Condition → String
  | .var name => name
  | .constant value => truthText value
  | .equal left right => left.operandText ++ " == " ++ right.operandText
  | .differ left right => left.operandText ++ " != " ++ right.operandText
  | .nonzero term => term.operandText ++ " != 0"
  | .negated condition => "!" ++ condition.text
  | .both left right => left.text ++ " && " ++ right.text
  | .either left right => left.text ++ " || " ++ right.text

def Answer.text : Answer → String
  | .empty => "\x7b\x7d"
  | .label text => literal text
  | .truth value => truthText value
  | .usage name => usageText name
  | .choice name yes no => name ++ " ? " ++ usageText yes ++ " : " ++ usageText no

/-- The blanks in front of a line within blocks. -/
def indent (depth : Nat) : String :=
  String.ofList (List.replicate depth '\t')

mutual

/-- The lines of a statement. -/
def Statement.lines (depth : Nat) : Statement → List String
  | .comment text => [indent depth ++ "// " ++ text]
  | .blank => [""]
  | .declareCode name term => [indent depth ++ "auto " ++ name ++ " = " ++ term.text ++ ";"]
  | .declareTruth name condition =>
    [indent depth ++ "bool " ++ name ++ " = " ++ condition.text ++ ";"]
  | .giveBack answer => [indent depth ++ "return " ++ answer.text ++ ";"]
  | .giveBackIf condition answer =>
    [indent depth ++ "if (" ++ condition.text ++ ") return " ++ answer.text ++ ";"]
  | .guard condition answer =>
    [indent depth ++ "if (" ++ condition.text ++ ")",
     indent (depth + 1) ++ "return " ++ answer.text ++ ";"]
  | .switch term cases default =>
    (indent depth ++ "switch (" ++ term.text ++ ") \x7b") ::
      Statement.caseLines depth cases ++
      (indent depth ++ "default:") :: Statement.blockLines (depth + 1) default ++
      [indent depth ++ "\x7d"]

/-- The lines of statements one after the other. -/
def Statement.blockLines (depth : Nat) : List Statement → List String
  | [] => []
  | statement :: statements =>
    statement.lines depth ++ Statement.blockLines depth statements

/-- The lines of the cases of a switch. -/
def Statement.caseLines (depth : Nat) : List (String × List Statement) → List String
  | [] => []
  | (constant, block) :: cases =>
    (indent depth ++ "case " ++ constantText constant ++ ":") ::
      Statement.blockLines (depth + 1) block ++ Statement.caseLines depth cases

end

/-- The lines of a function. -/
def Function.lines (function : Function) : List String :=
  (function.head ++ " \x7b") :: Statement.blockLines 1 function.body ++ ["\x7d"]

/-- A text of lines, each with a line break at its end. -/
def linesText (lines : List String) : String :=
  String.join (lines.map (· ++ "\n"))

end PlugTaxonomy.Cpp
