import PlugTaxonomy.Proofs.Cpp.Spelling
import PlugTaxonomy.Text.Field

/-!
# Reading generated sources

The reader is a machine over lexemes.  It holds the lexemes of a statement back until the statement
is complete, and keeps the switches that are still open, the innermost one first.

* `readCondition`, `readAnswer`, `readSimple` — expressions and statements without blocks;
* `Reading`, `Reading.step` — where the reader stands, and one more lexeme;
* `readSource` — the functions of a source.
-/

namespace PlugTaxonomy.Cpp

/-! ### Expressions -/

/-- The name behind an enumeration and two colons. -/
def scopedName? (enumeration : String) : List Lexeme → Option String
  | [.word word, .mark .scope, .word name] => if word = enumeration then some name else none
  | _ => none

def readTerm : List Lexeme → Option Term
  | [.word name] => some (.var name)
  | .word name :: .mark .mask :: ls => (scopedName? enumName ls).map (.masked (.var name))
  | ls => (scopedName? enumName ls).map .constant

/-- A term in a comparison, which binds tighter than a mask does. -/
def readOperand : List Lexeme → Option Term
  | [.word name] => some (.var name)
  | .mark .openParen :: ls =>
    if ls.getLast? = some (.mark .closeParen) then readTerm ls.dropLast else none
  | ls => (scopedName? enumName ls).map .constant

def readComparison (ls : List Lexeme) : Option Condition :=
  match Text.fields (.mark .equal) ls with
  | [left, right] => do return .equal (← readOperand left) (← readOperand right)
  | _ =>
    match Text.fields (.mark .differ) ls with
    | [left, right] =>
      if right = [.word "0"] then (readOperand left).map .nonzero
      else do return .differ (← readOperand left) (← readOperand right)
    | _ => none

/-- A truth value or a variable that holds one. -/
def wordCondition (name : String) : Condition :=
  if name = "true" then .constant true else if name = "false" then .constant false else .var name

/-- A single word, possibly negated. -/
def readWord : List Lexeme → Option Condition
  | [.word name] => some (wordCondition name)
  | [.mark .negation, .word name] => some (.negated (wordCondition name))
  | _ => none

/-- A condition that is no chain. -/
def readAtom (ls : List Lexeme) : Option Condition :=
  (readComparison ls).or (readWord ls)

/-- A chain of operands of one operator, which is bracketed from the left. -/
def readChain (operator : Mark) (join : Condition → Condition → Condition)
    (read : List Lexeme → Option Condition) (ls : List Lexeme) : Option Condition := do
  match ← (Text.fields (.mark operator) ls).mapM read with
  | [] => none
  | first :: others => return others.foldl join first

def readConjunction : List Lexeme → Option Condition :=
  readChain .both .both readAtom

def readCondition : List Lexeme → Option Condition :=
  readChain .either .either readConjunction

def readAnswer : List Lexeme → Option Answer
  | [.mark .openBrace, .mark .closeBrace] => some .empty
  | [.text text] => some (.label text)
  | [.word word] =>
    if word = "true" then some (.truth true) else if word = "false" then some (.truth false)
    else none
  | .word flag :: .mark .question :: ls =>
    match Text.fields (.mark .colon) ls with
    | [yes, no] => do
      return .choice flag (← scopedName? usageName yes) (← scopedName? usageName no)
    | _ => none
  | ls => (scopedName? usageName ls).map .usage

/-! ### Statements -/

/-- A conditional `return` behind its first bracket. -/
def readReturnIf (ls : List Lexeme) : Option Statement :=
  match Text.fields (.word "return") ls with
  | [condition, answer] =>
    if condition.getLast? = some (.mark .closeParen) then do
      return .giveBackIf (← readCondition condition.dropLast) (← readAnswer answer)
    else none
  | _ => none

/-- A statement that ends with a semicolon. -/
def readSimple : List Lexeme → Option Statement
  | .word keyword :: ls =>
    if keyword = "return" then (readAnswer ls).map .giveBack
    else
      match ls with
      | .mark .openParen :: ls => if keyword = "if" then readReturnIf ls else none
      | .word name :: .mark .assign :: ls =>
        if keyword = "auto" then (readTerm ls).map (.declareCode name)
        else if keyword = "bool" then (readCondition ls).map (.declareTruth name)
        else none
      | _ => none
  | _ => none

/-- The operand of a switch, behind its keyword. -/
def readSwitch : List Lexeme → Option Term
  | .mark .openParen :: ls =>
    if ls.getLast? = some (.mark .closeParen) then readTerm ls.dropLast else none
  | _ => none

/-! ### Functions -/

/-- A function as it is read: its result, its name, its parameters, which are codes, and its body. -/
structure Definition where
  result : String
  name : String
  parameters : List String
  body : List Statement

/-- The parameters of a function, behind the opening bracket. -/
def readParameters : List Lexeme → Option (List String)
  | [.word type, .word name, .mark .closeParen] => if type = enumName then some [name] else none
  | .word type :: .word name :: .mark .comma :: ls =>
    if type = enumName then (readParameters ls).map (name :: ·) else none
  | _ => none

/-- The head of a function, its body being left empty. -/
def readHead : List Lexeme → Option Definition
  | .word result :: .word name :: .mark .openParen :: ls =>
    (readParameters ls).map fun parameters => ⟨result, name, parameters, []⟩
  | _ => none

/-! ### The machine -/

/-- The label under which the statements of a switch are read. -/
inductive Label where
  /-- There has been none yet. -/
  | none
  | case (name : String)
  | default

/-- A switch that is still open, with the statements in front of it and the cases behind it that are
complete. -/
structure OpenSwitch where
  before : List Statement
  term : Term
  cases : List (String × List Statement)
  label : Label

/-- The complete cases of a switch once another label follows the statements of a block. -/
def OpenSwitch.finished? (open_ : OpenSwitch) (block : List Statement) :
    Option (List (String × List Statement)) :=
  match open_.label with
  | .none => if block.isEmpty then some open_.cases else none
  | .case name => some (open_.cases ++ [(name, block)])
  | .default => none

/-- Where reading stands. -/
structure Reading where
  /-- The functions that are complete. -/
  functions : List Definition
  /-- The head of the function that is being read. -/
  head : Option Definition
  switches : List OpenSwitch
  /-- The statements of the innermost block. -/
  block : List Statement
  /-- The lexemes that are held back. -/
  held : List Lexeme

namespace Reading

def start : Reading :=
  ⟨[], none, [], [], []⟩

def hold (reading : Reading) (lexeme : Lexeme) : Reading :=
  { reading with held := reading.held ++ [lexeme] }

/-- A semicolon behind a statement without blocks. -/
def complete (reading : Reading) : Option Reading := do
  let statement ← readSimple reading.held
  return { reading with block := reading.block ++ [statement], held := [] }

/-- The brace that opens the block of a switch. -/
def openSwitch (reading : Reading) : Option Reading := do
  let term ← readSwitch reading.held.tail
  return { reading with
    switches := ⟨reading.block, term, [], .none⟩ :: reading.switches, block := [], held := [] }

/-- The label that held lexemes are. -/
def label? : List Lexeme → Option Label
  | [.word keyword] => if keyword = "default" then some .default else none
  | .word keyword :: ls =>
    if keyword = "case" then (scopedName? enumName ls).map .case else none
  | _ => none

/-- The colon behind a label of the innermost switch. -/
def enterLabel (reading : Reading) : Option Reading :=
  match reading.switches with
  | [] => none
  | open_ :: switches => do
    let label ← label? reading.held
    let cases ← open_.finished? reading.block
    return { reading with
      switches := { open_ with cases := cases, label := label } :: switches, block := [], held := [] }

/-- A closing brace, which ends a switch in its default or else the function. -/
def close (reading : Reading) (head : Definition) : Option Reading :=
  match reading.switches with
  | [] =>
    some { reading with
      functions := reading.functions ++ [{ head with body := reading.block }], head := none,
      block := [] }
  | open_ :: switches =>
    match open_.label with
    | .default =>
      some { reading with
        switches := switches
        block := open_.before ++ [.switch open_.term open_.cases reading.block] }
    | _ => none

/-- What completes that which a lexeme has begun. -/
def terminator (first : Lexeme) : Mark :=
  if first = .word "switch" then .openBrace
  else if first = .word "case" ∨ first = .word "default" then .colon
  else .semicolon

/-- The state behind that which a lexeme has begun. -/
def advance (reading : Reading) (first : Lexeme) : Option Reading :=
  if first = .word "switch" then reading.openSwitch
  else if first = .word "case" ∨ first = .word "default" then reading.enterLabel
  else reading.complete

/-- One more lexeme.  Within a function, a brace closes a block where no statement has begun. -/
def step (reading : Reading) (lexeme : Lexeme) : Option Reading :=
  match reading.head, reading.held with
  | none, held =>
    if lexeme = .mark .openBrace then do
      return { reading with head := some (← readHead held), held := [] }
    else some (reading.hold lexeme)
  | some head, [] =>
    if lexeme = .mark .closeBrace then reading.close head else some (reading.hold lexeme)
  | some _, first :: _ =>
    if lexeme = .mark (terminator first) then reading.advance first
    else some (reading.hold lexeme)

/-- The functions that have been read when the source ends. -/
def finish (reading : Reading) : Option (List Definition) :=
  if reading.head.isNone ∧ reading.held = [] then some reading.functions else none

end Reading

/-- The functions of a source. -/
def readSource (source : String) : Option (List Definition) := do
  let reading ← (← Lexeme.read source).foldlM Reading.step Reading.start
  reading.finish

end PlugTaxonomy.Cpp
