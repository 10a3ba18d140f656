import PlugTaxonomy.Proofs.Cpp.Lexeme

/-!
# Printed bodies as lexemes

What is printed of a statement is taken apart into the lexemes of that statement, as long as its
names are names and its comments do not reach into the next line.

* `Term.lexemes`, `Condition.lexemes`, `Answer.lexemes`, `Statement.lexemes` — the lexemes of each
  construct, of which comments and empty lines have none;
* `Statement.Legible` — names are names, and conditions need no brackets;
* `lexes_statement` — the lines of a legible statement are taken apart into its lexemes.
-/

namespace PlugTaxonomy.Cpp

/-! ### Lexemes of each construct -/

/-- The lexemes of a constant of an enumeration. -/
def scopedLexemes (enumeration name : String) : List Lexeme :=
  [.word enumeration, .mark .scope, .word name]

namespace Term

def lexemes : Term → List Lexeme
  | .var name => [.word name]
  | .constant name => scopedLexemes enumName name
  | .masked term mask => term.lexemes ++ .mark .mask :: scopedLexemes enumName mask

/-- The lexemes of a term as it stands in a comparison. -/
def operandLexemes : Term → List Lexeme
  | .masked term mask =>
    .mark .openParen :: ((masked term mask).lexemes ++ [.mark .closeParen])
  | term => term.lexemes

end Term

def Condition.lexemes : Condition → List Lexeme
  | .var name => [.word name]
  | .constant value => [.word (truthText value)]
  | .equal left right => left.operandLexemes ++ .mark .equal :: right.operandLexemes
  | .differ left right => left.operandLexemes ++ .mark .differ :: right.operandLexemes
  | .nonzero term => term.operandLexemes ++ [.mark .differ, .word "0"]
  | .negated condition => .mark .negation :: condition.lexemes
  | .both left right => left.lexemes ++ .mark .both :: right.lexemes
  | .either left right => left.lexemes ++ .mark .either :: right.lexemes

def Answer.lexemes : Answer → List Lexeme
  | .empty => [.mark .openBrace, .mark .closeBrace]
  | .label text => [.text text]
  | .truth value => [.word (truthText value)]
  | .usage name => scopedLexemes usageName name
  | .choice flag yes no =>
    .word flag :: .mark .question :: (scopedLexemes usageName yes ++
      .mark .colon :: scopedLexemes usageName no)

/-- The lexemes of a conditional `return`. -/
def returnIfLexemes (condition : Condition) (answer : Answer) : List Lexeme :=
  .word "if" :: .mark .openParen :: (condition.lexemes ++
    .mark .closeParen :: .word "return" :: (answer.lexemes ++ [.mark .semicolon]))

mutual

def Statement.lexemes : Statement → List Lexeme
  | .comment _ => []
  | .blank => []
  | .declareCode name term =>
    .word "auto" :: .word name :: .mark .assign :: (term.lexemes ++ [.mark .semicolon])
  | .declareTruth name condition =>
    .word "bool" :: .word name :: .mark .assign :: (condition.lexemes ++ [.mark .semicolon])
  | .giveBack answer => .word "return" :: (answer.lexemes ++ [.mark .semicolon])
  | .giveBackIf condition answer => returnIfLexemes condition answer
  | .guard condition answer => returnIfLexemes condition answer
  | .switch term cases default =>
    .word "switch" :: .mark .openParen :: (term.lexemes ++
      .mark .closeParen :: .mark .openBrace :: (Statement.caseLexemes cases ++
        .word "default" :: .mark .colon :: (Statement.blockLexemes default ++
          [.mark .closeBrace])))

/-- The lexemes of statements one after the other. -/
def Statement.blockLexemes : List Statement → List Lexeme
  | [] => []
  | statement :: statements => statement.lexemes ++ Statement.blockLexemes statements

/-- The lexemes of the cases of a switch. -/
def Statement.caseLexemes : List (String × List Statement) → List Lexeme
  | [] => []
  | (constant, block) :: cases =>
    .word "case" :: (scopedLexemes enumName constant ++
      .mark .colon :: (Statement.blockLexemes block ++ Statement.caseLexemes cases))

end

/-! ### Legible statements -/

/-- At most one mask is put on a variable. -/
def Term.Legible : Term → Prop
  | .var name => isName name = true
  | .constant name => isName name = true
  | .masked (.var name) mask => isName name = true ∧ isName mask = true
  | .masked _ _ => False

/-- How tightly a condition binds. -/
def Condition.rank : Condition → Nat
  | .either _ _ => 1
  | .both _ _ => 2
  | _ => 3

/-- Conditions in which no brackets are missing: chains grow on their left, and only variables are
negated. -/
def Condition.Legible : Condition → Prop
  | .var name => isName name = true
  | .constant _ => True
  | .equal left right => left.Legible ∧ right.Legible
  | .differ left right => left.Legible ∧ right.Legible
  | .nonzero term => term.Legible
  | .negated (.var name) => isName name = true
  | .negated _ => False
  | .both left right => left.Legible ∧ right.Legible ∧ 2 ≤ left.rank ∧ 3 ≤ right.rank
  | .either left right => left.Legible ∧ right.Legible ∧ 2 ≤ right.rank

def Answer.Legible : Answer → Prop
  | .empty => True
  | .label _ => True
  | .truth _ => True
  | .usage name => isName name = true
  | .choice flag yes no => isName flag = true ∧ isName yes = true ∧ isName no = true

mutual

def Statement.Legible : Statement → Prop
  | .comment text => ∀ c ∈ text.toList, c ≠ '\n' ∧ c ≠ '\\'
  | .blank => True
  | .declareCode name term => isName name = true ∧ term.Legible
  | .declareTruth name condition => isName name = true ∧ condition.Legible
  | .giveBack answer => answer.Legible
  | .giveBackIf condition answer => condition.Legible ∧ answer.Legible
  | .guard condition answer => condition.Legible ∧ answer.Legible
  | .switch term cases default =>
    term.Legible ∧ Statement.CasesLegible cases ∧ Statement.BlockLegible default

def Statement.BlockLegible : List Statement → Prop
  | [] => True
  | statement :: statements => statement.Legible ∧ Statement.BlockLegible statements

def Statement.CasesLegible : List (String × List Statement) → Prop
  | [] => True
  | (constant, block) :: cases =>
    isName constant = true ∧ Statement.BlockLegible block ∧ Statement.CasesLegible cases

end

/-! ### Expressions -/

theorem reads_name {name : String} (h : isName name = true) : Reads name [.word name] :=
  reads_word (isWord_of_isName h)

theorem reads_constantText {name : String} (h : isName name = true) :
    Reads (constantText name) (scopedLexemes enumName name) := by
  have henum : scan .ready (enumName ++ "::").toList =
      some ([.word enumName], .operator [':', ':']) := rfl
  exact reads_operator_word henum rfl (isWord_of_isName h)

theorem reads_usageText {name : String} (h : isName name = true) :
    Reads (usageText name) (scopedLexemes usageName name) := by
  have henum : scan .ready (usageName ++ "::").toList =
      some ([.word usageName], .operator [':', ':']) := rfl
  exact reads_operator_word henum rfl (isWord_of_isName h)

theorem reads_term {term : Term} (h : term.Legible) : Reads term.text term.lexemes := by
  have hmask : Lexes " & " [.mark .mask] := rfl
  match term, h with
  | .var name, h => exact reads_name h
  | .constant name, h => exact reads_constantText h
  | .masked (.var name) mask, h =>
    exact (reads_name h.1).joined hmask rfl (reads_constantText h.2)

theorem reads_operand {term : Term} (h : term.Legible) :
    Reads term.operandText term.operandLexemes := by
  match term, h with
  | .var name, h => exact reads_term h
  | .constant name, h => exact reads_term h
  | .masked (.var name) mask, h =>
    have hopen : Lexes "(" [.mark .openParen] := rfl
    have hclose : Lexes ")" [.mark .closeParen] := rfl
    exact ((hopen.then_reads (reads_term h)).then_lexes hclose rfl).reads

theorem reads_truthText (value : Bool) : Reads (truthText value) [.word (truthText value)] := by
  cases value with
  | false => exact reads_word (by decide)
  | true => exact reads_word (by decide)

theorem reads_condition {condition : Condition} (h : condition.Legible) :
    Reads condition.text condition.lexemes := by
  have hequal : Lexes " == " [.mark .equal] := rfl
  have hdiffer : Lexes " != " [.mark .differ] := rfl
  have hboth : Lexes " && " [.mark .both] := rfl
  have heither : Lexes " || " [.mark .either] := rfl
  induction condition with
  | var name => exact reads_name h
  | constant value => exact reads_truthText value
  | equal left right => exact (reads_operand h.1).joined hequal rfl (reads_operand h.2)
  | differ left right => exact (reads_operand h.1).joined hdiffer rfl (reads_operand h.2)
  | nonzero term =>
    have hzero : Reads "0" [.word "0"] := ⟨[], .word ['0'], [.word "0"], rfl, rfl, rfl⟩
    have htext : (Condition.nonzero term).text = term.operandText ++ " != " ++ "0" := by
      rw [Condition.text, String.append_assoc]
      rfl
    rw [htext]
    exact (reads_operand h).joined hdiffer rfl hzero
  | negated condition ih =>
    match condition, h with
    | .var name, h =>
      have hnegation : scan .ready "!".toList = some ([], .operator ['!']) := rfl
      exact reads_operator_word hnegation rfl (isWord_of_isName h)
  | both left right ihleft ihright => exact (ihleft h.1).joined hboth rfl (ihright h.2.1)
  | either left right ihleft ihright => exact (ihleft h.1).joined heither rfl (ihright h.2.1)

theorem reads_answer {answer : Answer} (h : answer.Legible) :
    Reads answer.text answer.lexemes := by
  cases answer with
  | empty =>
    have hempty : Lexes "\x7b\x7d" [.mark .openBrace, .mark .closeBrace] := rfl
    exact hempty.reads
  | label text => exact (lexes_literal text).reads
  | truth value => exact reads_truthText value
  | usage name => exact reads_usageText h
  | choice flag yes no =>
    obtain ⟨hflag, hyes, hno⟩ := h
    have hquestion : Lexes " ? " [.mark .question] := rfl
    have hcolon : Lexes " : " [.mark .colon] := rfl
    exact ((reads_name hflag).joined hquestion rfl
      (reads_usageText hyes)).joined hcolon rfl (reads_usageText hno)

/-! ### Statements -/

theorem linesText_cons (line : String) (lines : List String) :
    linesText (line :: lines) = line ++ "\n" ++ linesText lines := by
  rw [linesText, List.map_cons, String.join_cons]
  rfl

theorem linesText_append (lines others : List String) :
    linesText (lines ++ others) = linesText lines ++ linesText others := by
  rw [linesText, List.map_append, String.join_append]
  rfl

theorem lexes_indent (depth : Nat) : Lexes (indent depth) [] := by
  rw [Lexes, indent, String.toList_ofList]
  induction depth with
  | zero => rfl
  | succ depth ih =>
    have htab : Scan.step .ready '\t' = some ([], .ready) := rfl
    exact scan_cons htab ih

theorem lexes_nil : Lexes (linesText []) [] := rfl

/-- The end of a line ends what may be pending. -/
theorem Reads.lexes_cons {line : String} {lines : List String} {found others : List Lexeme}
    (h : Reads line found) (hlines : Lexes (linesText lines) others) :
    Lexes (linesText (line :: lines)) (found ++ others) := by
  have hbreak : Lexes "\n" [] := rfl
  have hline := (h.then_lexes hbreak rfl).append hlines
  rw [List.append_nil] at hline
  rw [linesText_cons]
  exact hline

/-- A line that ends with a semicolon. -/
theorem Reads.lexes_ended {line : String} {found : List Lexeme} (h : Reads line found) :
    Lexes (linesText [line ++ ";"]) (found ++ [.mark .semicolon]) := by
  have hsemicolon : Lexes ";" [.mark .semicolon] := rfl
  have hline := (h.then_lexes hsemicolon rfl).reads.lexes_cons lexes_nil
  rw [List.append_nil] at hline
  exact hline

/-- A line that ends with the colon of a label. -/
theorem Reads.lexes_label {line : String} {lines : List String} {found others : List Lexeme}
    (h : Reads line found) (hlines : Lexes (linesText lines) others) :
    Lexes (linesText ((line ++ ":") :: lines)) (found ++ .mark .colon :: others) := by
  have hcolon : Lexes (":" ++ "\n") [.mark .colon] := rfl
  have hline := (h.then_lexes hcolon rfl).append hlines
  rw [List.append_assoc, ← String.append_assoc] at hline
  rw [linesText_cons]
  exact hline

mutual

/-- The lines of a legible statement are taken apart into its lexemes. -/
theorem lexes_statement (depth : Nat) (statement : Statement) (h : statement.Legible) :
    Lexes (linesText (statement.lines depth)) statement.lexemes := by
  cases statement with
  | comment text =>
    have hcomment := (lexes_indent depth).append (lexes_comment h)
    rw [← String.append_assoc, ← String.append_assoc] at hcomment
    rw [Statement.lines, linesText_cons]
    exact hcomment.append lexes_nil
  | blank =>
    have hempty : Lexes "" [] := rfl
    exact hempty.reads.lexes_cons lexes_nil
  | declareCode name term =>
    have hauto : Lexes "auto " [.word "auto"] := rfl
    have hassign : Lexes " = " [.mark .assign] := rfl
    have hname := ((lexes_indent depth).append hauto).then_reads
      (reads_name h.1)
    exact (hname.joined hassign rfl (reads_term h.2)).lexes_ended
  | declareTruth name condition =>
    have hbool : Lexes "bool " [.word "bool"] := rfl
    have hassign : Lexes " = " [.mark .assign] := rfl
    have hname := ((lexes_indent depth).append hbool).then_reads
      (reads_name h.1)
    exact (hname.joined hassign rfl (reads_condition h.2)).lexes_ended
  | giveBack answer =>
    have hreturn : Lexes "return " [.word "return"] := rfl
    exact (((lexes_indent depth).append hreturn).then_reads (reads_answer h)).lexes_ended
  | giveBackIf condition answer =>
    have hif : Lexes "if (" [.word "if", .mark .openParen] := rfl
    have hreturn : Lexes ") return " [.mark .closeParen, .word "return"] := rfl
    have hcondition := ((lexes_indent depth).append hif).then_reads (reads_condition h.1)
    have hline := (hcondition.joined hreturn rfl (reads_answer h.2)).lexes_ended
    rw [List.append_assoc] at hline
    exact hline
  | guard condition answer =>
    have hif : Lexes "if (" [.word "if", .mark .openParen] := rfl
    have hclose : Lexes ")" [.mark .closeParen] := rfl
    have hreturn : Lexes "return " [.word "return"] := rfl
    have hcondition := ((lexes_indent depth).append hif).then_reads (reads_condition h.1)
    have hanswer := ((lexes_indent (depth + 1)).append hreturn).then_reads (reads_answer h.2)
    have hlines := (hcondition.then_lexes hclose rfl).reads.lexes_cons hanswer.lexes_ended
    rw [List.append_assoc] at hlines
    exact hlines
  | switch term cases default =>
    obtain ⟨hterm, hcases, hdefault⟩ := h
    have hswitch : Lexes "switch (" [.word "switch", .mark .openParen] := rfl
    have hopen : Lexes ") \x7b" [.mark .closeParen, .mark .openBrace] := rfl
    have hlabel : Reads "default" [.word "default"] := reads_word (by decide)
    have hclose : Lexes "\x7d" [.mark .closeBrace] := rfl
    have hcolon : "default:" = "default" ++ ":" := rfl
    have hhead := (((lexes_indent depth).append hswitch).then_reads (reads_term hterm)).then_lexes
      hopen rfl
    have hend := ((lexes_indent depth).append hclose).reads.lexes_cons lexes_nil
    have hblock := (lexes_block (depth + 1) default hdefault).append hend
    rw [← linesText_append] at hblock
    have hbehind := ((lexes_indent depth).then_reads hlabel).lexes_label hblock
    have hlabels := (lexes_cases depth cases hcases).append hbehind
    rw [← linesText_append] at hlabels
    have hlines := hhead.reads.lexes_cons hlabels
    rw [List.append_assoc] at hlines
    rw [Statement.lines, hcolon, ← String.append_assoc, List.append_assoc]
    exact hlines

theorem lexes_block (depth : Nat) (statements : List Statement)
    (h : Statement.BlockLegible statements) :
    Lexes (linesText (Statement.blockLines depth statements)) (Statement.blockLexemes statements) := by
  cases statements with
  | nil => exact lexes_nil
  | cons statement statements =>
    rw [Statement.blockLines, linesText_append]
    exact (lexes_statement depth statement h.1).append (lexes_block depth statements h.2)

theorem lexes_cases (depth : Nat) (cases : List (String × List Statement))
    (h : Statement.CasesLegible cases) :
    Lexes (linesText (Statement.caseLines depth cases)) (Statement.caseLexemes cases) := by
  cases cases with
  | nil => exact lexes_nil
  | cons entry cases =>
    obtain ⟨constant, block⟩ := entry
    obtain ⟨hconstant, hblock, hcases⟩ := h
    have hcase : Lexes "case " [.word "case"] := rfl
    have hlabel := ((lexes_indent depth).append hcase).then_reads (reads_constantText hconstant)
    have hlines := (lexes_block (depth + 1) block hblock).append (lexes_cases depth cases hcases)
    rw [← linesText_append] at hlines
    exact hlabel.lexes_label hlines

end

end PlugTaxonomy.Cpp
