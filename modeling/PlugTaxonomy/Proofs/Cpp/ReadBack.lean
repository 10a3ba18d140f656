import PlugTaxonomy.Proofs.Cpp.Expressions
import PlugTaxonomy.Proofs.Cpp.Plain

/-!
# Printed functions are read back

What is printed of a function with a legible body is read as that function, its comments and empty
lines left out and its guards put on one line.

* `Reading.foldlM_hold`, `Reading.foldlM_begun` — what a word has begun is held back until it is
  complete;
* `Reading.foldlM_statement`, `Reading.foldlM_block`, `Reading.foldlM_cases` — the machine over
  legible statements;
* `Yields` — some lines hold some functions;
* `yields_function`, `readSource_of_yields` — a printed function, and a whole source.
-/

namespace PlugTaxonomy.Cpp

/-! ### Conditional returns -/

theorem readReturnIf_lexemes {condition : Condition} {answer : Answer}
    (hcondition : condition.Legible) (hanswer : answer.Legible) :
    readReturnIf (condition.lexemes ++ .mark .closeParen :: .word "return" :: answer.lexemes) =
      some (.giveBackIf condition answer) := by
  have hlist : condition.lexemes ++ .mark .closeParen :: .word "return" :: answer.lexemes =
      (condition.lexemes ++ [.mark .closeParen]) ++ .word "return" :: answer.lexemes := by
    rw [List.append_assoc]
    rfl
  have hnot : .word "return" ∉ condition.lexemes ++ [.mark .closeParen] := by
    rw [List.mem_append, not_or]
    exact ⟨(not_mem_condition hcondition).2, by decide⟩
  rw [hlist, readReturnIf, Text.fields_append_cons, Text.fields_of_not_mem hnot,
    Text.fields_of_not_mem (not_mem_answer hanswer).2, List.singleton_append]
  dsimp only
  rw [List.getLast?_concat, if_pos rfl, List.dropLast_concat, readCondition_lexemes hcondition,
    readAnswer_lexemes]
  rfl

/-! ### The machine -/

namespace Reading

/-- Lexemes are read one part after the other. -/
theorem foldlM_append_of_eq_some {ls ms : List Lexeme} {reading next : Reading}
    (h : ls.foldlM step reading = some next) :
    (ls ++ ms).foldlM step reading = ms.foldlM step next := by
  rw [List.foldlM_append, h, Option.bind_eq_bind, Option.bind_some]

variable {functions : List Definition} {head : Definition} {switches : List OpenSwitch}
  {block : List Statement}

/-- What has been begun is held back until it is complete. -/
theorem foldlM_hold {first : Lexeme} {held ls : List Lexeme} (hls : .mark (terminator first) ∉ ls) :
    ls.foldlM step ⟨functions, some head, switches, block, first :: held⟩ =
      some ⟨functions, some head, switches, block, first :: held ++ ls⟩ := by
  induction ls generalizing held with
  | nil => rw [List.append_nil]; rfl
  | cons l ls ih =>
    obtain ⟨hl, hls⟩ := List.ne_and_not_mem_of_not_mem_cons hls
    have hstep : step ⟨functions, some head, switches, block, first :: held⟩ l =
        some ⟨functions, some head, switches, block, first :: (held ++ [l])⟩ := if_neg (Ne.symm hl)
    rw [List.foldlM_cons, hstep, Option.bind_eq_bind, Option.bind_some, ih hls]
    rw [List.cons_append, List.append_assoc]
    rfl

/-- What a word has begun is taken up once it is complete. -/
theorem foldlM_begun {word : String} {mark : Mark} {ls : List Lexeme}
    (hmark : terminator (.word word) = mark) (hls : .mark mark ∉ ls) :
    (.word word :: (ls ++ [.mark mark])).foldlM step ⟨functions, some head, switches, block, []⟩ =
      advance ⟨functions, some head, switches, block, .word word :: ls⟩ (.word word) := by
  subst hmark
  have hbrace : Lexeme.word word ≠ .mark .closeBrace := nofun
  have hbegin : step ⟨functions, some head, switches, block, []⟩ (.word word) =
      some ⟨functions, some head, switches, block, [.word word]⟩ := by
    simp only [step, if_neg hbrace]
    rfl
  have hend : step ⟨functions, some head, switches, block, .word word :: ls⟩
      (.mark (terminator (.word word))) =
        advance ⟨functions, some head, switches, block, .word word :: ls⟩ (.word word) := if_pos rfl
  rw [List.foldlM_cons, hbegin, Option.bind_eq_bind, Option.bind_some,
    foldlM_append_of_eq_some (foldlM_hold hls), List.foldlM_cons, List.singleton_append, hend]
  cases advance ⟨functions, some head, switches, block, .word word :: ls⟩ (.word word) <;> rfl

/-- A statement that ends with a semicolon is put behind the block. -/
theorem foldlM_simple {keyword : String} {ls : List Lexeme} {statement : Statement}
    (hkeyword : keyword ∈ ["auto", "bool", "if", "return"]) (hls : .mark .semicolon ∉ ls)
    (hread : readSimple (.word keyword :: ls) = some statement) :
    (.word keyword :: (ls ++ [.mark .semicolon])).foldlM step
        ⟨functions, some head, switches, block, []⟩ =
      some ⟨functions, some head, switches, block ++ [statement], []⟩ := by
  have hother : ∀ word ∈ ["auto", "bool", "if", "return"],
      Lexeme.word word ≠ .word "switch" ∧
        ¬(Lexeme.word word = .word "case" ∨ Lexeme.word word = .word "default") := by decide
  obtain ⟨hswitch, hlabel⟩ := hother keyword hkeyword
  have hmark : terminator (.word keyword) = .semicolon := by
    rw [terminator, if_neg hswitch, if_neg hlabel]
  rw [foldlM_begun hmark hls, advance, if_neg hswitch, if_neg hlabel, complete, hread]
  rfl

theorem foldlM_returnIf {condition : Condition} {answer : Answer} (hcondition : condition.Legible)
    (hanswer : answer.Legible) :
    (returnIfLexemes condition answer).foldlM step ⟨functions, some head, switches, block, []⟩ =
      some ⟨functions, some head, switches, block ++ [.giveBackIf condition answer], []⟩ := by
  have hlist : returnIfLexemes condition answer =
      .word "if" :: ((.mark .openParen :: (condition.lexemes ++
        .mark .closeParen :: .word "return" :: answer.lexemes)) ++ [.mark .semicolon]) := by
    simp [returnIfLexemes]
  have hsemicolon : .mark .semicolon ∉ .mark .openParen :: (condition.lexemes ++
      .mark .closeParen :: .word "return" :: answer.lexemes) := by
    simp [(not_mem_condition hcondition).1, (not_mem_answer hanswer).1]
  rw [hlist]
  refine foldlM_simple (by decide) hsemicolon ?_
  exact readReturnIf_lexemes hcondition hanswer

/-- The head of a switch opens a new block. -/
theorem foldlM_switch {term : Term} (h : term.Legible) :
    (.word "switch" :: .mark .openParen ::
        (term.lexemes ++ [.mark .closeParen, .mark .openBrace])).foldlM step
        ⟨functions, some head, switches, block, []⟩ =
      some ⟨functions, some head, ⟨block, term, [], .none⟩ :: switches, [], []⟩ := by
  have hterm : .mark .openBrace ∉ term.lexemes := by
    refine not_mem_of_rank fun l hl => ?_
    rw [rank_term h l hl]
    decide
  have hbrace : .mark .openBrace ∉ .mark .openParen :: (term.lexemes ++ [.mark .closeParen]) := by
    rw [List.mem_cons, List.mem_append, not_or, not_or]
    exact ⟨nofun, hterm, by decide⟩
  have hlist : .mark .openParen :: (term.lexemes ++ [.mark .closeParen, .mark .openBrace]) =
      (.mark .openParen :: (term.lexemes ++ [.mark .closeParen])) ++ [.mark .openBrace] := by
    rw [List.cons_append, List.append_assoc]
    rfl
  have hread : readSwitch (.mark .openParen :: (term.lexemes ++ [.mark .closeParen])) =
      some term := by
    rw [readSwitch, List.getLast?_concat, if_pos rfl, List.dropLast_concat, readTerm_lexemes h]
  have hmark : terminator (.word "switch") = .openBrace := rfl
  rw [hlist, foldlM_begun hmark hbrace]
  show (readSwitch (.mark .openParen :: (term.lexemes ++ [.mark .closeParen]))).bind _ = _
  rw [hread]
  rfl

section Labels

variable {open_ : OpenSwitch} {cases : List (String × List Statement)}

/-- A label completes the case in front of it. -/
theorem foldlM_case (h : open_.finished? block = some cases) (constant : String) :
    (.word "case" :: (scopedLexemes enumName constant ++ [.mark .colon])).foldlM step
        ⟨functions, some head, open_ :: switches, block, []⟩ =
      some ⟨functions, some head,
        ⟨open_.before, open_.term, cases, .case constant⟩ :: switches, [], []⟩ := by
  have hcolon : .mark .colon ∉ scopedLexemes enumName constant := by
    simp [scopedLexemes]
  have hmark : terminator (.word "case") = .colon := rfl
  rw [foldlM_begun hmark hcolon]
  show (open_.finished? block).bind _ = _
  rw [h]
  rfl

theorem foldlM_default (h : open_.finished? block = some cases) :
    [Lexeme.word "default", .mark .colon].foldlM step
        ⟨functions, some head, open_ :: switches, block, []⟩ =
      some ⟨functions, some head,
        ⟨open_.before, open_.term, cases, .default⟩ :: switches, [], []⟩ := by
  have hmark : terminator (.word "default") = .colon := rfl
  refine (foldlM_begun hmark List.not_mem_nil).trans ?_
  show (open_.finished? block).bind _ = _
  rw [h]
  rfl

end Labels

mutual

/-- The lexemes of a legible statement are read as that statement, without comments. -/
theorem foldlM_statement (statement : Statement) (h : statement.Legible)
    (switches : List OpenSwitch) (block : List Statement) :
    statement.lexemes.foldlM step ⟨functions, some head, switches, block, []⟩ =
      some ⟨functions, some head, switches, block ++ statement.plain, []⟩ := by
  cases statement with
  | comment text =>
    rw [Statement.plain, List.append_nil]
    rfl
  | blank =>
    rw [Statement.plain, List.append_nil]
    rfl
  | declareCode name term =>
    have hterm : .mark .semicolon ∉ term.lexemes := by
      refine not_mem_of_rank fun l hl => ?_
      rw [rank_term h.2 l hl]
      decide
    have hsemicolon : .mark .semicolon ∉ .word name :: .mark .assign :: term.lexemes := by
      rw [List.mem_cons, List.mem_cons, not_or, not_or]
      exact ⟨nofun, nofun, hterm⟩
    refine foldlM_simple (by decide) hsemicolon ?_
    show (readTerm term.lexemes).map _ = _
    rw [readTerm_lexemes h.2]
    rfl
  | declareTruth name condition =>
    have hsemicolon : .mark .semicolon ∉ .word name :: .mark .assign :: condition.lexemes := by
      rw [List.mem_cons, List.mem_cons, not_or, not_or]
      exact ⟨nofun, nofun, (not_mem_condition h.2).1⟩
    refine foldlM_simple (by decide) hsemicolon ?_
    show (readCondition condition.lexemes).map _ = _
    rw [readCondition_lexemes h.2]
    rfl
  | giveBack answer =>
    refine foldlM_simple (by decide) (not_mem_answer h).1 ?_
    show (readAnswer answer.lexemes).map _ = _
    rw [readAnswer_lexemes]
    rfl
  | giveBackIf condition answer => exact foldlM_returnIf h.1 h.2
  | guard condition answer => exact foldlM_returnIf h.1 h.2
  | switch term cases default =>
    obtain ⟨hterm, hcases, hdefault⟩ := h
    have hlist : (Statement.switch term cases default).lexemes =
        (.word "switch" :: .mark .openParen ::
            (term.lexemes ++ [.mark .closeParen, .mark .openBrace])) ++
          ((Statement.caseLexemes cases ++ [.word "default", .mark .colon]) ++
            (Statement.blockLexemes default ++ [.mark .closeBrace])) := by
      simp [Statement.lexemes]
    have hfinished : OpenSwitch.finished? ⟨block, term, [], .none⟩ [] = some [] := rfl
    rw [hlist, foldlM_append_of_eq_some (foldlM_switch hterm),
      foldlM_append_of_eq_some (foldlM_cases cases hcases _ _ _ _ hfinished),
      foldlM_append_of_eq_some (foldlM_block default hdefault _ _)]
    rfl
termination_by structural statement

theorem foldlM_block (statements : List Statement) (h : Statement.BlockLegible statements)
    (switches : List OpenSwitch) (block : List Statement) :
    (Statement.blockLexemes statements).foldlM step ⟨functions, some head, switches, block, []⟩ =
      some ⟨functions, some head, switches, block ++ Statement.plainBlock statements, []⟩ := by
  cases statements with
  | nil =>
    rw [Statement.plainBlock, List.append_nil]
    rfl
  | cons statement statements =>
    rw [Statement.blockLexemes, foldlM_append_of_eq_some (foldlM_statement statement h.1 _ _),
      foldlM_block statements h.2, Statement.plainBlock, List.append_assoc]
termination_by structural statements

/-- The cases of a switch are completed by its default. -/
theorem foldlM_cases (entries : List (String × List Statement))
    (h : Statement.CasesLegible entries) (open_ : OpenSwitch) (switches : List OpenSwitch)
    (block : List Statement) (cases : List (String × List Statement))
    (hfinished : open_.finished? block = some cases) :
    (Statement.caseLexemes entries ++ [Lexeme.word "default", .mark .colon]).foldlM step
        ⟨functions, some head, open_ :: switches, block, []⟩ =
      some ⟨functions, some head, ⟨open_.before, open_.term,
        cases ++ Statement.plainCases entries, .default⟩ :: switches, [], []⟩ := by
  cases entries with
  | nil =>
    rw [Statement.plainCases, List.append_nil]
    exact foldlM_default hfinished
  | cons entry entries =>
    obtain ⟨constant, statements⟩ := entry
    obtain ⟨-, hstatements, hentries⟩ := h
    have hlist : Statement.caseLexemes ((constant, statements) :: entries) ++
          [Lexeme.word "default", .mark .colon] =
        (.word "case" :: (scopedLexemes enumName constant ++ [.mark .colon])) ++
          (Statement.blockLexemes statements ++
            (Statement.caseLexemes entries ++ [.word "default", .mark .colon])) := by
      simp [Statement.caseLexemes]
    have hnext : OpenSwitch.finished? ⟨open_.before, open_.term, cases, .case constant⟩
        ([] ++ Statement.plainBlock statements) =
          some (cases ++ [(constant, Statement.plainBlock statements)]) := rfl
    rw [hlist, foldlM_append_of_eq_some (foldlM_case hfinished constant),
      foldlM_append_of_eq_some (foldlM_block statements hstatements _ _),
      foldlM_cases entries hentries _ _ _ _ hnext, List.append_assoc]
    rfl
termination_by structural entries

end

end Reading

/-! ### Functions in a source -/

/-- From some lines the reader takes some functions, whatever it has read before. -/
def Yields (lines : List String) (functions : List Definition) : Prop :=
  ∃ ls, Lexes (linesText lines) ls ∧ ∀ before,
    ls.foldlM Reading.step ⟨before, none, [], [], []⟩ =
      some ⟨before ++ functions, none, [], [], []⟩

theorem Yields.append {lines others : List String} {functions rest : List Definition}
    (h : Yields lines functions) (hothers : Yields others rest) :
    Yields (lines ++ others) (functions ++ rest) := by
  obtain ⟨ls, hls, hread⟩ := h
  obtain ⟨ms, hms, hrest⟩ := hothers
  refine ⟨ls ++ ms, ?_, fun before => ?_⟩
  · rw [linesText_append]
    exact hls.append hms
  · rw [Reading.foldlM_append_of_eq_some (hread before), hrest, List.append_assoc]

/-- Lines without lexemes yield nothing. -/
theorem yields_nothing {lines : List String} (h : Lexes (linesText lines) []) : Yields lines [] :=
  ⟨[], h, fun before => by rw [List.append_nil]; rfl⟩

theorem readSource_of_yields {lines : List String} {functions : List Definition}
    (h : Yields lines functions) : readSource (linesText lines) = some functions := by
  obtain ⟨ls, hls, hread⟩ := h
  have hlexemes : Lexeme.read (linesText lines) = some ls := by
    rw [Lexeme.read, show scan .ready (linesText lines).toList = some (ls, .ready) from hls]
  have hreading := hread []
  rw [readSource, hlexemes]
  show (ls.foldlM Reading.step ⟨[], none, [], [], []⟩).bind Reading.finish = _
  rw [hreading]
  rfl

/-- The head of a function is held back up to the opening brace. -/
theorem foldlM_head {ls : List Lexeme} (h : .mark .openBrace ∉ ls) (before : List Definition)
    (held : List Lexeme) :
    ls.foldlM Reading.step ⟨before, none, [], [], held⟩ =
      some ⟨before, none, [], [], held ++ ls⟩ := by
  induction ls generalizing held with
  | nil => rw [List.append_nil]; rfl
  | cons l ls ih =>
    obtain ⟨hl, hls⟩ := List.ne_and_not_mem_of_not_mem_cons h
    have hstep : Reading.step ⟨before, none, [], [], held⟩ l =
        some ⟨before, none, [], [], held ++ [l]⟩ := if_neg (Ne.symm hl)
    rw [List.foldlM_cons, hstep, Option.bind_eq_bind, Option.bind_some, ih hls, List.append_assoc]
    rfl

/-- A function with a legible body is read with that body, comments left out. -/
theorem yields_function {function : Function} {head : Definition} {ls : List Lexeme}
    (hlexes : Lexes function.head ls) (hbrace : .mark .openBrace ∉ ls)
    (hhead : readHead ls = some head) (hbody : Statement.BlockLegible function.body) :
    Yields function.lines [{ head with body := Statement.plainBlock function.body }] := by
  have hopen : Lexes " \x7b" [.mark .openBrace] := rfl
  have hclose : Lexes "\x7d" [.mark .closeBrace] := rfl
  have hblock := (lexes_block 1 function.body hbody).append (hclose.reads.lexes_cons lexes_nil)
  rw [← linesText_append] at hblock
  refine ⟨_, (hlexes.append hopen).reads.lexes_cons hblock, fun before => ?_⟩
  have hstart : [Lexeme.mark .openBrace].foldlM Reading.step ⟨before, none, [], [], [] ++ ls⟩ =
      some ⟨before, some head, [], [], []⟩ := by
    rw [List.nil_append]
    show ((readHead ls).bind _).bind _ = _
    rw [hhead]
    rfl
  rw [Reading.foldlM_append_of_eq_some
      ((Reading.foldlM_append_of_eq_some (foldlM_head hbrace before [])).trans hstart),
    Reading.foldlM_append_of_eq_some (Reading.foldlM_block function.body hbody _ _)]
  rfl

/-- A comment is left out. -/
example : readSource (linesText (Function.lines
      ⟨"bool takes(PlugType a)", [.comment "takes all", .giveBack (.truth true)]⟩)) =
    some [⟨"bool", "takes", ["a"], [.giveBack (.truth true)]⟩] := rfl

end PlugTaxonomy.Cpp
