import PlugTaxonomy.Proofs.Cpp.Reader

/-!
# Printed expressions are read back

A condition is read by cutting it at its operators, the loosest first.  No bracket is missing in a
legible condition: all lexemes of an operand bind tighter than the operator beside it.

* `Lexeme.rank` — how tightly a lexeme binds;
* `rank_condition` — nothing in a condition binds looser than the condition;
* `readTerm_lexemes`, `readCondition_lexemes`, `readAnswer_lexemes` — legible expressions are read
  back.
-/

namespace PlugTaxonomy.Cpp

/-! ### How tightly lexemes bind -/

/-- How tightly a lexeme binds within a condition; nothing that ends a condition binds at all. -/
def Lexeme.rank : Lexeme → Nat
  | .mark .either => 1
  | .mark .both => 2
  | .mark .equal => 3
  | .mark .differ => 3
  | .mark .negation => 3
  | .mark .openParen => 4
  | .mark .closeParen => 4
  | .mark .scope => 4
  | .mark .mask => 4
  | .word name => if name = "return" then 0 else 4
  | _ => 0

theorem rank_word_of_isName {name : String} (h : isName name = true) :
    (Lexeme.word name).rank = 4 := by
  have hne : name ≠ "return" := by
    rintro rfl
    exact not_keyword_of_isName h (by decide)
  exact if_neg hne

theorem rank_scopedLexemes {name : String} (h : isName name = true) :
    ∀ l ∈ scopedLexemes enumName name, l.rank = 4 := by
  rw [scopedLexemes, List.forall_mem_cons, List.forall_mem_cons, List.forall_mem_singleton]
  exact ⟨by decide, rfl, rank_word_of_isName h⟩

theorem rank_term {term : Term} (h : term.Legible) : ∀ l ∈ term.lexemes, l.rank = 4 := by
  match term, h with
  | .var name, h =>
    rw [Term.lexemes, List.forall_mem_singleton]
    exact rank_word_of_isName h
  | .constant name, h => exact rank_scopedLexemes h
  | .masked (.var name) mask, h =>
    rw [Term.lexemes, Term.lexemes, List.singleton_append, List.forall_mem_cons,
      List.forall_mem_cons]
    exact ⟨rank_word_of_isName h.1, rfl, rank_scopedLexemes h.2⟩

theorem rank_operand {term : Term} (h : term.Legible) : ∀ l ∈ term.operandLexemes, l.rank = 4 := by
  match term, h with
  | .var name, h => exact rank_term h
  | .constant name, h => exact rank_term h
  | .masked (.var name) mask, h =>
    rw [Term.operandLexemes, List.forall_mem_cons, List.forall_mem_append,
      List.forall_mem_singleton]
    exact ⟨rfl, rank_term h, rfl⟩

theorem Condition.one_le_rank (condition : Condition) : 1 ≤ condition.rank := by
  cases condition <;> simp [rank]

/-- All lexemes of a condition bind at least as tightly as the condition itself. -/
theorem rank_condition {condition : Condition} (h : condition.Legible) :
    ∀ l ∈ condition.lexemes, condition.rank ≤ l.rank := by
  have tight : ∀ {term : Term}, term.Legible → ∀ l ∈ term.operandLexemes, 3 ≤ l.rank := by
    intro term hterm l hl
    rw [rank_operand hterm l hl]
    exact Nat.le_succ 3
  induction condition with
  | var name =>
    rw [Condition.lexemes, List.forall_mem_singleton, rank_word_of_isName h]
    exact Nat.le_succ 3
  | constant value => cases value <;> decide
  | equal left right =>
    rw [Condition.lexemes, List.forall_mem_append, List.forall_mem_cons]
    exact ⟨tight h.1, Nat.le_refl 3, tight h.2⟩
  | differ left right =>
    rw [Condition.lexemes, List.forall_mem_append, List.forall_mem_cons]
    exact ⟨tight h.1, Nat.le_refl 3, tight h.2⟩
  | nonzero term =>
    have hzero : ∀ l ∈ [Lexeme.mark .differ, .word "0"], 3 ≤ l.rank := by decide
    rw [Condition.lexemes, List.forall_mem_append]
    exact ⟨tight h, hzero⟩
  | negated condition ih =>
    match condition, h with
    | .var name, h =>
      rw [Condition.lexemes, List.forall_mem_cons]
      exact ⟨Nat.le_refl 3, ih h⟩
  | both left right ihleft ihright =>
    obtain ⟨hleft, hright, hleftRank, hrightRank⟩ := h
    rw [Condition.lexemes, List.forall_mem_append, List.forall_mem_cons]
    exact ⟨fun l hl => Nat.le_trans hleftRank (ihleft hleft l hl), Nat.le_refl 2,
      fun l hl => Nat.le_trans (Nat.le_of_succ_le hrightRank) (ihright hright l hl)⟩
  | either left right ihleft ihright =>
    obtain ⟨hleft, hright, hrightRank⟩ := h
    rw [Condition.lexemes, List.forall_mem_append, List.forall_mem_cons]
    exact ⟨fun l hl => Nat.le_trans left.one_le_rank (ihleft hleft l hl), Nat.le_refl 1,
      fun l hl => Nat.le_trans (Nat.le_of_succ_le hrightRank) (ihright hright l hl)⟩

/-! ### Expressions -/

theorem readTerm_lexemes {term : Term} (h : term.Legible) : readTerm term.lexemes = some term := by
  match term, h with
  | .var name, h => rfl
  | .constant name, h => rfl
  | .masked (.var name) mask, h => rfl

theorem readOperand_lexemes {term : Term} (h : term.Legible) :
    readOperand term.operandLexemes = some term := by
  match term, h with
  | .var name, h => rfl
  | .constant name, h => rfl
  | .masked (.var name) mask, h => rfl

/-- A lexeme is not among those that bind tighter. -/
theorem not_mem_of_rank {lexeme : Lexeme} {ls : List Lexeme}
    (h : ∀ l ∈ ls, lexeme.rank < l.rank) : lexeme ∉ ls :=
  fun hmem => Nat.lt_irrefl _ (h lexeme hmem)

/-- Operands contain no operators of comparison. -/
theorem not_mem_operandLexemes {term : Term} (h : term.Legible) {operator : Mark}
    (hoperator : (Lexeme.mark operator).rank < 4) : .mark operator ∉ term.operandLexemes := by
  refine not_mem_of_rank fun l hl => ?_
  rw [rank_operand h l hl]
  exact hoperator

theorem readComparison_equal {left right : Term} (hleft : left.Legible) (hright : right.Legible) :
    readComparison (Condition.equal left right).lexemes = some (.equal left right) := by
  rw [Condition.lexemes, readComparison, Text.fields_append_cons,
    Text.fields_of_not_mem (not_mem_operandLexemes hleft (by decide)),
    Text.fields_of_not_mem (not_mem_operandLexemes hright (by decide))]
  show (readOperand left.operandLexemes).bind (fun l =>
    (readOperand right.operandLexemes).bind fun r => some (Condition.equal l r)) = _
  rw [readOperand_lexemes hleft, readOperand_lexemes hright]
  rfl

/-- Two operands that differ, or one that differs from zero. -/
theorem readComparison_append_differ {term : Term} (h : term.Legible) {right : List Lexeme}
    (hequal : .mark .equal ∉ right) (hdiffer : .mark .differ ∉ right) :
    readComparison (term.operandLexemes ++ .mark .differ :: right) =
      if right = [.word "0"] then some (.nonzero term)
      else (readOperand right).map (.differ term) := by
  have hnot : .mark .equal ∉ term.operandLexemes ++ .mark .differ :: right := by
    rw [List.mem_append, List.mem_cons, not_or, not_or]
    exact ⟨not_mem_operandLexemes h (by decide), nofun, hequal⟩
  rw [readComparison, Text.fields_of_not_mem hnot, Text.fields_append_cons,
    Text.fields_of_not_mem (not_mem_operandLexemes h (by decide)),
    Text.fields_of_not_mem hdiffer]
  show (if right = [.word "0"] then (readOperand term.operandLexemes).map Condition.nonzero
    else (readOperand term.operandLexemes).bind fun l =>
      (readOperand right).bind fun r => some (Condition.differ l r)) = _
  rw [readOperand_lexemes h]
  cases readOperand right <;> rfl

theorem readComparison_differ {left right : Term} (hleft : left.Legible) (hright : right.Legible) :
    readComparison (Condition.differ left right).lexemes = some (.differ left right) := by
  have hzero : right.operandLexemes ≠ [.word "0"] := by
    intro heq
    match right, hright with
    | .var name, hname =>
      have hname : isName name = true := hname
      obtain rfl : name = "0" := by injection (List.cons.inj heq).1
      exact absurd hname (by decide)
    | .constant name, _ => exact absurd (congrArg List.length heq) (show 3 ≠ 1 by decide)
    | .masked (.var name) mask, _ => exact absurd (congrArg List.length heq) (show 7 ≠ 1 by decide)
  rw [Condition.lexemes, readComparison_append_differ hleft
    (not_mem_operandLexemes hright (by decide)) (not_mem_operandLexemes hright (by decide)),
    if_neg hzero, readOperand_lexemes hright]
  rfl

theorem readComparison_nonzero {term : Term} (h : term.Legible) :
    readComparison (Condition.nonzero term).lexemes = some (.nonzero term) := by
  rw [Condition.lexemes, readComparison_append_differ h (by decide) (by decide), if_pos rfl]

/-- Conditions that are no chain. -/
theorem readAtom_lexemes {condition : Condition} (h : condition.Legible)
    (hrank : 3 ≤ condition.rank) : readAtom condition.lexemes = some condition := by
  have hword : ∀ {name}, isName name = true → wordCondition name = .var name := by
    intro name hname
    have htrue : name ≠ "true" := by
      rintro rfl
      exact not_keyword_of_isName hname (by decide)
    have hfalse : name ≠ "false" := by
      rintro rfl
      exact not_keyword_of_isName hname (by decide)
    rw [wordCondition, if_neg htrue, if_neg hfalse]
  cases condition with
  | var name =>
    show some (wordCondition name) = _
    rw [hword h]
  | constant value => cases value <;> rfl
  | equal left right => rw [readAtom, readComparison_equal h.1 h.2, Option.some_or]
  | differ left right => rw [readAtom, readComparison_differ h.1 h.2, Option.some_or]
  | nonzero term => rw [readAtom, readComparison_nonzero h, Option.some_or]
  | negated condition =>
    match condition, h with
    | .var name, h =>
      show some (Condition.negated (wordCondition name)) = _
      rw [hword h]
  | both left right => exact absurd hrank (by simp [Condition.rank])
  | either left right => exact absurd hrank (by simp [Condition.rank])

section Chain

variable {operator : Mark} {join : Condition → Condition → Condition}
  {read : List Lexeme → Option Condition} {left right : List Lexeme} {a b : Condition}

/-- A chain of one operand. -/
theorem readChain_of_not_mem (hright : .mark operator ∉ right) (hread : read right = some b) :
    readChain operator join read right = some b := by
  rw [readChain, Text.fields_of_not_mem hright, List.mapM_cons, hread]
  rfl

/-- A chain with one more operand behind it. -/
theorem readChain_append (hleft : readChain operator join read left = some a)
    (hright : .mark operator ∉ right) (hread : read right = some b) :
    readChain operator join read (left ++ .mark operator :: right) = some (join a b) := by
  rw [readChain] at hleft
  obtain ⟨operands, hoperands, hjoined⟩ := Option.bind_eq_some_iff.mp hleft
  cases operands with
  | nil => cases hjoined
  | cons first others =>
    obtain rfl := Option.some.inj hjoined
    rw [readChain, Text.fields_append_cons, Text.fields_of_not_mem hright, List.mapM_append,
      hoperands, List.mapM_cons, hread]
    show some ((others ++ [b]).foldl join first) = _
    rw [List.foldl_append]
    rfl

end Chain

theorem readConjunction_lexemes {condition : Condition} (h : condition.Legible)
    (hrank : 2 ≤ condition.rank) : readConjunction condition.lexemes = some condition := by
  have hatom : ∀ {atom : Condition}, atom.Legible → 3 ≤ atom.rank →
      .mark .both ∉ atom.lexemes ∧ readAtom atom.lexemes = some atom := by
    intro atom hatom hrank
    refine ⟨not_mem_of_rank fun l hl => ?_, readAtom_lexemes hatom hrank⟩
    exact Nat.lt_of_lt_of_le hrank (rank_condition hatom l hl)
  induction condition with
  | both left right ihleft ihright =>
    obtain ⟨hleft, hright, hleftRank, hrightRank⟩ := h
    obtain ⟨hnot, hread⟩ := hatom hright hrightRank
    exact readChain_append (ihleft hleft hleftRank) hnot hread
  | either left right => exact absurd hrank (by simp [Condition.rank])
  | _ =>
    obtain ⟨hnot, hread⟩ := hatom h (Nat.le_refl 3)
    exact readChain_of_not_mem hnot hread

/-- Legible conditions are read back. -/
theorem readCondition_lexemes {condition : Condition} (h : condition.Legible) :
    readCondition condition.lexemes = some condition := by
  have hconjunction : ∀ {part : Condition}, part.Legible → 2 ≤ part.rank →
      .mark .either ∉ part.lexemes ∧ readConjunction part.lexemes = some part := by
    intro part hpart hrank
    refine ⟨not_mem_of_rank fun l hl => ?_, readConjunction_lexemes hpart hrank⟩
    exact Nat.lt_of_lt_of_le hrank (rank_condition hpart l hl)
  induction condition with
  | either left right ihleft ihright =>
    obtain ⟨hleft, hright, hrightRank⟩ := h
    obtain ⟨hnot, hread⟩ := hconjunction hright hrightRank
    exact readChain_append (ihleft hleft) hnot hread
  | both left right =>
    obtain ⟨hnot, hread⟩ := hconjunction h (Nat.le_refl 2)
    exact readChain_of_not_mem hnot hread
  | _ =>
    obtain ⟨hnot, hread⟩ := hconjunction h (Nat.le_succ 2)
    exact readChain_of_not_mem hnot hread

theorem readAnswer_lexemes (answer : Answer) : readAnswer answer.lexemes = some answer := by
  cases answer with
  | empty => rfl
  | label text => rfl
  | truth value => cases value <;> rfl
  | usage name => rfl
  | choice flag yes no => rfl

/-- Neither a semicolon nor `return` stands within a condition. -/
theorem not_mem_condition {condition : Condition} (h : condition.Legible) :
    .mark .semicolon ∉ condition.lexemes ∧ .word "return" ∉ condition.lexemes := by
  have hpositive : ∀ l ∈ condition.lexemes, 0 < l.rank := fun l hl =>
    Nat.lt_of_lt_of_le condition.one_le_rank (rank_condition h l hl)
  exact ⟨not_mem_of_rank hpositive, not_mem_of_rank hpositive⟩

/-- Answers contain neither a semicolon nor another `return`. -/
theorem not_mem_answer {answer : Answer} (h : answer.Legible) :
    .mark .semicolon ∉ answer.lexemes ∧ .word "return" ∉ answer.lexemes := by
  have hname : ∀ {name : String}, isName name = true → "return" ≠ name := by
    rintro name hname rfl
    exact not_keyword_of_isName hname (by decide)
  cases answer with
  | empty => decide
  | label text => simp [Answer.lexemes]
  | truth value => cases value <;> decide
  | usage name => simp [Answer.lexemes, scopedLexemes, usageName, hname h]
  | choice flag yes no =>
    obtain ⟨hflag, hyes, hno⟩ := h
    simp [Answer.lexemes, scopedLexemes, usageName, hname hflag, hname hyes, hname hno]

end PlugTaxonomy.Cpp
