import PlugTaxonomy.Cpp.Printer
import PlugTaxonomy.Proofs.Allocation.Level

/-!
# Lexemes of generated sources

Sources are taken apart by a machine over characters.  It reads no more of the language than what
generated sources need and is stuck at all else: at unknown characters, at escapes that stand for no
ASCII character, and wherever a backslash could join two lines.

* `Mark`, `Lexeme` — marks, words and string literals;
* `Scan`, `Scan.step`, `scan` — where the machine stands, one character, and a text;
* `Lexeme.read` — the lexemes of a whole text;
* `Lexes`, `Reads` — texts that are complete, and texts that may end in the middle of a word;
* `lexes_literal` — the literal of a text is read as that text.
-/

namespace PlugTaxonomy.Cpp

/-- A mark of punctuation or an operator. -/
inductive Mark where
  | openParen
  | closeParen
  | openBrace
  | closeBrace
  | semicolon
  | comma
  | question
  | colon
  | scope
  | mask
  | both
  | either
  | negation
  | assign
  | equal
  | differ
  deriving DecidableEq, Repr

inductive Lexeme where
  | mark (mark : Mark)
  /-- A name, a keyword or a number. -/
  | word (text : String)
  /-- A string literal with the text that it stands for. -/
  | text (contents : String)
  deriving DecidableEq, Repr

/-- The marks that are no part of longer ones. -/
def singleMark? : Char → Option Mark
  | '(' => some .openParen
  | ')' => some .closeParen
  | '{' => some .openBrace
  | '}' => some .closeBrace
  | ';' => some .semicolon
  | ',' => some .comma
  | '?' => some .question
  | _ => none

/-- The mark that an unbroken run of operator characters is. -/
def operator? : List Char → Option Mark
  | [':'] => some .colon
  | [':', ':'] => some .scope
  | ['&'] => some .mask
  | ['&', '&'] => some .both
  | ['|', '|'] => some .either
  | ['!'] => some .negation
  | ['='] => some .assign
  | ['=', '='] => some .equal
  | ['!', '='] => some .differ
  | _ => none

def isOperatorChar (c : Char) : Bool :=
  c = ':' || c = '&' || c = '|' || c = '!' || c = '='

def isWordChar (c : Char) : Bool :=
  c.isAlphanum || c = '_'

def isBlankChar (c : Char) : Bool :=
  c = ' ' || c = '\t' || c = '\n'

/-- The character that a letter stands for behind a backslash. -/
def simpleEscape? : Char → Option Char
  | '"' => some '"'
  | '\\' => some '\\'
  | 'n' => some '\n'
  | 't' => some '\t'
  | _ => none

/-! ### The machine -/

/-- Where reading stands. -/
inductive Scan where
  /-- Between lexemes. -/
  | ready
  /-- Within a word. -/
  | word (letters : List Char)
  /-- Within a run of operator characters. -/
  | operator (chars : List Char)
  /-- Within a string literal. -/
  | text (contents : List Char)
  /-- Behind a backslash within a string literal. -/
  | escape (contents : List Char)
  /-- Behind one digit of an octal escape, or behind two of them if only the last one is missing. -/
  | octal (contents : List Char) (value : Nat) (last : Bool)
  /-- Behind the first slash of a comment. -/
  | slash
  /-- Within a comment, up to the end of the line. -/
  | comment
  deriving DecidableEq, Repr

namespace Scan

/-- What has been found, and where reading goes on. -/
abbrev Next := Option (List Lexeme × Scan)

/-- Puts a lexeme in front of what is found. -/
def Next.behind (lexeme : Lexeme) (next : Next) : Next :=
  next.map fun (found, state) => (lexeme :: found, state)

/-- A character between lexemes. -/
def begin (c : Char) : Next :=
  if isBlankChar c then some ([], ready)
  else if isWordChar c then some ([], word [c])
  else if isOperatorChar c then some ([], operator [c])
  else if c = '"' then some ([], text [])
  else if c = '/' then some ([], slash)
  else (singleMark? c).map fun mark => ([.mark mark], ready)

/-- A character of a literal outside of escapes. -/
def inText (contents : List Char) (c : Char) : Next :=
  if c = '"' then some ([.text (String.ofList contents)], ready)
  else if c = '\\' then some ([], escape contents)
  else if isControl c then none
  else some ([], text (contents ++ [c]))

/-- The contents of a literal behind an octal escape. -/
def octalEnd (contents : List Char) (value : Nat) : Option (List Char) :=
  if value < 128 then some (contents ++ [Char.ofNat value]) else none

/-- One more character. -/
def step : Scan → Char → Next
  | ready, c => begin c
  | word letters, c =>
    if isWordChar c then some ([], word (letters ++ [c]))
    else if c = '"' then none
    else (begin c).behind (.word (String.ofList letters))
  | operator chars, c =>
    if isOperatorChar c then some ([], operator (chars ++ [c]))
    else do (begin c).behind (.mark (← operator? chars))
  | text contents, c => inText contents c
  | escape contents, c =>
    match simpleEscape? c, Text.digitValue? 8 c with
    | some meant, _ => some ([], text (contents ++ [meant]))
    | none, some digit => some ([], octal contents digit false)
    | none, none => none
  | octal contents value last, c =>
    match Text.digitValue? 8 c, last with
    | some digit, false => some ([], octal contents (value * 8 + digit) true)
    | some digit, true => do return ([], text (← octalEnd contents (value * 8 + digit)))
    | none, _ => do inText (← octalEnd contents value) c
  | slash, c => if c = '/' then some ([], comment) else none
  | comment, c =>
    if c = '\n' then some ([], ready) else if c = '\\' then none else some ([], comment)

end Scan

/-- Reads characters one after the other. -/
def scan (state : Scan) : List Char → Option (List Lexeme × Scan)
  | [] => some ([], state)
  | c :: cs => do
    let (found, next) ← state.step c
    let (rest, last) ← scan next cs
    return (found ++ rest, last)

/-- The lexemes of a text, which must not end within one. -/
def Lexeme.read (text : String) : Option (List Lexeme) :=
  match scan .ready text.toList with
  | some (found, .ready) => some found
  | _ => none

/-! ### Runs of the machine -/

theorem scan_cons {state next last : Scan} {c : Char} {cs : List Char} {found rest : List Lexeme}
    (hstep : state.step c = some (found, next)) (hrest : scan next cs = some (rest, last)) :
    scan state (c :: cs) = some (found ++ rest, last) := by
  rw [scan, hstep]
  show (do let (rest, last) ← scan next cs; return (found ++ rest, last) : Scan.Next) = _
  rw [hrest]
  rfl

theorem scan_append {state middle last : Scan} {cs ds : List Char} {found rest : List Lexeme}
    (hcs : scan state cs = some (found, middle)) (hds : scan middle ds = some (rest, last)) :
    scan state (cs ++ ds) = some (found ++ rest, last) := by
  induction cs generalizing state found with
  | nil =>
    obtain ⟨rfl, rfl⟩ := Prod.mk.inj (Option.some.inj hcs)
    exact hds
  | cons c cs ih =>
    rw [scan] at hcs
    obtain ⟨⟨first, next⟩, hstep, hcs⟩ := Option.bind_eq_some_iff.mp hcs
    obtain ⟨⟨others, middle'⟩, htail, hcs⟩ := Option.bind_eq_some_iff.mp hcs
    obtain ⟨rfl, rfl⟩ := Prod.mk.inj (Option.some.inj hcs)
    rw [List.cons_append, List.append_assoc]
    exact scan_cons hstep (ih htail)

/-- A word goes on as long as there are characters of words. -/
theorem scan_word (letters : List Char) {cs : List Char} (h : ∀ c ∈ cs, isWordChar c = true) :
    scan (.word letters) cs = some ([], .word (letters ++ cs)) := by
  induction cs generalizing letters with
  | nil =>
    rw [List.append_nil]
    rfl
  | cons c cs ih =>
    obtain ⟨hc, hcs⟩ := List.forall_mem_cons.mp h
    have hstep : Scan.step (.word letters) c = some ([], .word (letters ++ [c])) := if_pos hc
    have hrest := scan_cons hstep (ih (letters ++ [c]) hcs)
    rw [List.append_assoc] at hrest
    exact hrest

/-- A comment goes on up to the end of the line. -/
theorem scan_comment {cs : List Char} (h : ∀ c ∈ cs, c ≠ '\n' ∧ c ≠ '\\') :
    scan .comment cs = some ([], .comment) := by
  induction cs with
  | nil => rfl
  | cons c cs ih =>
    obtain ⟨hc, hcs⟩ := List.forall_mem_cons.mp h
    have hstep : Scan.step .comment c = some ([], .comment) := by
      rw [Scan.step, if_neg hc.1, if_neg hc.2]
    exact scan_cons hstep (ih hcs)

/-! ### Literals -/

/-- The octal escape of an ASCII character has three digits. -/
theorem octalPadded_eq {n : Nat} (h : n < 128) :
    Text.octalPadded 3 n = [Nat.digitChar (n / 64), Nat.digitChar (n / 8 % 8),
      Nat.digitChar (n % 8)] := by
  revert n
  decide +kernel

theorem digitValue?_digitChar {d : Nat} (h : d < 8) :
    Text.digitValue? 8 (Nat.digitChar d) = some d := by
  revert d
  decide

theorem simpleEscape?_digitChar {d : Nat} (h : d < 8) :
    simpleEscape? (Nat.digitChar d) = none := by
  revert d
  decide

/-- Three octal digits behind a backslash are read as the character that has this number. -/
theorem scan_octal (contents : List Char) {n : Nat} (h : n < 128) :
    scan (.text contents) ('\\' :: Text.octalPadded 3 n) =
      some ([], .text (contents ++ [Char.ofNat n])) := by
  have hhigh : n / 64 < 8 := by omega
  have hmiddle : n / 8 % 8 < 8 := by omega
  have hlow : n % 8 < 8 := by omega
  have hvalue : (n / 64 * 8 + n / 8 % 8) * 8 + n % 8 = n := by omega
  have hbackslash : Scan.step (.text contents) '\\' = some ([], .escape contents) := rfl
  rw [octalPadded_eq h, scan, hbackslash]
  simp only [scan, Scan.step, simpleEscape?_digitChar hhigh, digitValue?_digitChar hhigh,
    digitValue?_digitChar hmiddle, digitValue?_digitChar hlow, hvalue, Scan.octalEnd, if_pos h,
    Option.bind_eq_bind, Option.bind_some, Option.pure_def, List.append_nil]

/-- Each character is read back from what stands for it in a literal. -/
theorem scan_literalChar (contents : List Char) (c : Char) :
    scan (.text contents) (literalChar c) = some ([], .text (contents ++ [c])) := by
  rw [literalChar]
  split
  · rename_i hquote
    rw [hquote]
    rfl
  split
  · rename_i hbackslash
    rw [hbackslash]
    rfl
  split
  · rename_i hbreak
    rw [hbreak]
    rfl
  split
  · rename_i htab
    rw [htab]
    rfl
  split
  · rename_i hcontrol
    have hascii : c.toNat < 128 := by
      rw [isControl, Bool.or_eq_true, decide_eq_true_iff, beq_iff_eq] at hcontrol
      omega
    rw [scan_octal contents hascii, Char.ofNat_toNat]
  · rename_i hquote hbackslash _ _ hcontrol
    rw [scan, Scan.step, Scan.inText, if_neg hquote, if_neg hbackslash, if_neg hcontrol]
    rfl

theorem scan_literalChars (contents cs : List Char) :
    scan (.text contents) (cs.flatMap literalChar) = some ([], .text (contents ++ cs)) := by
  induction cs generalizing contents with
  | nil =>
    rw [List.append_nil]
    rfl
  | cons c cs ih =>
    rw [List.flatMap_cons]
    have hrest := scan_append (scan_literalChar contents c) (ih (contents ++ [c]))
    rw [List.append_assoc] at hrest
    exact hrest

/-! ### Complete texts and texts that end in a word -/

/-- A text is taken apart into lexemes, and ends between two of them. -/
def Lexes (text : String) (found : List Lexeme) : Prop :=
  scan .ready text.toList = some (found, .ready)

/-- The lexemes that are complete as soon as something else follows. -/
def Scan.pending? : Scan → Option (List Lexeme)
  | ready => some []
  | word letters => some [.word (String.ofList letters)]
  | _ => none

/-- A text is taken apart into lexemes, the last of which may be a word that could go on. -/
def Reads (text : String) (found : List Lexeme) : Prop :=
  ∃ before state rest, scan .ready text.toList = some (before, state) ∧
    state.pending? = some rest ∧ found = before ++ rest

/-- A text begins with something that ends a word. -/
def separates (text : String) : Bool :=
  match text.toList with
  | c :: _ => !isWordChar c && c != '"'
  | [] => false

theorem Lexes.reads {text : String} {found : List Lexeme} (h : Lexes text found) :
    Reads text found :=
  ⟨found, .ready, [], h, rfl, (List.append_nil found).symm⟩

theorem Lexes.append {text rest : String} {found others : List Lexeme} (h : Lexes text found)
    (hrest : Lexes rest others) : Lexes (text ++ rest) (found ++ others) := by
  rw [Lexes, String.toList_append]
  exact scan_append h hrest

theorem Lexes.then_reads {text rest : String} {found others : List Lexeme} (h : Lexes text found)
    (hrest : Reads rest others) : Reads (text ++ rest) (found ++ others) := by
  obtain ⟨before, state, pending, hscan, hpending, rfl⟩ := hrest
  refine ⟨found ++ before, state, pending, ?_, hpending, (List.append_assoc _ _ _).symm⟩
  rw [String.toList_append]
  exact scan_append h hscan

/-- What follows a text that may end in a word must not continue that word. -/
theorem Reads.then_lexes {text rest : String} {found others : List Lexeme} (h : Reads text found)
    (hrest : Lexes rest others) (hseparates : separates rest = true) :
    Lexes (text ++ rest) (found ++ others) := by
  obtain ⟨before, state, pending, hscan, hpending, rfl⟩ := h
  rw [separates] at hseparates
  rw [Lexes] at hrest
  split at hseparates
  · rename_i c cs hlist
    rw [Bool.and_eq_true, Bool.not_eq_true', bne_iff_ne] at hseparates
    obtain ⟨hword, hquote⟩ := hseparates
    rw [hlist, scan] at hrest
    obtain ⟨⟨first, next⟩, hbegin, hrest⟩ := Option.bind_eq_some_iff.mp hrest
    obtain ⟨⟨last, end_⟩, htail, hrest⟩ := Option.bind_eq_some_iff.mp hrest
    obtain ⟨rfl, rfl⟩ := Prod.mk.inj (Option.some.inj hrest)
    have hstep : state.step c = some (pending ++ first, next) := by
      cases state with
      | ready =>
        obtain rfl := Option.some.inj hpending
        exact hbegin
      | word letters =>
        obtain rfl := Option.some.inj hpending
        have hbegin : Scan.begin c = some (first, next) := hbegin
        rw [Scan.step, if_neg (Bool.eq_false_iff.mp hword), if_neg hquote, hbegin]
        rfl
      | _ => cases hpending
    rw [Lexes, String.toList_append, hlist, List.append_assoc, ← List.append_assoc pending]
    exact scan_append hscan (scan_cons hstep htail)
  · cases hseparates

/-- Two texts with something between them that ends a word. -/
theorem Reads.joined {text between rest : String} {found middle others : List Lexeme}
    (h : Reads text found) (hbetween : Lexes between middle)
    (hseparates : separates between = true) (hrest : Reads rest others) :
    Reads (text ++ between ++ rest) (found ++ (middle ++ others)) := by
  have hjoined := (h.then_lexes hbetween hseparates).then_reads hrest
  rw [List.append_assoc] at hjoined
  exact hjoined

/-! ### Words and names -/

/-- A word begins with a letter or an underscore, and only letters, digits and underscores follow. -/
def isWord (text : String) : Bool :=
  match text.toList with
  | c :: cs => (c.isAlpha || c = '_') && cs.all isWordChar
  | [] => false

/-- The words that are no names. -/
def keywords : List String :=
  ["auto", "bool", "case", "default", "false", "if", "return", "switch", "true"]

/-- A name is a word that is no keyword. -/
def isName (name : String) : Bool :=
  isWord name && !keywords.contains name

/-- Characters of words do not stand between words. -/
theorem begin_of_isWordChar {c : Char} (h : isWordChar c = true) :
    Scan.begin c = some ([], .word [c]) := by
  have hblank : ¬isBlankChar c = true := by
    intro hblank
    rw [isBlankChar, Bool.or_eq_true, Bool.or_eq_true, decide_eq_true_iff, decide_eq_true_iff,
      decide_eq_true_iff] at hblank
    rcases hblank with (rfl | rfl) | rfl <;> revert h <;> decide
  rw [Scan.begin, if_neg hblank, if_pos h]

theorem exists_of_isWord {text : String} (h : isWord text = true) :
    ∃ c cs, text.toList = c :: cs ∧ isWordChar c = true ∧ ∀ d ∈ cs, isWordChar d = true := by
  rw [isWord] at h
  split at h
  · rename_i c cs hlist
    rw [Bool.and_eq_true, List.all_eq_true] at h
    refine ⟨c, cs, hlist, ?_, h.2⟩
    rw [isWordChar, Char.isAlphanum, Bool.or_eq_true, Bool.or_eq_true]
    rcases Bool.or_eq_true_iff.mp h.1 with halpha | hunderscore
    · exact Or.inl (Or.inl halpha)
    · exact Or.inr hunderscore
  · cases h

theorem reads_word {text : String} (h : isWord text = true) : Reads text [.word text] := by
  obtain ⟨c, cs, hlist, hc, hcs⟩ := exists_of_isWord h
  have hstep : Scan.step .ready c = some ([], .word [c]) := begin_of_isWordChar hc
  refine ⟨[], .word text.toList, [.word text], ?_, ?_, rfl⟩
  · rw [hlist]
    exact scan_cons hstep (scan_word [c] hcs)
  · rw [Scan.pending?, String.ofList_toList]

/-- A word behind an operator ends the operator. -/
theorem reads_operator_word {text word : String} {before : List Lexeme} {chars : List Char}
    {mark : Mark} (htext : scan .ready text.toList = some (before, .operator chars))
    (hmark : operator? chars = some mark) (h : isWord word = true) :
    Reads (text ++ word) (before ++ [.mark mark, .word word]) := by
  obtain ⟨c, cs, hlist, hc, hcs⟩ := exists_of_isWord h
  have hoperator : ¬isOperatorChar c = true := by
    intro hoperator
    rw [isOperatorChar] at hoperator
    simp only [Bool.or_eq_true, decide_eq_true_iff] at hoperator
    rcases hoperator with (((rfl | rfl) | rfl) | rfl) | rfl <;> revert hc <;> decide
  have hstep : Scan.step (.operator chars) c = some ([.mark mark], .word [c]) := by
    rw [Scan.step, if_neg hoperator, begin_of_isWordChar hc, hmark]
    rfl
  refine ⟨before ++ [.mark mark], .word word.toList, [.word word], ?_, ?_, ?_⟩
  · rw [String.toList_append, hlist]
    exact scan_append htext (scan_cons hstep (scan_word [c] hcs))
  · rw [Scan.pending?, String.ofList_toList]
  · rw [List.append_assoc]
    rfl

theorem isWord_of_isName {name : String} (h : isName name = true) : isWord name = true := by
  rw [isName, Bool.and_eq_true] at h
  exact h.1

theorem not_keyword_of_isName {name : String} (h : isName name = true) : name ∉ keywords := by
  rw [isName, Bool.and_eq_true, Bool.not_eq_true', ← Bool.not_eq_true, List.contains_iff_mem] at h
  exact h.2

/-- Identifiers are words, and since keywords are written in small letters they are names. -/
theorem isName_of_identifier {name : String} (h : Identifier name) : isName name = true := by
  have hkeyword : keywords.contains name = false := by
    rw [← Bool.not_eq_true, List.contains_iff_mem]
    intro hmem
    have hall : ∀ keyword ∈ keywords, ¬isIdentifier keyword = true := by decide
    exact hall name hmem ((isIdentifier_iff name).mpr h)
  obtain ⟨c, cs, hlist, hc, hcs⟩ := h
  have hletter : ∀ d : Char, 'A' ≤ d ∧ d ≤ 'Z' → d.isAlpha = true := by
    intro d hd
    have hupper : d.isUpper = true := decide_eq_true hd
    show (d.isUpper || d.isLower) = true
    rw [hupper, Bool.true_or]
  have hdigit : ∀ d : Char, '0' ≤ d ∧ d ≤ '9' → d.isDigit = true := by
    intro d hd
    rw [Char.isDigit, Bool.and_eq_true, decide_eq_true_iff, decide_eq_true_iff]
    exact hd
  have hfirst : (c.isAlpha || c = '_') = true := by
    rcases hc with hupper | hunderscore
    · rw [hletter c hupper, Bool.true_or]
    · rw [hunderscore]
      rfl
  have hothers : ∀ d ∈ cs, isWordChar d = true := by
    intro d hd
    rw [isWordChar, Char.isAlphanum]
    rcases hcs d hd with hupper | hnumber | hunderscore
    · rw [hletter d hupper]
      rfl
    · rw [hdigit d hnumber, Bool.or_true]
      rfl
    · rw [hunderscore]
      rfl
  simp only [isName, isWord, hlist, hfirst, List.all_eq_true.mpr hothers, hkeyword]
  rfl

/-- The literal of a text is read as that text. -/
theorem lexes_literal (text : String) : Lexes (literal text) [.text text] := by
  have hquote : scan .ready ['"'] = some ([], .text []) := rfl
  have hend : scan (.text ([] ++ text.toList)) ['"'] = some ([.text text], .ready) := by
    show some ([Lexeme.text (String.ofList text.toList)], Scan.ready) = _
    rw [String.ofList_toList]
  rw [Lexes, literal, String.toList_ofList, List.cons_append]
  exact scan_append hquote (scan_append (scan_literalChars [] text.toList) hend)

/-- A digit behind an escape is no part of it. -/
example : Lexeme.read (literal "\x1b1") = some [.text "\x1b1"] := rfl

/-- A comment leaves no lexemes. -/
theorem lexes_comment {text : String} (h : ∀ c ∈ text.toList, c ≠ '\n' ∧ c ≠ '\\') :
    Lexes ("// " ++ text ++ "\n") [] := by
  have hopen : scan .ready "// ".toList = some ([], .comment) := rfl
  have hend : scan .comment "\n".toList = some ([], .ready) := rfl
  rw [Lexes, String.toList_append, String.toList_append]
  exact scan_append (scan_append hopen (scan_comment h)) hend

end PlugTaxonomy.Cpp
