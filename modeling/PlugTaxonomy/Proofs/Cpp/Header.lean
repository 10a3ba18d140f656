import PlugTaxonomy.Cpp.Files
import PlugTaxonomy.Output.Basic
import PlugTaxonomy.Proofs.Cpp.Spelling
import PlugTaxonomy.Proofs.Enumeration
import PlugTaxonomy.Proofs.Text.Numeral

/-!
# The header of codes is read back

The header that declares the enumeration of codes is read the way a compiler does it: lines that end
in a backslash are joined with the next one, comments are dropped, and what is left between the
braces is taken as enumerators.  Comments hold the descriptions of types, as they are.

* `spliced`, `uncommented`, `cleaned` — a text without joined lines and comments;
* `readHeader` — the enumerators of a header;
* `cleaned_code`, `cleaned_comment`, `cleaned_joined`, `cleaned_constants` — what is left of lines;
* `readHeader_plugTypeHeader` — without line breaks in comments, all constants are read but those
  whose comments end in a backslash;
* `header_enumerators` — the header of an accepted schema is read back;
* `plugTypeHeader_forged`, `header_forged_constant` — a description with a line break declares
  whatever it likes.
-/

namespace PlugTaxonomy.Cpp

/-! ### Reading -/

/-- A text with lines that end in a backslash joined with the next one. -/
def spliced : List Char → List Char
  | '\\' :: '\n' :: cs => spliced cs
  | c :: cs => c :: spliced cs
  | [] => []

/-- A text without comments, which go from two slashes up to the end of the line. -/
def uncommented (within : Bool) : List Char → List Char
  | [] => []
  | c :: cs =>
    if c = '\n' then c :: uncommented false cs
    else if within || (c = '/' && cs.head? = some '/') then uncommented true cs
    else c :: uncommented false cs

/-- What is left of a text once its lines are joined and its comments are dropped. -/
def cleaned (cs : List Char) : List Char :=
  uncommented false (spliced cs)

/-- The code of a hexadecimal number. -/
def hexCode? (word : String) : Option Code :=
  match word.toList with
  | '0' :: 'x' :: digits => (Text.readUnsigned? 16 UInt16.size digits).map Code.ofNat
  | _ => none

/-- The enumerators up to the closing brace. -/
def enumeratorsOf? : List Lexeme → Option (List (String × Code))
  | .mark .closeBrace :: _ => some []
  | .word name :: .mark .assign :: .word value :: .mark .comma :: rest => do
    if isName name then return (name, ← hexCode? value) :: (← enumeratorsOf? rest) else none
  | _ => none

/-- The enumerators behind the first opening brace of a header. -/
def readHeader (text : String) : Option (List (String × Code)) := do
  let found ← Lexeme.read (String.ofList ((cleaned text.toList).dropWhile (· ≠ '{')))
  match found with
  | .mark .openBrace :: rest => enumeratorsOf? rest
  | _ => none

/-- A text ends in a backslash, so that its line goes on on the next one. -/
def endsInBackslash (text : String) : Bool :=
  text.toList.getLast? = some '\\'

/-! ### Lines that are cleaned -/

theorem spliced_line {line : List Char} (rest : List Char) (hbreak : '\n' ∉ line)
    (hlast : line.getLast? ≠ some '\\') :
    spliced (line ++ '\n' :: rest) = line ++ '\n' :: spliced rest := by
  induction line with
  | nil => rfl
  | cons c cs ih =>
    obtain ⟨-, hcs⟩ := List.ne_and_not_mem_of_not_mem_cons hbreak
    cases cs with
    | nil =>
      have hc : c ≠ '\\' := by simpa using hlast
      rw [List.singleton_append, spliced]
      · rfl
      · intro ds hc' _
        exact hc hc'
    | cons d ds =>
      have hd : d ≠ '\n' := Ne.symm (List.ne_and_not_mem_of_not_mem_cons hcs).1
      have hrest := ih hcs (by simpa using hlast)
      rw [List.cons_append, spliced, hrest]
      · rfl
      · intro es _ hds
        exact hd (List.cons.inj hds).1

theorem uncommented_code {line : List Char} (rest : List Char) (hslash : '/' ∉ line) :
    uncommented false (line ++ rest) = line ++ uncommented false rest := by
  induction line with
  | nil => rfl
  | cons c cs ih =>
    obtain ⟨hc, hcs⟩ := List.ne_and_not_mem_of_not_mem_cons hslash
    have hcode : ¬(false || (c = '/' && (cs ++ rest).head? = some '/')) = true := by
      simp [Ne.symm hc]
    rw [List.cons_append, uncommented, if_neg hcode, ite_self, ih hcs]
    rfl

theorem uncommented_comment {comment : List Char} (rest : List Char) (hbreak : '\n' ∉ comment) :
    uncommented true (comment ++ '\n' :: rest) = '\n' :: uncommented false rest := by
  induction comment with
  | nil => rfl
  | cons c cs ih =>
    obtain ⟨hc, hcs⟩ := List.ne_and_not_mem_of_not_mem_cons hbreak
    rw [List.cons_append, uncommented, if_neg (Ne.symm hc), Bool.true_or, if_pos rfl]
    exact ih hcs

/-- A line with a backslash at its end goes on on the next line. -/
theorem spliced_joined {line : List Char} (rest : List Char) (hbreak : '\n' ∉ line) :
    spliced (line ++ '\\' :: '\n' :: rest) = line ++ spliced rest := by
  induction line with
  | nil => rfl
  | cons c cs ih =>
    obtain ⟨-, hcs⟩ := List.ne_and_not_mem_of_not_mem_cons hbreak
    rw [List.cons_append, spliced, ih hcs]
    · rfl
    · intro ds _ hds
      cases cs with
      | nil => exact absurd (List.cons.inj hds).1 (by decide)
      | cons d es =>
        obtain ⟨hd, -⟩ := List.ne_and_not_mem_of_not_mem_cons hcs
        exact hd (List.cons.inj hds).1.symm

/-- A line without a slash is left as it is. -/
theorem cleaned_code {line : List Char} (rest : List Char) (hbreak : '\n' ∉ line)
    (hlast : line.getLast? ≠ some '\\') (hslash : '/' ∉ line) :
    cleaned (line ++ '\n' :: rest) = line ++ '\n' :: cleaned rest := by
  rw [cleaned, spliced_line rest hbreak hlast, uncommented_code _ hslash]
  rfl

section Comment

variable {margin comment : List Char} (rest : List Char) (hmargin : '\n' ∉ margin)
  (hslash : '/' ∉ margin) (hbreak : '\n' ∉ comment)
include hmargin hslash hbreak

/-- Of a line with a comment is left what stands in front of the comment. -/
theorem cleaned_comment (hlast : comment.getLast? ≠ some '\\') :
    cleaned (margin ++ '/' :: '/' :: ' ' :: comment ++ '\n' :: rest) =
      margin ++ '\n' :: cleaned rest := by
  have hline : '\n' ∉ margin ++ '/' :: '/' :: ' ' :: comment := by simp [hmargin, hbreak]
  have hend : (margin ++ '/' :: '/' :: ' ' :: comment).getLast? ≠ some '\\' := by
    cases comment with
    | nil => simp
    | cons c cs => simpa using hlast
  rw [cleaned, spliced_line rest hline hend, List.append_assoc, uncommented_code _ hslash]
  show margin ++ uncommented true (('/' :: ' ' :: comment) ++ '\n' :: spliced rest) = _
  rw [uncommented_comment _ (by simpa using hbreak)]
  rfl

/-- A backslash at the end of a comment takes the next line into the comment. -/
theorem cleaned_joined {next : List Char} (hnext : '\n' ∉ next)
    (hlast : next.getLast? ≠ some '\\') :
    cleaned (margin ++ '/' :: '/' :: ' ' :: comment ++ '\\' :: '\n' :: (next ++ '\n' :: rest)) =
      margin ++ '\n' :: cleaned rest := by
  have hline : '\n' ∉ margin ++ '/' :: '/' :: ' ' :: comment := by simp [hmargin, hbreak]
  rw [cleaned, spliced_joined _ hline, spliced_line rest hnext hlast, List.append_assoc,
    uncommented_code _ hslash]
  show margin ++ uncommented true (('/' :: ' ' :: comment) ++ (next ++ '\n' :: spliced rest)) = _
  rw [← List.append_assoc, uncommented_comment _ (by simp [hbreak, hnext])]
  rfl

end Comment

/-! ### Constants -/

theorem not_mem_indent {c : Char} (depth : Nat) (h : c ≠ '\t') : c ∉ (indent depth).toList := by
  rw [indent, String.toList_ofList]
  intro hmem
  exact h (List.eq_of_mem_replicate hmem)

/-- The line that declares a constant. -/
def enumeratorLine (constant : Constant) : String :=
  indent (constant.depth + 1) ++ constant.name ++ " = " ++ constant.code.text ++ ","

theorem constantLines_of_none {constant : Constant} (h : constant.comment = none) :
    constantLines constant = [enumeratorLine constant] := by
  rw [constantLines, h]
  rfl

theorem constantLines_of_some {constant : Constant} {comment : String}
    (h : constant.comment = some comment) :
    constantLines constant =
      [indent (constant.depth + 1) ++ "// " ++ comment, enumeratorLine constant] := by
  rw [constantLines, h]
  rfl

/-- The line of a constant is not taken into a comment in front of it. -/
def standsAlone (constant : Constant) : Bool :=
  constant.comment.all fun comment => !endsInBackslash comment

/-- What is left of the lines of a constant: of a comment its margin. -/
def codeLines (constant : Constant) : List String :=
  (constant.comment.toList.map fun _ => indent (constant.depth + 1)) ++
    if standsAlone constant then [enumeratorLine constant] else []

/-- The lexemes of the line that declares a constant. -/
def enumeratorLexemes (constant : Constant) : List Lexeme :=
  [.word constant.name, .mark .assign, .word constant.code.text, .mark .comma]

/-- Words are made of characters of words. -/
theorem isWordChar_of_mem_code {c : Char} {code : Code} (h : c ∈ code.text.toList) :
    isWordChar c = true := by
  have hdigit : ∀ d < 16, isWordChar (Nat.digitChar d) = true := by decide
  rw [Code.text, String.toList_ofList, List.mem_cons, List.mem_cons] at h
  rcases h with rfl | rfl | h
  · decide
  · decide
  · obtain ⟨d, hd, rfl⟩ := Text.mem_hexPadded h
    exact hdigit d hd

theorem isWordChar_of_mem_name {c : Char} {name : String} (hname : isName name = true)
    (h : c ∈ name.toList) : isWordChar c = true := by
  obtain ⟨d, ds, hlist, hd, hds⟩ := exists_of_isWord (isWord_of_isName hname)
  rw [hlist, List.mem_cons] at h
  rcases h with rfl | h
  · exact hd
  · exact hds c h

theorem not_mem_enumeratorLine {constant : Constant} (hname : isName constant.name = true)
    {c : Char} (hword : isWordChar c = false) (hc : c ∉ ['\t', ' ', '=', ',']) :
    c ∉ (enumeratorLine constant).toList := by
  have hnot : ∀ d, isWordChar d = true → c ≠ d := by
    rintro d hd rfl
    cases hd.symm.trans hword
  simp only [List.mem_cons, not_or] at hc
  have hassign : c ∉ " = ".toList := by
    show c ∉ [' ', '=', ' ']
    simp [hc]
  have hcomma : c ∉ ",".toList := by
    show c ∉ [',']
    simp [hc]
  simp only [enumeratorLine, String.toList_append, List.mem_append, not_or]
  refine ⟨⟨⟨⟨not_mem_indent _ hc.1, ?_⟩, hassign⟩, ?_⟩, hcomma⟩
  · intro hmem
    exact hnot c (isWordChar_of_mem_name hname hmem) rfl
  · intro hmem
    exact hnot c (isWordChar_of_mem_code hmem) rfl

/-- The text of lines in which no line break occurs, one line at a time. -/
theorem toList_linesText_cons (line : String) (lines : List String) :
    (linesText (line :: lines)).toList = line.toList ++ '\n' :: (linesText lines).toList := by
  rw [linesText_cons, String.toList_append, String.toList_append, List.append_assoc]
  rfl

/-- The line of a constant is one line of code. -/
theorem isCode_enumeratorLine {constant : Constant} (hname : isName constant.name = true) :
    '\n' ∉ (enumeratorLine constant).toList ∧
      (enumeratorLine constant).toList.getLast? ≠ some '\\' ∧
      '/' ∉ (enumeratorLine constant).toList := by
  refine ⟨not_mem_enumeratorLine hname (by decide) (by decide), ?_,
    not_mem_enumeratorLine hname (by decide) (by decide)⟩
  rw [enumeratorLine, String.toList_append]
  show (_ ++ [',']).getLast? ≠ some '\\'
  rw [List.getLast?_concat]
  decide

/-- The lines of a constant lose its comment, and all if the comment ends in a backslash. -/
theorem cleaned_constant {constant : Constant} (lines : List String)
    (hname : isName constant.name = true)
    (hcomment : ∀ comment ∈ constant.comment, '\n' ∉ comment.toList) :
    cleaned (linesText (constantLines constant ++ lines)).toList =
      (linesText (codeLines constant)).toList ++ cleaned (linesText lines).toList := by
  obtain ⟨hbreak, hlast, hslash⟩ := isCode_enumeratorLine hname
  have hline : cleaned ((enumeratorLine constant).toList ++ '\n' :: (linesText lines).toList) =
      (linesText [enumeratorLine constant]).toList ++ cleaned (linesText lines).toList := by
    rw [cleaned_code _ hbreak hlast hslash, toList_linesText_cons, List.append_assoc]
    rfl
  cases hsome : constant.comment with
  | none =>
    have hcode : codeLines constant = [enumeratorLine constant] := by
      rw [codeLines, standsAlone, hsome]
      rfl
    rw [constantLines_of_none hsome, hcode, List.singleton_append, toList_linesText_cons, hline]
  | some comment =>
    have hcomment := hcomment comment hsome
    have hmargin : ∀ c, c ≠ '\t' → c ∉ (indent (constant.depth + 1)).toList :=
      fun c => not_mem_indent (constant.depth + 1)
    have hlines : (linesText (constantLines constant ++ lines)).toList =
        (indent (constant.depth + 1)).toList ++ '/' :: '/' :: ' ' :: comment.toList ++ '\n' ::
          ((enumeratorLine constant).toList ++ '\n' :: (linesText lines).toList) := by
      have htext : (indent (constant.depth + 1) ++ "// " ++ comment).toList =
          (indent (constant.depth + 1)).toList ++ '/' :: '/' :: ' ' :: comment.toList := by
        rw [String.toList_append, String.toList_append, List.append_assoc]
        rfl
      rw [constantLines_of_some hsome, ← htext, ← toList_linesText_cons, ← toList_linesText_cons]
      rfl
    by_cases hend : comment.toList.getLast? = some '\\'
    · -- the comment swallows the line of the constant
      have hcode : codeLines constant = [indent (constant.depth + 1)] := by
        rw [codeLines, standsAlone, hsome]
        simp [endsInBackslash, hend]
      obtain ⟨front, hfront⟩ := List.getLast?_eq_some_iff.mp hend
      have hbreaks : '\n' ∉ front := fun hmem => hcomment (hfront ▸ List.mem_append_left _ hmem)
      rw [hlines, hcode, hfront, toList_linesText_cons]
      have hjoined := cleaned_joined (linesText lines).toList (hmargin _ (by decide))
        (hmargin _ (by decide)) hbreaks hbreak hlast
      simpa [linesText] using hjoined
    · have hcode : codeLines constant =
          [indent (constant.depth + 1), enumeratorLine constant] := by
        rw [codeLines, standsAlone, hsome]
        simp [endsInBackslash, hend]
      rw [hlines, hcode, cleaned_comment _ (hmargin _ (by decide)) (hmargin _ (by decide)) hcomment
        hend, hline, toList_linesText_cons _ [_], List.append_assoc]
      rfl

theorem cleaned_constants {constants : List Constant} (tail : List String)
    (hnames : ∀ constant ∈ constants, isName constant.name = true)
    (hcomments : ∀ constant ∈ constants, ∀ comment ∈ constant.comment, '\n' ∉ comment.toList) :
    cleaned (linesText (constants.flatMap constantLines ++ tail)).toList =
      (linesText (constants.flatMap codeLines)).toList ++ cleaned (linesText tail).toList := by
  induction constants with
  | nil => rfl
  | cons constant constants ih =>
    obtain ⟨hname, hnames⟩ := List.forall_mem_cons.mp hnames
    obtain ⟨hcomment, hcomments⟩ := List.forall_mem_cons.mp hcomments
    rw [List.flatMap_cons, List.append_assoc, cleaned_constant _ hname hcomment,
      ih hnames hcomments, List.flatMap_cons, linesText_append, String.toList_append,
      List.append_assoc]

/-! ### Enumerators -/

theorem hexCode?_text (code : Code) : hexCode? code.text = some code := by
  have hlimit : code.toNat < UInt16.size := code.bits.isLt
  have hread := Text.readUnsigned?_hexPadded 4 hlimit
  rw [hexCode?, Code.text, String.toList_ofList]
  show (Text.readUnsigned? 16 UInt16.size (Text.hexPadded 4 code.toNat)).map Code.ofNat = _
  rw [hread, Option.map_some, Code.ofNat_toNat]

theorem reads_codeText (code : Code) : Reads code.text [.word code.text] := by
  have hstep : Scan.step .ready '0' = some ([], .word ['0']) := rfl
  have hdigits : ∀ c ∈ 'x' :: Text.hexPadded 4 code.toNat, isWordChar c = true := by
    intro c hc
    have hmem : c ∈ code.text.toList := by
      rw [Code.text, String.toList_ofList]
      exact List.mem_cons_of_mem _ hc
    exact isWordChar_of_mem_code hmem
  refine ⟨[], .word code.text.toList, [.word code.text], ?_, ?_, rfl⟩
  · rw [Code.text, String.toList_ofList]
    exact scan_cons hstep (scan_word ['0'] hdigits)
  · rw [Scan.pending?, String.ofList_toList]

theorem lexes_enumeratorLine {constant : Constant} (hname : isName constant.name = true) :
    Lexes (enumeratorLine constant) (enumeratorLexemes constant) := by
  have hassign : Lexes " = " [.mark .assign] := rfl
  have hcomma : Lexes "," [.mark .comma] := rfl
  have hfront := (lexes_indent (constant.depth + 1)).then_reads (reads_name hname)
  exact (hfront.joined hassign rfl (reads_codeText constant.code)).then_lexes hcomma rfl

/-- What is left of the lines of constants is taken apart into their enumerators. -/
theorem lexes_constants {constants : List Constant} {tail : List String} {found : List Lexeme}
    (hnames : ∀ constant ∈ constants, isName constant.name = true)
    (htail : Lexes (linesText tail) found) :
    Lexes (linesText (constants.flatMap codeLines ++ tail))
      ((constants.filter standsAlone).flatMap enumeratorLexemes ++ found) := by
  induction constants with
  | nil => exact htail
  | cons constant constants ih =>
    obtain ⟨hname, hnames⟩ := List.forall_mem_cons.mp hnames
    have hrest := ih hnames
    have hmargin : Lexes (indent (constant.depth + 1)) [] := lexes_indent (constant.depth + 1)
    have hline := (lexes_enumeratorLine hname).reads.lexes_cons hrest
    rw [← List.append_assoc, ← List.flatMap_cons] at hline
    rw [List.flatMap_cons, codeLines]
    cases hsome : constant.comment with
    | none =>
      have halone : standsAlone constant = true := by rw [standsAlone, hsome]; rfl
      rw [List.filter_cons_of_pos halone, if_pos halone]
      exact hline
    | some comment =>
      by_cases halone : standsAlone constant = true
      · rw [List.filter_cons_of_pos halone, if_pos halone]
        exact hmargin.reads.lexes_cons hline
      · rw [List.filter_cons_of_neg halone, if_neg halone]
        exact hmargin.reads.lexes_cons hrest

theorem enumeratorsOf?_constants {constants : List Constant} (rest : List Lexeme)
    (hnames : ∀ constant ∈ constants, isName constant.name = true) :
    enumeratorsOf? (constants.flatMap enumeratorLexemes ++ .mark .closeBrace :: rest) =
      some (constants.map fun constant => (constant.name, constant.code)) := by
  induction constants with
  | nil => rfl
  | cons constant constants ih =>
    obtain ⟨hname, hnames⟩ := List.forall_mem_cons.mp hnames
    show enumeratorsOf? (.word constant.name :: .mark .assign :: .word constant.code.text ::
      .mark .comma :: (constants.flatMap enumeratorLexemes ++ .mark .closeBrace :: rest)) = _
    rw [enumeratorsOf?, if_pos hname, hexCode?_text, ih hnames]
    rfl

/-! ### The header -/

/-- The lines between the notice and the constants. -/
def headerFront : List String :=
  ["#pragma once", "", "#include <cstdint>", "#include <enum.hpp>", "", "",
    "enum class " ++ enumName ++ " : uint16_t \x7b"]

/-- The lines of the header behind the constants. -/
def headerBack : List String :=
  ["\x7d;", "FLAGS_ENUM(" ++ enumName ++ ")"]

/-- Lines without slashes are left as they are. -/
theorem cleaned_codeLines {lines : List String} (rest : List Char)
    (h : ∀ line ∈ lines, '\n' ∉ line.toList ∧ line.toList.getLast? ≠ some '\\' ∧
      '/' ∉ line.toList) :
    cleaned ((linesText lines).toList ++ rest) = (linesText lines).toList ++ cleaned rest := by
  induction lines with
  | nil => rfl
  | cons line lines ih =>
    obtain ⟨⟨hbreak, hlast, hslash⟩, hlines⟩ := List.forall_mem_cons.mp h
    rw [toList_linesText_cons, List.append_assoc, List.cons_append,
      cleaned_code _ hbreak hlast hslash, ih hlines, List.append_assoc, List.cons_append]

/-- In front of the opening brace there is nothing but the notice and lines of code. -/
theorem cleaned_front (rest : List Char) :
    (cleaned ((linesText (notice :: headerFront)).toList ++ rest)).dropWhile (· ≠ '{') =
      '{' :: '\n' :: cleaned rest := by
  have hnotice : notice.toList = [] ++ '/' :: '/' :: ' ' ::
      "generated by plugc, do not edit".toList := rfl
  have hbrace : ('\n' :: (linesText headerFront).toList).dropWhile (· ≠ '{') = ['{', '\n'] := by
    decide
  rw [toList_linesText_cons, List.append_assoc, List.cons_append, hnotice,
    cleaned_comment _ (by decide) (by decide) (by decide) (by decide),
    cleaned_codeLines rest (by decide), List.nil_append, ← List.cons_append, List.dropWhile_append,
    hbrace]
  rfl

/-- The names and codes of constants. -/
def Constant.pairs (constants : List Constant) : List (String × Code) :=
  constants.map fun constant => (constant.name, constant.code)

theorem plugTypeHeader_eq (enumeration : List Constant) :
    plugTypeHeader enumeration = linesText (notice :: headerFront) ++
      linesText (enumeration.flatMap constantLines ++ headerBack) := by
  rw [← linesText_append, ← List.append_assoc]
  rfl

/-- Where no comment has a line break, the constants are read back whose comments do not end in a
backslash. -/
theorem readHeader_plugTypeHeader {enumeration : List Constant}
    (hnames : ∀ constant ∈ enumeration, isName constant.name = true)
    (hcomments : ∀ constant ∈ enumeration, ∀ comment ∈ constant.comment,
      '\n' ∉ comment.toList) :
    readHeader (plugTypeHeader enumeration) =
      some (Constant.pairs (enumeration.filter standsAlone)) := by
  have hback : cleaned (linesText headerBack).toList = (linesText headerBack).toList := by
    have hcode : ∀ line ∈ headerBack, '\n' ∉ line.toList ∧ line.toList.getLast? ≠ some '\\' ∧
        '/' ∉ line.toList := by decide
    have hlines := cleaned_codeLines [] hcode
    rw [List.append_nil] at hlines
    rw [hlines]
    exact List.append_nil _
  have hinner : (cleaned (plugTypeHeader enumeration).toList).dropWhile (· ≠ '{') =
      "\x7b\n".toList ++ (linesText (enumeration.flatMap codeLines ++ headerBack)).toList := by
    rw [plugTypeHeader_eq, String.toList_append, cleaned_front,
      cleaned_constants _ hnames hcomments, hback, ← String.toList_append, ← linesText_append]
    rfl
  have hopen : Lexes "\x7b\n" [.mark .openBrace] := rfl
  have hend : Lexes (linesText headerBack) [.mark .closeBrace, .mark .semicolon,
      .word "FLAGS_ENUM", .mark .openParen, .word enumName, .mark .closeParen] := rfl
  have hread := hopen.append (lexes_constants hnames hend)
  rw [Lexes, String.toList_append, ← hinner] at hread
  rw [readHeader, Lexeme.read, String.toList_ofList, hread]
  exact enumeratorsOf?_constants _ fun constant hconstant =>
    hnames constant (List.mem_of_mem_filter hconstant)

/-! ### Forged constants -/

theorem linesText_broken (line rest : String) (lines : List String) :
    linesText ((line ++ ("\n" ++ rest)) :: lines) = linesText (line :: rest :: lines) := by
  simp only [linesText_cons, String.append_assoc]

/-- **A line break in a comment ends it.**  If an enumerator follows, the header is the one of an
enumeration with one more constant. -/
theorem plugTypeHeader_forged (front back : List Constant) {constant forged : Constant}
    {quiet : String} (hcomment : constant.comment = some (quiet ++ ("\n" ++ enumeratorLine forged)))
    (hdepth : forged.depth = constant.depth) :
    plugTypeHeader (front ++ constant :: back) =
      plugTypeHeader (front ++ { forged with comment := some quiet } ::
        { constant with comment := none } :: back) := by
  have hlines : linesText (constantLines constant) =
      linesText (constantLines { forged with comment := some quiet }) ++
        linesText (constantLines { constant with comment := none }) := by
    have hmargin : indent (constant.depth + 1) = indent (forged.depth + 1) := by rw [hdepth]
    rw [constantLines_of_some hcomment, constantLines_of_some rfl, constantLines_of_none rfl,
      ← String.append_assoc, linesText_broken, ← linesText_append, hmargin]
    rfl
  simp only [plugTypeHeader_eq, List.flatMap_append, List.flatMap_cons, linesText_append, hlines,
    String.append_assoc]

/-! ### Comments of an enumeration -/

theorem comment_of_mem_slot {slot : Slot} {depth : Nat} {constant : Constant}
    (h : constant ∈ slot.constants depth) :
    ∀ comment ∈ constant.comment, comment = slot.info.description := by
  intro comment hcomment
  simp only [Slot.constants] at h
  split at h
  · cases h
  rcases List.mem_cons.mp h with rfl | h
  · dsimp only at hcomment
    split at hcomment
    · cases hcomment
    · exact (Option.some.inj hcomment).symm
  · obtain ⟨variant, -, rfl⟩ := List.mem_map.mp h
    cases hcomment

mutual

/-- The comments of the constants of types are their descriptions. -/
theorem comment_of_mem_constants {node : TableNode} {depth : Nat} {constant : Constant}
    (h : constant ∈ node.constants depth) :
    ∀ comment ∈ constant.comment, comment ∈ node.preorder.map (·.value.info.description) := by
  intro comment hcomment
  cases node with
  | leaf slot =>
    rw [comment_of_mem_slot h comment hcomment]
    exact List.mem_cons_self
  | branch slot layout children =>
    rw [TableNode.constants, List.mem_append, List.mem_cons] at h
    rcases h with h | rfl | h
    · rw [comment_of_mem_slot h comment hcomment]
      exact List.mem_cons_self
    · cases hcomment
    · exact List.mem_cons_of_mem _ (comment_of_mem_constantsOf h comment hcomment)

theorem comment_of_mem_constantsOf {nodes : List TableNode} {depth : Nat} {constant : Constant}
    (h : constant ∈ TableNode.constantsOf depth nodes) :
    ∀ comment ∈ constant.comment,
      comment ∈ (Tree.preorders nodes).map (·.value.info.description) := by
  intro comment hcomment
  cases nodes with
  | nil => cases h
  | cons node nodes =>
    rw [Tree.preorders, List.map_append, List.mem_append]
    rcases List.mem_append.mp h with h | h
    · exact Or.inl (comment_of_mem_constants h comment hcomment)
    · exact Or.inr (comment_of_mem_constantsOf h comment hcomment)

end

/-- A comment of the enumeration explains a flag, or it is the description of a type. -/
theorem comment_of_mem_enumeration {schema : Schema} {table : CodeTable}
    (h : allocate schema = .ok table) {constant : Constant}
    (hconstant : constant ∈ table.enumeration) {comment : String} (hcomment : comment ∈ constant.comment) :
    (∃ flag ∈ flagConstants, comment ∈ flag.comment) ∨
      ∃ type ∈ Tree.preorders schema.types, comment = type.value.description := by
  have hinfos : (Tree.preorders table.nodes).map (·.value.info) =
      (Tree.preorders schema.types).map (·.value) := map_info_preorder h
  rw [CodeTable.enumeration, List.mem_append, List.mem_cons] at hconstant
  rcases hconstant with hflag | rfl | hconstant
  · exact Or.inl ⟨constant, hflag, hcomment⟩
  · cases hcomment
  · obtain ⟨node, hnode, rfl⟩ :=
      List.mem_map.mp (comment_of_mem_constantsOf hconstant comment hcomment)
    have hinfo : node.value.info ∈ (Tree.preorders schema.types).map (·.value) := by
      rw [← hinfos]
      exact List.mem_map_of_mem hnode
    obtain ⟨type, htype, heq⟩ := List.mem_map.mp hinfo
    exact Or.inr ⟨type, htype, congrArg TypeInfo.description heq.symm⟩

/-! ### The header of a schema -/

/-- **The header is read back as the enumeration.**  Where a schema is accepted and no description
of a type has a line break, the header of codes, which is one of the C++ files, holds the constants
of the enumeration with their codes, in order and nothing else.  Missing are those types alone whose
descriptions end in a backslash. -/
theorem header_enumerators {schema : Schema} {table : CodeTable} (h : allocate schema = .ok table)
    (hbreaks : ∀ type ∈ Tree.preorders schema.types, '\n' ∉ type.value.description.toList) :
    (∀ files, (Artifacts.ofTable table).render .cpp = .ok files →
        ⟨"PlugType.generated.hpp", plugTypeHeader (Artifacts.ofTable table).enumeration⟩ ∈ files) ∧
      readHeader (plugTypeHeader (Artifacts.ofTable table).enumeration) =
        some (Constant.pairs ((Artifacts.ofTable table).enumeration.filter standsAlone)) ∧
      ((∀ type ∈ Tree.preorders schema.types, endsInBackslash type.value.description = false) →
        readHeader (plugTypeHeader (Artifacts.ofTable table).enumeration) =
          some (Constant.pairs (Artifacts.ofTable table).enumeration)) := by
  have hflags : ∀ flag ∈ flagConstants, ∀ comment ∈ flag.comment,
      '\n' ∉ comment.toList ∧ endsInBackslash comment = false := by decide
  have hread : readHeader (plugTypeHeader (Artifacts.ofTable table).enumeration) =
      some (Constant.pairs ((Artifacts.ofTable table).enumeration.filter standsAlone)) := by
    apply readHeader_plugTypeHeader
    · intro constant hconstant
      refine isName_of_identifier (identifier_of_mem_enumeration (levelPlaced_of_allocate h) _ ?_)
      exact List.mem_map_of_mem hconstant
    · intro constant hconstant comment hcomment
      rcases comment_of_mem_enumeration h hconstant hcomment with
        ⟨flag, hflag, hmem⟩ | ⟨type, htype, rfl⟩
      · exact (hflags flag hflag comment hmem).1
      · exact hbreaks type htype
  refine ⟨?_, hread, ?_⟩
  · intro files hfiles
    rw [Artifacts.render, Artifacts.cppFiles] at hfiles
    split at hfiles
    · cases hfiles
    · obtain rfl := Except.ok.inj hfiles
      exact List.mem_cons_self
  · intro hends
    have hall : ∀ constant ∈ table.enumeration, standsAlone constant = true := by
      intro constant hconstant
      rw [standsAlone, Option.all_eq_true]
      intro comment hcomment
      rcases comment_of_mem_enumeration h hconstant hcomment with
        ⟨flag, hflag, hmem⟩ | ⟨type, htype, rfl⟩
      · simp [(hflags flag hflag comment hmem).2]
      · simp [hends type htype]
    have hfilter : (Artifacts.ofTable table).enumeration.filter standsAlone =
        (Artifacts.ofTable table).enumeration := List.filter_eq_self.mpr hall
    rw [hread, hfilter]

/-- A taxonomy of one type with a description. -/
def Schema.described (description : String) : Schema :=
  { typeBits := 13
    bitCount := 1
    types := [.leaf ⟨"A", .none, "a", none, description⟩] }

/-- A description may look like code. -/
theorem header_quiet_comment :
    allocate (Schema.described "A = 0x0001, // \\ \x7d") =
        .ok (Schema.described "A = 0x0001, // \\ \x7d").table ∧
      readHeader (plugTypeHeader (Artifacts.ofTable
          (Schema.described "A = 0x0001, // \\ \x7d").table).enumeration) =
        some (Constant.pairs (Artifacts.ofTable
          (Schema.described "A = 0x0001, // \\ \x7d").table).enumeration) := by
  have haccepted : allocate (Schema.described "A = 0x0001, // \\ \x7d") =
      .ok (Schema.described "A = 0x0001, // \\ \x7d").table := by decide +kernel
  exact ⟨haccepted, (header_enumerators haccepted (by decide)).2.2 (by decide)⟩

/-- A description with a line break, and an enumerator behind it. -/
def Schema.forging : Schema :=
  Schema.described "x\n\tFAKE = 0x0001,"

/-- The enumerator in the description is read with the others. -/
theorem header_forged_constant :
    allocate Schema.forging = .ok Schema.forging.table ∧
      ("FAKE", ⟨1⟩) ∉ Constant.pairs (Artifacts.ofTable Schema.forging.table).enumeration ∧
      ∃ found, readHeader (plugTypeHeader (Artifacts.ofTable Schema.forging.table).enumeration) =
        some found ∧ ("FAKE", ⟨1⟩) ∈ found := by
  have hconstants : (Artifacts.ofTable Schema.forging.table).enumeration =
      (flagConstants ++ [⟨"CATEGORY", ⟨0x1000⟩, none, 0⟩]) ++
        ⟨"A", ⟨0x1000⟩, some "x\n\tFAKE = 0x0001,", 0⟩ ::
          [⟨"A_IN", ⟨0x9000⟩, none, 0⟩, ⟨"A_OUT", ⟨0x5000⟩, none, 0⟩] := by
    decide +kernel
  have hcomment : Constant.comment ⟨"A", ⟨0x1000⟩, some "x\n\tFAKE = 0x0001,", 0⟩ =
      some ("x" ++ ("\n" ++ enumeratorLine ⟨"FAKE", ⟨1⟩, none, 0⟩)) := by decide +kernel
  refine ⟨by decide +kernel, by decide +kernel, ?_⟩
  rw [hconstants, plugTypeHeader_forged _ _ hcomment rfl,
    readHeader_plugTypeHeader (by decide) (by decide)]
  exact ⟨_, rfl, by decide⟩

end PlugTaxonomy.Cpp
