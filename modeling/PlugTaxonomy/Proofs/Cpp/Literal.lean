import PlugTaxonomy.Proofs.Cpp.Lexeme
import Mathlib.Algebra.Group.Nat.Even
import Mathlib.Data.List.DropRight
import Mathlib.Data.Nat.Digits.Defs

/-!
# Literals are decoded

A literal stands for bytes.  An escape of a letter is one byte, and so is one of octal digits, which
takes as many digits as there are, up to three.  All other characters stand for their bytes in UTF-8.

* `Literal.decode?` — the text of which a literal holds the bytes;
* `Literal.Escapes` — a backslash in front that is not escaped itself;
* `Literal.Stands`, `stands_literalChar` — the three ways in which a character is written;
* `decodeBody?_literalChar` — each character is decoded from what stands for it;
* `escapes_of_quote`, `not_escapes_literalChars` — all quotes within a literal are escaped, the
  closing one is not;
* `literal_decoded` — a literal has no control characters, is closed by its last character only, and
  is decoded to its text.
-/

namespace PlugTaxonomy.Cpp

namespace Literal

/-! ### Decoding -/

/-- The byte that a letter stands for behind a backslash. -/
def escapedByte? : Char → Option UInt8
  | '"' => some 0x22
  | '\'' => some 0x27
  | '?' => some 0x3f
  | '\\' => some 0x5c
  | 'a' => some 0x07
  | 'b' => some 0x08
  | 't' => some 0x09
  | 'n' => some 0x0a
  | 'v' => some 0x0b
  | 'f' => some 0x0c
  | 'r' => some 0x0d
  | _ => none

/-- The digits of an octal escape: as many as there are at the front of a text, up to three. -/
def octalDigits (cs : List Char) : List Char :=
  (cs.take 3).takeWhile fun c => '0' ≤ c ∧ c ≤ '7'

/-- The byte that octal digits denote. -/
def octalByte? (digits : List Char) : Option UInt8 :=
  let value := Nat.ofDigits 8 (digits.reverse.map fun c => c.toNat - '0'.toNat)
  if value < 256 then some (UInt8.ofNat value) else none

/-- The bytes of a literal behind its opening quote.  The closing quote has to be the last
character, and the literal must not reach beyond its line. -/
def decodeBody? (cs : List Char) : Option (List UInt8) :=
  match cs with
  | [] => none
  | '"' :: rest => if rest.isEmpty then some [] else none
  | '\\' :: rest =>
    if _h : octalDigits rest = [] then
      match rest with
      | [] => none
      | c :: rest => do return (← escapedByte? c) :: (← decodeBody? rest)
    else do
      return (← octalByte? (octalDigits rest)) ::
        (← decodeBody? (rest.drop (octalDigits rest).length))
  | c :: rest => if c = '\n' then none else (decodeBody? rest).map (String.utf8EncodeChar c ++ ·)
termination_by cs.length

/-- The text of which a literal holds the bytes. -/
def decode? (text : String) : Option String :=
  match text.toList with
  | '"' :: cs => (decodeBody? cs).bind fun bytes => String.fromUTF8? bytes.toByteArray
  | _ => none

/-- What follows these characters is escaped: they end in a backslash that is not escaped itself. -/
def Escapes (cs : List Char) : Prop :=
  Odd (cs.rtakeWhile (· = '\\')).length

/-! ### Characters as they are written -/

/-- What stands for a character in a literal. -/
inductive Stands (c : Char) : List Char → Prop where
  /-- A letter behind a backslash. -/
  | letter {d : Char} (hascii : c.toNat < 128)
      (hletter : escapedByte? d = some (UInt8.ofNat c.toNat)) : Stands c ['\\', d]
  /-- Three octal digits behind a backslash. -/
  | octal (hascii : c.toNat < 128) : Stands c ('\\' :: Text.octalPadded 3 c.toNat)
  /-- The character itself. -/
  | itself (hquote : c ≠ '"') (hbackslash : c ≠ '\\') (hcontrol : isControl c = false) :
      Stands c [c]

theorem stands_literalChar (c : Char) : Stands c (literalChar c) := by
  rw [literalChar]
  split
  · rename_i hc
    rw [hc]
    exact .letter (by decide) rfl
  split
  · rename_i hc
    rw [hc]
    exact .letter (by decide) rfl
  split
  · rename_i hc
    rw [hc]
    exact .letter (by decide) rfl
  split
  · rename_i hc
    rw [hc]
    exact .letter (by decide) rfl
  split
  · rename_i hcontrol
    rw [isControl, Bool.or_eq_true, decide_eq_true_iff, beq_iff_eq] at hcontrol
    exact .octal (by omega)
  · rename_i hquote hbackslash _ _ hcontrol
    exact .itself hquote hbackslash (Bool.eq_false_iff.mpr hcontrol)

/-- The characters that stand for a byte behind a backslash. -/
def escapeLetters : List Char :=
  ['"', '\'', '?', '\\', 'a', 'b', 't', 'n', 'v', 'f', 'r']

theorem mem_escapeLetters {c : Char} {byte : UInt8} (h : escapedByte? c = some byte) :
    c ∈ escapeLetters := by
  rw [escapedByte?.eq_def] at h
  split at h
  case h_12 => cases h
  all_goals decide

/-- The characters of an octal escape are digits. -/
theorem digits_of_octalPadded {n : Nat} (h : n < 128) :
    ∀ c ∈ Text.octalPadded 3 n, '0' ≤ c ∧ c ≤ '7' := by
  have hall : ∀ n < 128, (Text.octalPadded 3 n).all (fun c => '0' ≤ c ∧ c ≤ '7') = true := by
    decide +kernel
  exact fun c hc => of_decide_eq_true (List.all_eq_true.mp (hall n h) c hc)

/-! ### Characters are decoded -/

/-- A letter that stands for a byte is no octal digit, so the escape ends behind it. -/
theorem decodeBody?_letter {c : Char} {byte : UInt8} (h : escapedByte? c = some byte)
    (rest : List Char) :
    decodeBody? ('\\' :: c :: rest) = (decodeBody? rest).map ([byte] ++ ·) := by
  have hletters : escapeLetters.all (fun c => ¬('0' ≤ c ∧ c ≤ '7')) = true := by decide
  have hdigit := of_decide_eq_true (List.all_eq_true.mp hletters c (mem_escapeLetters h))
  have hnone : octalDigits (c :: rest) = [] := by
    rw [octalDigits, List.take_succ_cons, List.takeWhile_cons_of_neg (by simpa using hdigit)]
  rw [decodeBody?, dif_pos hnone]
  dsimp only
  rw [h]
  cases decodeBody? rest <;> rfl

/-- An octal escape of three digits ends behind them, also where another digit follows. -/
theorem octalDigits_octalPadded {n : Nat} (h : n < 128) (rest : List Char) :
    octalDigits (Text.octalPadded 3 n ++ rest) = Text.octalPadded 3 n := by
  have hlength : (Text.octalPadded 3 n).length = 3 := by
    rw [octalPadded_eq h]
    rfl
  rw [octalDigits, List.take_left' hlength, List.takeWhile_eq_self_iff]
  exact fun c hc => decide_eq_true (digits_of_octalPadded h c hc)

theorem octalByte?_octalPadded {n : Nat} (h : n < 128) :
    octalByte? (Text.octalPadded 3 n) = some (UInt8.ofNat n) := by
  revert n
  decide +kernel

theorem decodeBody?_octal {n : Nat} (h : n < 128) (rest : List Char) :
    decodeBody? ('\\' :: Text.octalPadded 3 n ++ rest) =
      (decodeBody? rest).map ([UInt8.ofNat n] ++ ·) := by
  have hdigits := octalDigits_octalPadded h rest
  have hsome : octalDigits (Text.octalPadded 3 n ++ rest) ≠ [] := by
    rw [hdigits, octalPadded_eq h]
    exact List.cons_ne_nil _ _
  rw [List.cons_append, decodeBody?, dif_neg hsome, hdigits, octalByte?_octalPadded h,
    List.drop_left]
  cases decodeBody? rest <;> rfl

/-- A character is decoded from what stands for it in a literal. -/
theorem decodeBody?_literalChar (c : Char) (rest : List Char) :
    decodeBody? (literalChar c ++ rest) =
      (decodeBody? rest).map (String.utf8EncodeChar c ++ ·) := by
  have hascii : c.toNat < 128 → String.utf8EncodeChar c = [UInt8.ofNat c.toNat] :=
    fun h => if_pos (Nat.le_of_lt_succ h)
  have h := stands_literalChar c
  generalize literalChar c = cs at h ⊢
  cases h with
  | letter h hletter =>
    rw [hascii h]
    exact decodeBody?_letter hletter rest
  | octal h =>
    rw [hascii h]
    exact decodeBody?_octal h rest
  | itself hquote hbackslash hcontrol =>
    have hbreak : c ≠ '\n' := by
      rintro rfl
      cases hcontrol
    rw [List.singleton_append, decodeBody?.eq_4 _ _ hquote hbackslash, if_neg hbreak]

/-- The characters of a text are decoded to its bytes. -/
theorem decodeBody?_literalChars (cs : List Char) :
    decodeBody? (cs.flatMap literalChar ++ ['"']) = some (cs.flatMap String.utf8EncodeChar) := by
  induction cs with
  | nil =>
    rw [List.flatMap_nil, List.nil_append, decodeBody?]
    rfl
  | cons c cs ih =>
    rw [List.flatMap_cons, List.append_assoc, decodeBody?_literalChar, ih]
    rfl

/-- **Literals are decoded** to the texts for which they stand. -/
theorem decode?_literal (text : String) : decode? (literal text) = some text := by
  have hbytes : (text.toList.flatMap String.utf8EncodeChar).toByteArray = text.toByteArray := by
    conv => rhs; rw [← text.ofList_toList, String.toByteArray_ofList, List.utf8Encode]
  rw [decode?, literal, String.toList_ofList, List.cons_append]
  show (decodeBody? (text.toList.flatMap literalChar ++ ['"'])).bind _ = _
  rw [decodeBody?_literalChars, Option.bind_some, hbytes]
  exact dif_pos text.isValidUTF8

/-! ### Quotes within a literal -/

theorem escapes_append_backslash {cs : List Char} :
    Escapes (cs ++ ['\\']) ↔ ¬Escapes cs := by
  rw [Escapes, Escapes, List.rtakeWhile_concat_pos _ _ _ (by decide), List.length_append,
    Nat.not_odd_iff_even]
  exact Nat.odd_add_one.trans Nat.not_odd_iff_even

theorem not_escapes_append {c : Char} (h : c ≠ '\\') (cs : List Char) :
    ¬Escapes (cs ++ [c]) := by
  rw [Escapes, List.rtakeWhile_concat_neg _ _ _ (by simpa using h)]
  exact Nat.not_odd_zero

/-- Behind what stands for some characters nothing is escaped. -/
theorem not_escapes_literalChars (cs : List Char) : ¬Escapes (cs.flatMap literalChar) := by
  induction cs using List.reverseRecOn with
  | nil => exact Nat.not_odd_zero
  | append_singleton cs c ih =>
    rw [List.flatMap_append, List.flatMap_singleton]
    have h := stands_literalChar c
    generalize literalChar c = written at h ⊢
    cases h with
    | @letter d _ _ =>
      rw [← List.singleton_append, ← List.append_assoc]
      by_cases hd : d = '\\'
      · rw [hd, escapes_append_backslash, escapes_append_backslash, not_not]
        exact ih
      · exact not_escapes_append hd _
    | octal hascii =>
      have hlast : ∀ n < 8, Nat.digitChar n ≠ '\\' := by decide
      rw [octalPadded_eq hascii, List.append_cons, List.append_cons, List.append_cons]
      exact not_escapes_append (hlast _ (Nat.mod_lt _ (by omega))) _
    | itself _ hbackslash _ => exact not_escapes_append hbackslash _

/-- Only a quote is written with a quote in it, and with a backslash in front. -/
theorem eq_backslash_of_quote {c : Char} {front back : List Char}
    (h : literalChar c = front ++ '"' :: back) : front = ['\\'] := by
  have hmem : '"' ∈ literalChar c := h ▸ List.mem_append_right _ List.mem_cons_self
  have hc := stands_literalChar c
  generalize literalChar c = written at h hmem hc
  cases hc with
  | letter _ _ =>
    match front, h with
    | [], h => exact absurd (List.cons.inj h).1 (by decide)
    | [d], h => rw [(List.cons.inj h).1]
    | d :: e :: front, h => simp at h
  | octal hascii =>
    rcases List.mem_cons.mp hmem with hquote | hquote
    · exact absurd hquote (by decide)
    · exact absurd (digits_of_octalPadded hascii _ hquote) (by decide)
  | itself hquote _ _ => exact absurd (List.mem_singleton.mp hmem).symm hquote

/-- In front of a quote stand a backslash and what stands for some characters. -/
theorem exists_of_quote {cs front back : List Char}
    (h : cs.flatMap literalChar = front ++ '"' :: back) :
    ∃ ds : List Char, front = ds.flatMap literalChar ++ ['\\'] := by
  induction cs generalizing front with
  | nil => simp at h
  | cons c cs ih =>
    rw [List.flatMap_cons, List.append_eq_append_iff] at h
    rcases h with ⟨rest, hfront, hrest⟩ | ⟨rest, hc, hrest⟩
    · obtain ⟨ds, hds⟩ := ih hrest
      exact ⟨c :: ds, by rw [hfront, hds, List.flatMap_cons, List.append_assoc]⟩
    · cases rest with
      | nil =>
        obtain ⟨ds, hds⟩ : ∃ ds : List Char, [] = ds.flatMap literalChar ++ ['\\'] :=
          ih hrest.symm
        exact absurd hds.symm (List.append_ne_nil_of_right_ne_nil _ (List.cons_ne_nil _ _))
      | cons d rest =>
        rw [List.cons_append, List.cons.injEq] at hrest
        rw [← hrest.1] at hc
        exact ⟨[], eq_backslash_of_quote hc⟩

/-- Every quote within what stands for some characters is escaped. -/
theorem escapes_of_quote {cs front back : List Char}
    (h : cs.flatMap literalChar = front ++ '"' :: back) : Escapes front := by
  obtain ⟨ds, rfl⟩ := exists_of_quote h
  exact escapes_append_backslash.mpr (not_escapes_literalChars ds)

/-! ### Characters of a literal -/

theorem not_isControl_of_mem_literalChar {c d : Char} (h : d ∈ literalChar c) :
    isControl d = false := by
  have hletters : escapeLetters.all (!isControl ·) = true := by decide
  have hdigits : ∀ n < 8, isControl (Nat.digitChar n) = false := by decide
  have hc := stands_literalChar c
  generalize literalChar c = written at h hc
  cases hc with
  | letter _ hletter =>
    rw [List.mem_cons, List.mem_singleton] at h
    rcases h with rfl | rfl
    · rfl
    · exact (Bool.not_eq_true' _).mp (List.all_eq_true.mp hletters d (mem_escapeLetters hletter))
  | octal hascii =>
    rw [octalPadded_eq hascii] at h
    simp only [List.mem_cons, List.not_mem_nil, or_false] at h
    rcases h with rfl | rfl | rfl | rfl
    · rfl
    all_goals exact hdigits _ (by omega)
  | itself _ _ hcontrol => exact List.mem_singleton.mp h ▸ hcontrol

theorem not_isControl_of_mem_literal {text : String} {c : Char} (h : c ∈ (literal text).toList) :
    isControl c = false := by
  rw [literal, String.toList_ofList, List.mem_append, List.mem_cons, List.mem_flatMap,
    List.mem_singleton] at h
  rcases h with (rfl | ⟨d, -, hc⟩) | rfl
  · rfl
  · exact not_isControl_of_mem_literalChar hc
  · rfl

/-- **Literals are faithful.**  No control character stands in the literal of a text.  It is opened
by its first character and closed by its last one, since all quotes in between are escaped and the
last one is not.  It is decoded to the text, so different texts have different literals. -/
theorem literal_decoded (text : String) :
    (∀ c ∈ (literal text).toList, 0x20 ≤ c.toNat ∧ c.toNat ≠ 0x7f) ∧
      (∃ body, (literal text).toList = '"' :: body ++ ['"'] ∧ ¬Escapes body ∧
        ∀ front back, body = front ++ '"' :: back → Escapes front) ∧
      decode? (literal text) = some text ∧
      ∀ other, literal text = literal other ↔ text = other := by
  refine ⟨fun c hc => ?_, ⟨text.toList.flatMap literalChar, ?_, not_escapes_literalChars _,
    fun front back => escapes_of_quote⟩, decode?_literal text, fun other => ⟨fun h => ?_, congrArg _⟩⟩
  · have hcontrol := not_isControl_of_mem_literal hc
    rw [isControl, Bool.or_eq_false_iff, decide_eq_false_iff_not, beq_eq_false_iff_ne] at hcontrol
    exact ⟨Nat.le_of_not_lt hcontrol.1, hcontrol.2⟩
  · rw [literal, String.toList_ofList]
  · have hdecoded := decode?_literal text
    rw [h, decode?_literal, Option.some.injEq] at hdecoded
    exact hdecoded.symm

/-- A control character in front of a digit, and a backslash in front of a quote. -/
theorem literal_decoded_sample :
    '3' ∈ (literal "\x1b1\\\"").toList ∧ (0x20 ≤ '3'.toNat ∧ '3'.toNat ≠ 0x7f) ∧
      literal "\x1b1\\\"" = "\"\\0331\\\\\\\"\"" ∧
      decode? "\"\\0331\\\\\\\"\"" = some "\x1b1\\\"" := by
  have hliteral : literal "\x1b1\\\"" = "\"\\0331\\\\\\\"\"" := by decide +kernel
  have hmem : '3' ∈ (literal "\x1b1\\\"").toList := by decide +kernel
  obtain ⟨hchars, -, hdecode, -⟩ := literal_decoded "\x1b1\\\""
  exact ⟨hmem, hchars '3' hmem, hliteral, hliteral ▸ hdecode⟩

end Literal

end PlugTaxonomy.Cpp
