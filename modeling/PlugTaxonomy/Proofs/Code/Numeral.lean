import PlugTaxonomy.Code.Numeral
import PlugTaxonomy.Proofs.Text.Blank
import PlugTaxonomy.Proofs.Text.Numeral

/-!
# The numerals that denote codes

A numeral is told by its grammar: a prefix for the base, a plus sign that may be left out, and at
least one digit.

* `Text.IsDigit`, `Text.Denotes` — the value of a digit, and the number of a run of digits;
* `Text.readUnsigned?_eq_some_iff` — the numbers below a limit that are read, and what from;
* `Code.IsNumeral` — the grammar of numerals, with the number that each of them denotes;
* `Code.readNumeral?_eq_some_iff` — numerals of 64 bits, and no others, are read;
* `Code.read_iff_isNumeral` — a text is a code, is out of range, or is invalid;
* `Code.read_text` — what is written for a code is read as the code.
-/

namespace PlugTaxonomy

namespace Text

/-- A character is a digit of a base, a letter in either case. -/
def IsDigit (base : Nat) (c : Char) (digit : Nat) : Prop :=
  digit < base ∧ (c = Nat.digitChar digit ∨ c = (Nat.digitChar digit).toUpper)

/-- Digits, the highest one first, denote a number. -/
def Denotes (base : Nat) (cs : List Char) (n : Nat) : Prop :=
  ∃ digits, List.Forall₂ (IsDigit base) cs digits ∧ n = Nat.ofDigits base digits.reverse

/-- An unsigned numeral without a prefix: a plus sign that may be left out, and some digits. -/
def IsUnsigned (base : Nat) (cs : List Char) (n : Nat) : Prop :=
  ∃ sign digits, (sign = [] ∨ sign = ['+']) ∧ digits ≠ [] ∧ Denotes base digits n ∧
    cs = sign ++ digits

/-! ### Digits are read -/

/-- Only ASCII characters are digits. -/
theorem ascii_of_digitValue? {base digit : Nat} {c : Char} (h : digitValue? base c = some digit) :
    c.toNat < 128 := by
  have hle : ∀ d : Char, c ≤ d → d.toNat < 128 → c.toNat < 128 :=
    fun d hc hd => Nat.lt_of_le_of_lt (UInt32.le_iff_toNat_le.mp hc) hd
  rw [digitValue?, Option.filter_eq_some_iff] at h
  obtain ⟨hvalue, -⟩ := h
  split at hvalue
  · rename_i hrange
    exact hle '9' hrange.2 (by decide)
  split at hvalue
  · rename_i hrange
    exact hle 'f' hrange.2 (by decide)
  split at hvalue
  · rename_i hrange
    exact hle 'F' hrange.2 (by decide)
  · cases hvalue

section Base

variable {base : Nat} (hbase : base ≤ 16)
include hbase

theorem digitValue?_eq_some_iff {c : Char} {digit : Nat} :
    digitValue? base c = some digit ↔ IsDigit base c digit := by
  have hsixteen : digitValue? base c = some digit ↔
      digit < base ∧ digitValue? 16 c = some digit := by
    rw [digitValue?, digitValue?, Option.filter_eq_some_iff, Option.filter_eq_some_iff,
      decide_eq_true_iff, decide_eq_true_iff]
    exact ⟨fun h => ⟨h.2, h.1, by omega⟩, fun h => ⟨h.2.1, h.1⟩⟩
  rw [hsixteen, IsDigit, and_congr_right_iff]
  intro hlt
  constructor
  · intro h
    have hall : ∀ n < 128, ∀ d < 16, digitValue? 16 (Char.ofNat n) = some d →
        Char.ofNat n = Nat.digitChar d ∨ Char.ofNat n = (Nat.digitChar d).toUpper := by
      decide +kernel
    have hc := hall c.toNat (ascii_of_digitValue? h) digit (by omega)
    rw [Char.ofNat_toNat] at hc
    exact hc h
  · have hall : ∀ d < 16, digitValue? 16 (Nat.digitChar d) = some d ∧
        digitValue? 16 (Nat.digitChar d).toUpper = some d := by
      decide
    rintro (rfl | rfl)
    · exact (hall digit (by omega)).1
    · exact (hall digit (by omega)).2

theorem readDigits?_eq_some_iff {read n : Nat} {cs : List Char} :
    readDigits? base read cs = some n ↔ ∃ digits, List.Forall₂ (IsDigit base) cs digits ∧
      n = digits.foldl (fun value digit => value * base + digit) read := by
  induction cs generalizing read with
  | nil =>
    rw [readDigits?, Option.some.injEq]
    constructor
    · rintro rfl
      exact ⟨[], .nil, rfl⟩
    · rintro ⟨digits, hdigits, hn⟩
      cases hdigits
      exact hn.symm
  | cons c cs ih =>
    rw [readDigits?]
    constructor
    · intro h
      obtain ⟨digit, hdigit, hrest⟩ := Option.bind_eq_some_iff.mp h
      obtain ⟨digits, hdigits, hn⟩ := ih.mp hrest
      exact ⟨digit :: digits, .cons ((digitValue?_eq_some_iff hbase).mp hdigit) hdigits, hn⟩
    · rintro ⟨digits, hdigits, hn⟩
      cases hdigits with
      | cons hdigit hdigits =>
        exact Option.bind_eq_some_iff.mpr
          ⟨_, (digitValue?_eq_some_iff hbase).mpr hdigit, ih.mpr ⟨_, hdigits, hn⟩⟩

/-- Digits are read as the number that they denote. -/
theorem readDigits?_zero_eq_some_iff {n : Nat} {cs : List Char} :
    readDigits? base 0 cs = some n ↔ Denotes base cs n := by
  have hvalue : ∀ digits : List Nat, Nat.ofDigits base digits.reverse =
      digits.foldl (fun value digit => value * base + digit) 0 := by
    intro digits
    rw [Nat.ofDigits_eq_foldr, List.foldr_reverse]
    congr 1
    funext value digit
    rw [Nat.cast_id, Nat.add_comm, Nat.mul_comm]
  simp only [readDigits?_eq_some_iff hbase, Denotes, hvalue]

theorem not_denotes_plus {cs : List Char} {n : Nat} : ¬Denotes base ('+' :: cs) n := by
  rintro ⟨digits, hdigits, -⟩
  cases hdigits with
  | cons hdigit _ =>
    have hnone : digitValue? base '+' = none := rfl
    rw [(digitValue?_eq_some_iff hbase).mpr hdigit] at hnone
    cases hnone

/-- **Unsigned numerals are read** if their number is below the limit, however many zeros stand in
front, and nothing else is. -/
theorem readUnsigned?_eq_some_iff {limit n : Nat} {cs : List Char} :
    readUnsigned? base limit cs = some n ↔ n < limit ∧ IsUnsigned base cs n := by
  have hread : ∀ digits : List Char,
      (if digits.isEmpty then none else (readDigits? base 0 digits).filter (· < limit)) = some n ↔
        n < limit ∧ digits ≠ [] ∧ Denotes base digits n := by
    intro digits
    cases digits with
    | nil => simp
    | cons c digits =>
      rw [if_neg (by simp), Option.filter_eq_some_iff, readDigits?_zero_eq_some_iff hbase,
        decide_eq_true_iff]
      exact ⟨fun h => ⟨h.2, List.cons_ne_nil _ _, h.1⟩, fun h => ⟨h.2.2, h.1⟩⟩
  by_cases hplus : ∃ rest, cs = '+' :: rest
  · obtain ⟨rest, rfl⟩ := hplus
    rw [readUnsigned?, hread, and_congr_right_iff]
    intro _
    constructor
    · rintro ⟨hne, hdenotes⟩
      exact ⟨['+'], rest, Or.inr rfl, hne, hdenotes, rfl⟩
    · rintro ⟨sign, digits, rfl | rfl, hne, hdenotes, hcs⟩
      · rw [List.nil_append] at hcs
        rw [← hcs] at hdenotes
        exact absurd hdenotes (not_denotes_plus hbase)
      · obtain rfl := (List.cons.inj hcs).2
        exact ⟨hne, hdenotes⟩
  · rw [readUnsigned?.eq_2 _ _ _ fun rest hcs => hplus ⟨rest, hcs⟩, hread, and_congr_right_iff]
    intro _
    constructor
    · rintro ⟨hne, hdenotes⟩
      exact ⟨[], cs, Or.inl rfl, hne, hdenotes, rfl⟩
    · rintro ⟨sign, digits, rfl | rfl, hne, hdenotes, rfl⟩
      · exact ⟨hne, hdenotes⟩
      · exact absurd ⟨digits, rfl⟩ hplus

end Base

end Text

namespace Code

/-- The prefixes of numerals, with the bases that they stand for. -/
inductive IsPrefix : List Char → Nat → Prop where
  | decimal : IsPrefix [] 10
  | lower : IsPrefix ['0', 'x'] 16
  | upper : IsPrefix ['0', 'X'] 16

/-- A numeral: a prefix, a plus sign that may be left out, and at least one digit of the base. -/
def IsNumeral (cs : List Char) (n : Nat) : Prop :=
  ∃ front base rest, IsPrefix front base ∧ Text.IsUnsigned base rest n ∧ cs = front ++ rest

/-- No decimal numeral begins like a hexadecimal one. -/
theorem not_isUnsigned_ten {c : Char} (hc : c = 'x' ∨ c = 'X') {cs : List Char} {n : Nat} :
    ¬Text.IsUnsigned 10 ('0' :: c :: cs) n := by
  intro h
  have hread := (Text.readUnsigned?_eq_some_iff (by omega)).mpr ⟨Nat.lt_succ_self n, h⟩
  rcases hc with rfl | rfl <;> cases hread

/-- **The numerals of 64 bits are read**, and nothing else is. -/
theorem readNumeral?_eq_some_iff {cs : List Char} {n : Nat} :
    readNumeral? cs = some n ↔ n < UInt64.size ∧ IsNumeral cs n := by
  rw [readNumeral?.eq_def]
  split
  case h_1 digits =>
    rw [Text.readUnsigned?_eq_some_iff (by omega), and_congr_right_iff]
    refine fun _ => ⟨fun h => ⟨_, _, digits, .lower, h, rfl⟩, ?_⟩
    rintro ⟨front, base, rest, hprefix, h, hcs⟩
    cases hprefix with
    | decimal =>
      rw [List.nil_append] at hcs
      exact absurd (hcs ▸ h) (not_isUnsigned_ten (Or.inl rfl))
    | lower =>
      obtain rfl := (List.cons.inj (List.cons.inj hcs).2).2
      exact h
    | upper => exact absurd (List.cons.inj (List.cons.inj hcs).2).1 (by decide)
  case h_2 digits =>
    rw [Text.readUnsigned?_eq_some_iff (by omega), and_congr_right_iff]
    refine fun _ => ⟨fun h => ⟨_, _, digits, .upper, h, rfl⟩, ?_⟩
    rintro ⟨front, base, rest, hprefix, h, hcs⟩
    cases hprefix with
    | decimal =>
      rw [List.nil_append] at hcs
      exact absurd (hcs ▸ h) (not_isUnsigned_ten (Or.inr rfl))
    | lower => exact absurd (List.cons.inj (List.cons.inj hcs).2).1 (by decide)
    | upper =>
      obtain rfl := (List.cons.inj (List.cons.inj hcs).2).2
      exact h
  case h_3 hlower hupper =>
    rw [Text.readUnsigned?_eq_some_iff (by omega), and_congr_right_iff]
    refine fun _ => ⟨fun h => ⟨[], _, cs, .decimal, h, rfl⟩, ?_⟩
    rintro ⟨front, base, rest, hprefix, h, rfl⟩
    cases hprefix with
    | decimal => exact h
    | lower => exact absurd rfl (hlower rest)
    | upper => exact absurd rfl (hupper rest)

/-- **What a text is read as.**  Let the blanks at its two ends be left aside.  If the rest is a
numeral, the text is read as a code as long as the number has 16 bits, and is out of range as long as
it has 64 bits; all else is invalid, and what is quoted is the rest. -/
theorem read_iff_isNumeral (text : String) :
    ∃ trimmed, Text.IsTrimmed text.toList trimmed ∧
      (∀ n, (read text).map Code.toNat = .ok n ↔ IsNumeral trimmed n ∧ n < 2 ^ 16) ∧
      (∀ n, read text = .error (.outOfRange n) ↔
        IsNumeral trimmed n ∧ 2 ^ 16 ≤ n ∧ n < 2 ^ 64) ∧
      ∀ quoted, read text = .error (.invalid quoted) ↔
        (¬∃ n < 2 ^ 64, IsNumeral trimmed n) ∧ quoted = String.ofList trimmed := by
  refine ⟨Text.trim text.toList, Text.isTrimmed_trim _, ?_⟩
  rw [read]
  cases hread : readNumeral? (Text.trim text.toList) with
  | none =>
    have hnone : ¬∃ n < 2 ^ 64, IsNumeral (Text.trim text.toList) n := by
      rintro ⟨n, hn, hnumeral⟩
      rw [readNumeral?_eq_some_iff.mpr ⟨hn, hnumeral⟩] at hread
      cases hread
    refine ⟨fun n => ⟨nofun, fun h => ?_⟩, fun n => ⟨nofun, fun h => ?_⟩, fun quoted => ?_⟩
    · exact absurd ⟨n, Nat.lt_trans h.2 (by decide), h.1⟩ hnone
    · exact absurd ⟨n, h.2.2, h.1⟩ hnone
    · constructor
      · exact fun h => ⟨hnone, (CodeError.invalid.inj (Except.error.inj h)).symm⟩
      · rintro ⟨-, rfl⟩
        rfl
  | some value =>
    obtain ⟨hlt, hnumeral⟩ := readNumeral?_eq_some_iff.mp hread
    -- A text that is a numeral denotes one number only.
    have honly : ∀ {n}, IsNumeral (Text.trim text.toList) n → n < 2 ^ 64 → n = value := by
      intro n hn hsize
      rw [readNumeral?_eq_some_iff.mpr ⟨hsize, hn⟩] at hread
      exact Option.some.inj hread
    dsimp only
    by_cases hfits : value < UInt16.size
    · have hvalue : (ofNat value).toNat = value :=
        (BitVec.toNat_ofNat value 16).trans (Nat.mod_eq_of_lt hfits)
      rw [if_pos hfits]
      refine ⟨fun n => ?_, fun n => ⟨nofun, fun h => ?_⟩, fun quoted => ⟨nofun, fun h => ?_⟩⟩
      · show Except.ok (ofNat value).toNat = Except.ok n ↔ _
        rw [hvalue, Except.ok.injEq]
        constructor
        · rintro rfl
          exact ⟨hnumeral, hfits⟩
        · exact fun h => (honly h.1 (Nat.lt_trans h.2 (by decide))).symm
      · rw [honly h.1 h.2.2] at h
        exact absurd h.2.1 (Nat.not_le_of_lt hfits)
      · exact absurd ⟨value, hlt, hnumeral⟩ h.1
    · rw [if_neg hfits]
      refine ⟨fun n => ⟨nofun, fun h => ?_⟩, fun n => ?_, fun quoted => ⟨nofun, fun h => ?_⟩⟩
      · rw [honly h.1 (Nat.lt_trans h.2 (by decide))] at h
        exact absurd h.2 hfits
      · rw [Except.error.injEq, CodeError.outOfRange.injEq]
        constructor
        · rintro rfl
          exact ⟨hnumeral, Nat.le_of_not_lt hfits, hlt⟩
        · exact fun h => (honly h.1 h.2.2).symm
      · exact absurd ⟨value, hlt, hnumeral⟩ h.1

/-- Blanks at the ends, a capital prefix, a sign behind it, zeros in front and small letters. -/
example : Code.read " 0X+00ff\n" = .ok ⟨0xff⟩ := by
  decide +kernel

/-! ### Written codes -/

/-- There are no blanks in what is written for a code. -/
theorem isSolid_text (c : Code) : Text.IsSolid c.text.toList := by
  have hdigit : ∀ d < 16, Text.isBlank (Nat.digitChar d) = false := by decide
  rw [text, String.toList_ofList]
  refine ⟨List.cons_ne_nil _ _, List.forall_mem_cons.mpr ⟨by decide, List.forall_mem_cons.mpr
    ⟨by decide, fun d hd => ?_⟩⟩⟩
  obtain ⟨value, hvalue, rfl⟩ := Text.mem_hexPadded hd
  exact hdigit value hvalue

/-- What is written for a code is read as the code. -/
theorem read_text (c : Code) : read c.text = .ok c := by
  have hsize : c.toNat < UInt16.size := c.bits.isLt
  have hnumeral : readNumeral? c.text.toList = some c.toNat := by
    rw [text, String.toList_ofList]
    exact Text.readUnsigned?_hexPadded 4 (Nat.lt_trans hsize (by decide))
  rw [read, c.isSolid_text.trim_eq, hnumeral]
  simp only [if_pos hsize, ofNat_toNat]

end Code

end PlugTaxonomy
