import PlugTaxonomy.Json.Token
import PlugTaxonomy.Json.Writer
import PlugTaxonomy.Proofs.Text.Numeral

/-!
# Written tokens are scanned again

What the writer puts down for a mark, a word, a text or a number is one token, whatever stands
behind it; only a number needs something behind it that does not go on with it.

* `decode_encode` — a quoted text is decoded to itself, escapes and control characters included;
* `scanNumber_decimal` — the digits of an unsigned number of 64 bits are that number;
* `Token.Spells` — characters stand for tokens: a machine goes through the one as it goes through
  the other;
* `Token.fold_preserves` — what every step of a machine preserves holds at the end.
-/

namespace PlugTaxonomy

/-! ### Quoted texts -/

namespace Quoted

theorem isShort_of_length {cs : List Char} (h : 4 ≤ cs.length) : isShort cs = false := by
  have hsize : ∀ ds : List Char, ds.length ≤ (String.ofList ds).utf8ByteSize := by
    intro ds
    induction ds with
    | nil => exact Nat.zero_le _
    | cons d ds ih =>
      have hpos := Char.utf8Size_pos d
      rw [String.ofList_cons, String.utf8ByteSize_append, String.utf8ByteSize_singleton,
        List.length_cons]
      omega
  have hfour := hsize (cs.take 4)
  rw [List.length_take_of_le h] at hfour
  rw [isShort]
  exact decide_eq_false (by omega)

/-- A control character is written with two zeros in front of its two digits. -/
theorem hexPadded_of_control {n : Nat} (h : n < 0x20) :
    Text.hexPadded 4 n = ['0', '0', Nat.digitChar (n / 16), Nat.digitChar (n % 16)] := by
  have hall : ∀ n < 0x20, Text.hexPadded 4 n =
      ['0', '0', Nat.digitChar (n / 16), Nat.digitChar (n % 16)] := by
    decide +kernel
  exact hall n h

theorem decodeFrom_number {n : Nat} (h : n < 0x20) (decoded rest : List Char) :
    decodeFrom .plain decoded ('\\' :: 'u' :: Text.hexPadded 4 n ++ rest) =
      decodeFrom .plain (Char.ofNat n :: decoded) rest := by
  have hzero : Text.digitValue? 16 '0' = some 0 := by decide
  have hfirst := Text.digitValue?_digitChar (Nat.le_refl 16) (show n / 16 < 16 by omega)
  have hsecond := Text.digitValue?_digitChar (Nat.le_refl 16) (show n % 16 < 16 by omega)
  have hvalue : ((0 * 16 + 0) * 16 + 0) * 16 + n / 16 = n / 16 := by omega
  have hnumber : n / 16 * 16 + n % 16 = n := Nat.div_add_mod' n 16
  have htrailing : isTrailing n = false := by
    simp only [isTrailing, Bool.and_eq_false_iff, decide_eq_false_iff_not]
    omega
  have hleading : isLeading n = false := by
    simp only [isLeading, Bool.and_eq_false_iff, decide_eq_false_iff_not]
    omega
  have hshort : isShort (['0', '0', Nat.digitChar (n / 16), Nat.digitChar (n % 16)] ++ rest) =
      false :=
    isShort_of_length (by simp)
  rw [hexPadded_of_control h]
  show decodeFrom .escape decoded ('u' :: (['0', '0', Nat.digitChar (n / 16),
    Nat.digitChar (n % 16)] ++ rest)) = _
  rw [decodeFrom, show shortEscape? 'u' = none from rfl]
  dsimp only
  rw [if_neg (by decide), hshort, if_neg (by decide)]
  simp only [List.cons_append, List.nil_append, decodeFrom, hzero, hfirst, hsecond, hvalue,
    hnumber, htrailing, hleading, Bool.false_eq_true, if_false]

/-- A character is decoded from what is written for it. -/
theorem decodeFrom_encodeChar (c : Char) (decoded rest : List Char) :
    decodeFrom .plain decoded (encodeChar c ++ rest) = decodeFrom .plain (c :: decoded) rest := by
  rw [encodeChar.eq_def]
  split
  case h_8 _ hquote hslash _ _ _ _ _ =>
    split
    case isTrue hcontrol =>
      rw [decodeFrom_number hcontrol, Char.ofNat_toNat]
    case isFalse hcontrol =>
      rw [List.singleton_append, decodeFrom, if_neg hquote, if_neg hslash, if_neg hcontrol]
  all_goals rfl

/-- **Quoted texts are decoded.**  Behind the opening quote of a written text stands that text, up
to its closing quote. -/
theorem decode_encode (text : String) (rest : List Char) :
    decode (text.toList.flatMap encodeChar ++ '"' :: rest) = .ok (text, rest) := by
  have hfrom : ∀ cs decoded, decodeFrom .plain decoded (cs.flatMap encodeChar ++ '"' :: rest) =
      .ok (decoded.reverse ++ cs, rest) := by
    intro cs
    induction cs with
    | nil =>
      intro decoded
      rw [List.append_nil]
      rfl
    | cons c cs ih =>
      intro decoded
      rw [List.flatMap_cons, List.append_assoc, decodeFrom_encodeChar, ih, List.reverse_cons,
        List.append_assoc, List.singleton_append]
  rw [decode, hfrom]
  show Except.ok (String.ofList ([].reverse ++ text.toList), rest) = .ok (text, rest)
  rw [List.reverse_nil, List.nil_append, String.ofList_toList]

end Quoted

/-! ### Numbers -/

namespace Numeral

/-- Whether a number may go on with a character. -/
def continues (c : Char) : Bool :=
  c.isDigit || c == '.' || c == 'e' || c == 'E'

/-- Nothing that a number could go on with stands at the front. -/
def Ends (cs : List Char) : Prop :=
  ∀ c ∈ cs.head?, continues c = false

theorem Ends.append {cs ds : List Char} (hcs : Ends cs) (hds : Ends ds) : Ends (cs ++ ds) := by
  cases cs with
  | nil => exact hds
  | cons c cs => exact hcs

theorem Ends.not_digit {c : Char} {cs : List Char} (h : Ends (c :: cs)) : c.isDigit = false := by
  have hc := h c rfl
  simp only [continues, Bool.or_eq_false_iff] at hc
  exact hc.1.1.1

theorem isDigit_of_mem_decimal {n : Nat} {c : Char} (h : c ∈ Text.decimal n) :
    c.isDigit = true := by
  have hall : ∀ d < 10, (Nat.digitChar d).isDigit = true := by decide
  obtain ⟨d, hd, rfl⟩ := Text.mem_toDigits (by omega) h
  exact hall d hd

theorem decimal_ne_nil (n : Nat) : Text.decimal n ≠ [] :=
  List.length_pos_iff.mp Nat.length_toDigits_pos

/-- No number but zero begins with a zero. -/
theorem head_decimal_ne_zero {n : Nat} (h : 0 < n) : (Text.decimal n).head? ≠ some '0' := by
  induction n using Nat.strongRecOn with
  | ind n ih =>
    rw [Text.decimal]
    by_cases hn : n < 10
    · have hall : ∀ d < 10, 0 < d → Nat.digitChar d ≠ '0' := by decide
      rw [Nat.toDigits_of_lt_base hn, List.head?_cons]
      exact fun hzero => hall n hn h (Option.some.inj hzero)
    · have hfront := ih (n / 10) (by omega) (by omega)
      rw [Nat.toDigits_of_base_le (by omega) (by omega)]
      obtain ⟨d, ds, hds⟩ := List.exists_cons_of_ne_nil (decimal_ne_nil (n / 10))
      rw [Text.decimal] at hds hfront
      rw [hds] at hfront ⊢
      exact hfront

theorem someDigits_append {digits rest : List Char} (hne : digits ≠ [])
    (hdigits : ∀ c ∈ digits, c.isDigit = true) (hrest : Ends rest) :
    someDigits (digits ++ rest) = .ok (digits, rest) := by
  obtain ⟨d, ds, rfl⟩ := List.exists_cons_of_ne_nil hne
  have hds : ∀ c ∈ ds, c.isDigit = true := fun c hc => hdigits c (List.mem_cons_of_mem d hc)
  have hstop : rest.takeWhile Char.isDigit = [] ∧ rest.dropWhile Char.isDigit = rest := by
    cases rest with
    | nil => exact ⟨rfl, rfl⟩
    | cons c rest =>
      have hc := hrest.not_digit
      exact ⟨List.takeWhile_cons_of_neg (by rw [hc]; decide),
        List.dropWhile_cons_of_neg (by rw [hc]; decide)⟩
  rw [List.cons_append, someDigits, if_pos (hdigits d List.mem_cons_self),
    List.takeWhile_append_of_pos hds, List.dropWhile_append_of_pos hds, hstop.1, hstop.2,
    List.append_nil]

theorem scanWhole_decimal (n : Nat) {rest : List Char} (hrest : Ends rest) :
    scanWhole (Text.decimal n ++ rest) = .ok (Text.decimal n, rest) := by
  rcases Nat.eq_zero_or_pos n with rfl | hn
  · cases rest with
    | nil => rfl
    | cons c rest =>
      show (if c.isDigit = true then _ else _) = _
      rw [hrest.not_digit]
      rfl
  · rw [scanWhole.eq_def]
    split
    · rename_i hlist
      obtain ⟨d, ds, hds⟩ := List.exists_cons_of_ne_nil (decimal_ne_nil n)
      have hhead := head_decimal_ne_zero hn
      rw [hds, List.cons_append] at hlist
      rw [hds, List.head?_cons, (List.cons.inj hlist).1] at hhead
      exact absurd rfl hhead
    · exact someDigits_append (decimal_ne_nil n) (fun c => isDigit_of_mem_decimal) hrest

/-- The digits of a number, with nothing behind them that a number could go on with. -/
theorem scan_decimal (n : Nat) {rest : List Char} (hrest : Ends rest) :
    scan false (Text.decimal n ++ rest) = .ok (⟨false, Text.decimal n, none, none⟩, rest) := by
  have hfraction : scanFraction rest = .ok (none, rest) := by
    rw [scanFraction.eq_def]
    split
    · have hdot : continues '.' = true := rfl
      rw [hrest '.' rfl] at hdot
      cases hdot
    · rfl
  have hexponent : scanExponent rest = .ok (none, rest) := by
    cases rest with
    | nil => rfl
    | cons c rest =>
      have hc := hrest c rfl
      simp only [continues, Bool.or_eq_false_iff, beq_eq_false_iff_ne] at hc
      rw [scanExponent, if_neg (not_or.mpr ⟨hc.1.2, hc.2⟩)]
  simp only [scan, scanWhole_decimal n hrest, hfraction, hexponent, bind, Except.bind, pure,
    Except.pure]

theorem gather_append {gathered value : Nat} {cs : List Char}
    (h : gather gathered cs = (value, 0)) (ds : List Char) :
    gather gathered (cs ++ ds) = gather value ds := by
  induction cs generalizing gathered with
  | nil =>
    rw [gather] at h
    rw [List.nil_append, (Prod.mk.inj h).1]
  | cons c cs ih =>
    rw [gather] at h
    rw [List.cons_append, gather]
    split at h
    · rename_i hfits
      rw [if_pos hfits]
      exact ih h
    · exact absurd (Prod.mk.inj h).2 (Nat.succ_ne_zero _)

/-- No digit of an unsigned number of 64 bits is dropped. -/
theorem gather_decimal {n : Nat} (h : n < UInt64.size) :
    gather 0 (Text.decimal n) = (n, 0) := by
  have hdigit : ∀ d < 10, (Nat.digitChar d).toNat - '0'.toNat = d := by decide
  have hone : ∀ front d, d < 10 → front * 10 + d < UInt64.size →
      gather front [Nat.digitChar d] = (front * 10 + d, 0) := by
    intro front d hd hfits
    rw [gather, hdigit d hd]
    exact if_pos hfits
  induction n using Nat.strongRecOn with
  | ind n ih =>
    rw [Text.decimal]
    by_cases hn : n < 10
    · have hlast := hone 0 n hn (by omega)
      rw [Nat.zero_mul, Nat.zero_add] at hlast
      rw [Nat.toDigits_of_lt_base hn, hlast]
    · have hfront := ih (n / 10) (by omega) (by omega)
      have hlast := hone (n / 10) (n % 10) (by omega) (by omega)
      rw [Nat.div_add_mod'] at hlast
      rw [Nat.toDigits_of_base_le (by omega) (by omega)]
      exact (gather_append hfront _).trans hlast

theorem value_decimal {n : Nat} (h : n < UInt64.size) :
    value ⟨false, Text.decimal n, none, none⟩ = .ok (.integer n) := by
  simp [value, gather_decimal h]

end Numeral

namespace Token

open Numeral (Ends)

/-- A digit begins a number. -/
theorem scan_of_isDigit {c : Char} (h : c.isDigit = true) (cs : List Char) :
    scan c cs = scanNumber false (c :: cs) := by
  rw [scan.eq_def]
  split
  case h_12 => rw [if_pos h]
  all_goals cases h

theorem isSeparator_of_isDigit {c : Char} (h : c.isDigit = true) : isSeparator c = false := by
  rw [isSeparator, ← Bool.not_eq_true]
  intro hseparator
  simp only [Bool.or_eq_true, beq_iff_eq] at hseparator
  rcases hseparator with ((rfl | rfl) | rfl) | rfl <;> cases h

theorem scanNumber_decimal {n : Nat} (h : n < UInt64.size) {rest : List Char}
    (hrest : Ends rest) :
    scanNumber false (Text.decimal n ++ rest) = (number (.integer n), rest) := by
  simp only [scanNumber, Numeral.scan_decimal n hrest, Numeral.value_decimal h]

/-! ### Machines -/

section Fold

variable {σ ε : Type} (step : σ → Token → Except ε σ)

theorem fold_nil (state : σ) : fold step state [] = .ok state := by
  rw [fold]
  rfl

/-- A machine takes the token that begins at the front, and goes on behind it. -/
theorem fold_cons {c : Char} (h : isSeparator c = false) (state : σ) (cs : List Char) :
    fold step state (c :: cs) =
      (step state (scan c cs).1).bind fun next => fold step next (scan c cs).2 := by
  have hdrop : (c :: cs).dropWhile isSeparator = c :: cs :=
    List.dropWhile_cons_of_neg (by rw [h]; decide)
  rw [fold]
  split
  · rename_i hnil
    rw [hdrop] at hnil
    cases hnil
  · rename_i hcons
    rw [hdrop, List.cons.injEq] at hcons
    obtain ⟨rfl, rfl⟩ := hcons
    cases step state (scan c cs).1 <;> rfl

/-- **Invariants of machines.**  What every step preserves holds at the end if it holds at the
start. -/
theorem fold_preserves {step : σ → Token → Except ε σ} (invariant : σ → Prop)
    (hstep : ∀ state token next, invariant state → step state token = .ok next → invariant next)
    {state last : σ} {cs : List Char} (hstart : invariant state)
    (h : fold step state cs = .ok last) : invariant last := by
  fun_induction fold step state cs with
  | case1 state cs hnil => exact Except.ok.inj h ▸ hstart
  | case2 state cs c rest hcons error herror => cases h
  | case3 state cs c rest hcons next hnext ih => exact ih (hstep _ _ _ hstart hnext) h

end Fold

/-! ### Characters for tokens -/

/-- Characters stand for tokens: where nothing behind them goes on with a number, a machine that
goes through the characters goes through the tokens. -/
def Spells (cs : List Char) (tokens : List Token) : Prop :=
  ∀ (σ ε : Type) (step : σ → Token → Except ε σ) (state : σ) (rest : List Char), Ends rest →
    fold step state (cs ++ rest) =
      (tokens.foldlM step state).bind fun next => fold step next rest

namespace Spells

theorem append {cs ds : List Char} {tokens others : List Token} (hcs : Spells cs tokens)
    (hds : Spells ds others) (hends : Ends ds) : Spells (cs ++ ds) (tokens ++ others) := by
  intro σ ε step state rest hrest
  rw [List.append_assoc, hcs σ ε step state _ (hends.append hrest), List.foldlM_append]
  cases tokens.foldlM step state with
  | error error => rfl
  | ok next => exact hds σ ε step next rest hrest

/-- A character that is a token by itself. -/
theorem cons {c : Char} {token : Token} (hseparator : isSeparator c = false)
    (hscan : ∀ rest, scan c rest = (token, rest)) {cs : List Char} {tokens : List Token}
    (hcs : Spells cs tokens) : Spells (c :: cs) (token :: tokens) := by
  intro σ ε step state rest hrest
  rw [List.cons_append, fold_cons step hseparator, hscan, List.foldlM_cons]
  cases step state token with
  | error error => rfl
  | ok next => exact hcs σ ε step next rest hrest

/-- Characters that are one token where they end. -/
theorem single {c : Char} {cs : List Char} {token : Token} (hseparator : isSeparator c = false)
    (hscan : ∀ rest, Ends rest → scan c (cs ++ rest) = (token, rest)) :
    Spells (c :: cs) [token] := by
  intro σ ε step state rest hrest
  rw [List.cons_append, fold_cons step hseparator, hscan rest hrest, List.foldlM_cons]
  cases step state token with
  | error error => rfl
  | ok next => rfl

theorem null : Spells ['n', 'u', 'l', 'l'] [Token.null] :=
  single rfl fun _ _ => rfl

theorem boolean (value : Bool) : Spells (booleanText value) [Token.boolean value] := by
  cases value with
  | false => exact single rfl fun _ _ => rfl
  | true => exact single rfl fun _ _ => rfl

theorem scan_quote {cs rest : List Char} {text : String}
    (h : Quoted.decode cs = .ok (text, rest)) : scan '"' cs = (Token.string text, rest) := by
  simp only [scan, h]

theorem string (text : String) : Spells (Quoted.encode text) [Token.string text] := by
  refine single rfl fun rest _ => scan_quote ?_
  show Quoted.decode (text.toList.flatMap Quoted.encodeChar ++ ['"'] ++ rest) = _
  rw [List.append_assoc, List.singleton_append, Quoted.decode_encode]

theorem number {n : Nat} (h : n < UInt64.size) :
    Spells (JsonNumber.integer n).text [Token.number (.integer n)] := by
  have htext : (JsonNumber.integer n).text = Text.decimal n := by
    show (toString (n : Int)).toList = Nat.toDigits 10 n
    exact String.toList_ofList
  obtain ⟨d, ds, hds⟩ := List.exists_cons_of_ne_nil (Numeral.decimal_ne_nil n)
  have hdigit : d.isDigit = true :=
    Numeral.isDigit_of_mem_decimal (hds ▸ List.mem_cons_self)
  rw [htext, hds]
  refine single (isSeparator_of_isDigit hdigit) fun rest hrest => ?_
  rw [scan_of_isDigit hdigit, ← List.cons_append, ← hds]
  exact scanNumber_decimal h hrest

end Spells

end Token

end PlugTaxonomy
