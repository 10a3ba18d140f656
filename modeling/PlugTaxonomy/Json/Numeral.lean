import PlugTaxonomy.Json.Error
import PlugTaxonomy.Text.Numeral

/-!
# Numbers in JSON

A number is an integral part without leading zeros, then possibly a fraction and an exponent,
each with at least one digit.

* `Numeral` — the digits of a number;
* `Numeral.scan` — the number at the front of a text, with what stands behind it;
* `Numeral.value` — the number that the digits denote.

The digits are gathered in a word of 64 bits.  A digit that would not fit any more is dropped
with all that follow it in its part; digits dropped from the integral part still count as powers
of ten.
-/

namespace PlugTaxonomy

/-- A number as it is written. -/
structure Numeral where
  negative : Bool
  whole : List Char
  fraction : Option (List Char)
  exponent : Option (Bool × List Char)
  deriving DecidableEq, Repr

namespace Numeral

/-! ### Reading -/

/-- The digits at the front of a text where there has to be one, with what stands behind
them. -/
def someDigits (cs : List Char) : Except Malformed (List Char × List Char) :=
  match cs with
  | [] => .error .endInValue
  | c :: cs =>
    if c.isDigit then .ok (c :: cs.takeWhile Char.isDigit, cs.dropWhile Char.isDigit)
    else .error .invalidNumber

/-- The sign at the front of a text: whether it is a minus sign. -/
def scanSign : List Char → Bool × List Char
  | '-' :: cs => (true, cs)
  | '+' :: cs => (false, cs)
  | cs => (false, cs)

/-- The exponent at the front of a text, if there is one: whether it is negative, and its
digits. -/
def scanExponent (cs : List Char) : Except Malformed (Option (Bool × List Char) × List Char) :=
  match cs with
  | [] => .ok (none, [])
  | c :: cs =>
    if c = 'e' ∨ c = 'E' then do
      let (digits, rest) ← someDigits (scanSign cs).2
      return (some ((scanSign cs).1, digits), rest)
    else .ok (none, c :: cs)

/-- The fraction at the front of a text, if there is one. -/
def scanFraction (cs : List Char) : Except Malformed (Option (List Char) × List Char) :=
  match cs with
  | '.' :: cs => do
    let (digits, cs) ← someDigits cs
    return (some digits, cs)
  | cs => .ok (none, cs)

/-- The integral part at the front of a text. -/
def scanWhole (cs : List Char) : Except Malformed (List Char × List Char) :=
  match cs with
  | '0' :: c :: cs => if c.isDigit then .error .invalidNumber else .ok (['0'], c :: cs)
  | cs => someDigits cs

/-- The number at the front of a text, a minus sign having been read. -/
def scan (negative : Bool) (cs : List Char) : Except Malformed (Numeral × List Char) := do
  let (whole, cs) ← scanWhole cs
  let (fraction, cs) ← scanFraction cs
  let (exponent, cs) ← scanExponent cs
  return (⟨negative, whole, fraction, exponent⟩, cs)

/-! ### Length -/

theorem length_dropWhile_le (p : Char → Bool) (cs : List Char) :
    (cs.dropWhile p).length ≤ cs.length :=
  (List.dropWhile_sublist p).length_le

theorem someDigits_length {cs digits rest : List Char} (h : someDigits cs = .ok (digits, rest)) :
    rest.length < cs.length := by
  cases cs with
  | nil => simp [someDigits] at h
  | cons c cs =>
    simp only [someDigits] at h
    split at h
    · simp only [Except.ok.injEq, Prod.mk.injEq] at h
      have := length_dropWhile_le Char.isDigit cs
      simp only [← h.2, List.length_cons]
      omega
    · simp at h

theorem scanSign_length (cs : List Char) : (scanSign cs).2.length ≤ cs.length := by
  unfold scanSign
  split <;> simp

theorem scanExponent_length {cs rest : List Char} {exponent : Option (Bool × List Char)}
    (h : scanExponent cs = .ok (exponent, rest)) : rest.length ≤ cs.length := by
  cases cs with
  | nil => simp_all [scanExponent]
  | cons c cs =>
    simp only [scanExponent] at h
    split at h
    · cases hd : someDigits (scanSign cs).2 with
      | error e => simp [hd, bind, Except.bind] at h
      | ok found =>
        have := someDigits_length hd
        have := scanSign_length cs
        simp only [hd, bind, Except.bind, pure, Except.pure, Except.ok.injEq,
          Prod.mk.injEq] at h
        simp only [← h.2, List.length_cons]
        omega
    · simp only [Except.ok.injEq, Prod.mk.injEq] at h
      simp [← h.2]

theorem scanFraction_length {cs rest : List Char} {fraction : Option (List Char)}
    (h : scanFraction cs = .ok (fraction, rest)) : rest.length ≤ cs.length := by
  unfold scanFraction at h
  split at h
  · rename_i cs
    cases hd : someDigits cs with
    | error e => simp [hd, bind, Except.bind] at h
    | ok found =>
      have := someDigits_length hd
      simp only [hd, bind, Except.bind, pure, Except.pure, Except.ok.injEq, Prod.mk.injEq] at h
      simp only [← h.2, List.length_cons]
      omega
  · simp only [Except.ok.injEq, Prod.mk.injEq] at h
    simp [← h.2]

theorem scanWhole_length {cs digits rest : List Char} (h : scanWhole cs = .ok (digits, rest)) :
    rest.length < cs.length := by
  unfold scanWhole at h
  split at h
  · split at h
    · simp at h
    · simp only [Except.ok.injEq, Prod.mk.injEq] at h
      simp [← h.2]
  · exact someDigits_length h

/-- A number uses up at least one character. -/
theorem scan_length {negative : Bool} {cs rest : List Char} {numeral : Numeral}
    (h : scan negative cs = .ok (numeral, rest)) : rest.length < cs.length := by
  unfold scan at h
  cases hw : scanWhole cs with
  | error e => simp [hw, bind, Except.bind] at h
  | ok whole =>
    cases hf : scanFraction whole.2 with
    | error e => simp [hw, hf, bind, Except.bind] at h
    | ok fraction =>
      cases he : scanExponent fraction.2 with
      | error e => simp [hw, hf, he, bind, Except.bind] at h
      | ok exponent =>
        have := scanWhole_length hw
        have := scanFraction_length hf
        have := scanExponent_length he
        simp only [hw, hf, he, bind, Except.bind, pure, Except.pure, Except.ok.injEq,
          Prod.mk.injEq] at h
        simp only [← h.2]
        omega

/-! ### Value -/

/-- The digits gathered into a word of 64 bits as long as they fit, and how many are left. -/
def gather (gathered : Nat) : List Char → Nat × Nat
  | [] => (gathered, 0)
  | c :: cs =>
    let next := gathered * 10 + (c.toNat - '0'.toNat)
    if next < UInt64.size then gather next cs else (gathered, cs.length + 1)

/-- The number that digits denote. -/
def ofDigits (cs : List Char) : Nat :=
  cs.foldl (fun n c => n * 10 + (c.toNat - '0'.toNat)) 0

/-- A floating point number with a sign, unless it is beyond the greatest one. -/
def real (negative : Bool) (significand : Nat) (exponent : Int) :
    Except Malformed JsonNumber :=
  match Binary64.ofDecimal significand exponent with
  | some x => .ok (.real (x.withSign negative))
  | none => .error .numberOutOfRange

/-- The greatest absolute value of a negative integer of 64 bits. -/
def maxNegative : Nat := 0x8000000000000000

/-- The number that a numeral denotes.  A numeral without fraction and exponent is an integer
if it fits into 64 bits; a negative zero does not. -/
def value (numeral : Numeral) : Except Malformed JsonNumber :=
  let (significand, dropped) := gather 0 numeral.whole
  let (significand, scale) : Nat × Int :=
    match numeral.fraction with
    | none => (significand, dropped)
    | some fraction =>
      let (significand, left) := gather significand fraction
      (significand, dropped - (fraction.length - left : Nat))
  match numeral.fraction, numeral.exponent with
  | none, none =>
    if dropped ≠ 0 then real numeral.negative significand scale
    else if !numeral.negative then .ok (.integer significand)
    else if significand = 0 ∨ maxNegative < significand then real true significand 0
    else .ok (.integer (-significand))
  | _, none => real numeral.negative significand scale
  | _, some (negative, digits) =>
    let exponent : Int := ofDigits digits
    real numeral.negative significand (if negative then scale - exponent else scale + exponent)

end Numeral

end PlugTaxonomy
