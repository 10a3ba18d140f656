import PlugTaxonomy.Number.Binary64
import PlugTaxonomy.Text.Numeral

/-!
# Shortest decimals

A floating point number in a message is written with the fewest digits that are read back as
the same number.

* `Decimal` — digits and a power of ten;
* `reads` — whether a decimal lies in the interval of reals that round to a number;
* `shortest?` — the first grid of decimals, from coarse to fine, with a point in that interval;
* `Binary64.text` — positional from `1e-5` up to `1e16`, with an exponent elsewhere.
-/

namespace PlugTaxonomy

/-- The non-negative decimal `digits * 10 ^ exponent`. -/
structure Decimal where
  digits : Nat
  exponent : Int
  deriving DecidableEq, Repr

namespace Decimal

/-- The decimal as numerator and denominator. -/
def ratio (x : Decimal) : Nat × Nat :=
  (x.digits * Nat.pow 10 x.exponent.toNat, Nat.pow 10 (-x.exponent).toNat)

/-- Whether the decimal is read as a given positive number.  The interval around the number
reaches half way to its neighbours; the ends belong to it if the mantissa is even. -/
def reads (x : Decimal) (y : Binary64) : Bool :=
  let (n, d) := x.ratio
  -- all bounds in quarters of the last place of the mantissa
  let unit := y.exponent - 2
  let left := n <<< (-unit).toNat
  let scale := d <<< unit.toNat
  let narrow := y.mantissa = 1 <<< (Binary64.precision - 1) ∧ Binary64.minExponent < y.exponent
  let low := (4 * y.mantissa - if narrow then 1 else 2) * scale
  let high := (4 * y.mantissa + 2) * scale
  if y.mantissa % 2 = 0 then low ≤ left && left ≤ high else low < left && left < high

/-- The distance from a number, as a numerator over a denominator that both neighbours on one
grid share. -/
def distance (x : Decimal) (y : Binary64) : Nat :=
  let (n, d) := x.ratio
  let (n', d') := y.ratio
  max (n * d') (n' * d) - min (n * d') (n' * d)

/-- The two neighbours of a number on the grid of multiples of a power of ten. -/
def neighbours (y : Binary64) (exponent : Int) : Decimal × Decimal :=
  let (n, d) := y.ratio
  let below := n * Nat.pow 10 (-exponent).toNat / (d * Nat.pow 10 exponent.toNat)
  (⟨below, exponent⟩, ⟨below + 1, exponent⟩)

/-- The point of a grid that is read as the number: of two such points the nearer one, and of
two equally near ones the even one. -/
def onGrid? (y : Binary64) (exponent : Int) : Option Decimal :=
  let (below, above) := neighbours y exponent
  match reads below y, reads above y with
  | false, false => none
  | true, false => some below
  | false, true => some above
  | true, true =>
    let low := distance below y
    let high := distance above y
    if low < high ∨ (low = high ∧ below.digits % 2 = 0) then some below else some above

/-- The integral part of the decimal logarithm of a positive number. -/
def floorLog (y : Binary64) : Int :=
  let (n, d) := y.ratio
  let guess : Int := ((Nat.toDigits 10 n).length : Int) - (Nat.toDigits 10 d).length
  if d * Nat.pow 10 guess.toNat ≤ n * Nat.pow 10 (-guess).toNat then guess else guess - 1

/-- The decimal with the fewest digits that is read as a positive number. -/
def shortest? (y : Binary64) : Option Decimal :=
  (List.range 17).findSome? fun (finer : Nat) => onGrid? y (floorLog y - finer)

/-- Digits without trailing zeros, and the exponent that the first of them stands for. -/
def scientific (x : Decimal) : List Char × Int :=
  let digits := Text.decimal x.digits
  let significant := (digits.reverse.dropWhile (· = '0')).reverse
  (significant, x.exponent + digits.length - 1)

end Decimal

namespace Binary64

/-- The exponents of the first digit for which a number is written without an exponent. -/
def positional (exponent : Int) : Bool :=
  -5 ≤ exponent && exponent < 16

/-- The text of digits whose first one stands for a power of ten.  An exponent has a sign and
no leading zeros. -/
def digitsText (digits : List Char) (exponent : Int) : List Char :=
  if positional exponent then
    if exponent < 0 then
      '0' :: '.' :: List.replicate (-exponent - 1).toNat '0' ++ digits
    else
      let whole := exponent.toNat + 1
      let fraction := digits.drop whole
      digits.take whole ++ List.replicate (whole - digits.length) '0' ++ '.' ::
        (if fraction.isEmpty then ['0'] else fraction)
  else
    let fraction := digits.drop 1
    digits.take 1 ++ (if fraction.isEmpty then [] else '.' :: fraction) ++ 'e' ::
      (if exponent < 0 then '-' else '+') :: Text.decimal exponent.natAbs

/-- The shortest decimal that is read as the number. -/
def text (x : Binary64) : String :=
  let magnitude :=
    if x.isZero then "0.0".toList
    else
      match Decimal.shortest? { x with negative := false } with
      | some decimal =>
        let (digits, exponent) := decimal.scientific
        digitsText digits exponent
      | none => []
  String.ofList (if x.negative then '-' :: magnitude else magnitude)

end Binary64

end PlugTaxonomy
