/-!
# Binary floating point numbers

A number in a schema file that is no integer is read as a binary floating point number of 64
bits: a mantissa of up to 53 bits times a power of two.

* `Binary64` — sign, mantissa and exponent; the value is `mantissa * 2 ^ exponent`;
* `Binary64.ofRatio` — the number nearest to a quotient, a tie going to the even mantissa;
* `mul`, `div` — exact product and quotient, rounded once;
* `Binary64.ofDecimal` — the number that a decimal `significand * 10 ^ exponent` is read as.
-/

namespace PlugTaxonomy

/-- A finite binary floating point number.  Non-zero mantissas have 53 bits unless the exponent
is the least one, `-1074`. -/
structure Binary64 where
  negative : Bool
  mantissa : Nat
  exponent : Int
  deriving DecidableEq, Repr

namespace Binary64

/-- The least exponent of a mantissa. -/
def minExponent : Int := -1074

/-- The greatest exponent of a mantissa. -/
def maxExponent : Int := 971

/-- The number of bits of a mantissa. -/
def precision : Nat := 53

def zero : Binary64 := ⟨false, 0, minExponent⟩

def isZero (x : Binary64) : Bool :=
  x.mantissa == 0

/-- The quotient of two numbers rounded to an integer; a half goes to the even neighbour. -/
def roundDiv (num den : Nat) : Nat :=
  let quotient := num / den
  let rest := num % den
  if 2 * rest < den ∨ (2 * rest = den ∧ quotient % 2 = 0) then quotient else quotient + 1

/-- Numerator and denominator of `num / den / 2 ^ exponent`. -/
def scaled (num den : Nat) (exponent : Int) : Nat × Nat :=
  (num <<< (-exponent).toNat, den <<< exponent.toNat)

/-- The integral part of the binary logarithm of a positive quotient. -/
def floorLog (num den : Nat) : Int :=
  let guess : Int := num.log2 - den.log2
  let (n, d) := scaled num den guess
  if d ≤ n then guess else guess - 1

/-- The non-negative number nearest to a quotient, or nothing beyond the greatest number. -/
def ofRatio (num den : Nat) : Option Binary64 :=
  if num = 0 then some zero
  else
    let exponent := max (floorLog num den - (precision - 1)) minExponent
    let (n, d) := scaled num den exponent
    let mantissa := roundDiv n d
    let (mantissa, exponent) :=
      if mantissa = 1 <<< precision then (1 <<< (precision - 1), exponent + 1)
      else (mantissa, exponent)
    if mantissa = 0 then some zero
    else if maxExponent < exponent then none
    else some ⟨false, mantissa, exponent⟩

/-- The absolute value as numerator and denominator. -/
def ratio (x : Binary64) : Nat × Nat :=
  (x.mantissa <<< x.exponent.toNat, 1 <<< (-x.exponent).toNat)

def withSign (negative : Bool) (x : Binary64) : Binary64 :=
  { x with negative }

/-- The product, or nothing beyond the greatest number. -/
def mul (x y : Binary64) : Option Binary64 :=
  let (n, d) := x.ratio
  let (n', d') := y.ratio
  (ofRatio (n * n') (d * d')).map (withSign (x.negative != y.negative))

/-- The quotient by a non-zero number, or nothing beyond the greatest number. -/
def div (x y : Binary64) : Option Binary64 :=
  let (n, d) := x.ratio
  let (n', d') := y.ratio
  (ofRatio (n * d') (d * n')).map (withSign (x.negative != y.negative))

/-- The greatest exponent of a power of ten that is a number. -/
def maxPowerOfTen : Nat := 308

/-- The number nearest to a power of ten. -/
def powerOfTen (k : Nat) : Option Binary64 :=
  ofRatio (Nat.pow 10 k) 1

/-- Division by one number several times over, until nothing is left to divide. -/
def divRepeatedly (divisor : Binary64) : Nat → Binary64 → Option Binary64
  | 0, x => some x
  | n + 1, x => if x.isZero then some x else (x.div divisor).bind (divRepeatedly divisor n)

/-- Division by a power of ten.  A power beyond the greatest one is divided off in steps. -/
def divPowerOfTen (x : Binary64) (k : Nat) : Option Binary64 := do
  let steps := (k - 1) / maxPowerOfTen
  let y ← divRepeatedly (← powerOfTen maxPowerOfTen) steps x
  y.div (← powerOfTen (k - steps * maxPowerOfTen))

/-- Multiplication by a power of ten, or nothing beyond the greatest number. -/
def mulPowerOfTen (x : Binary64) (k : Nat) : Option Binary64 :=
  if x.isZero then some x
  else if k ≤ maxPowerOfTen then do x.mul (← powerOfTen k)
  else none

/-- The number that `significand * 10 ^ exponent` is read as: the significand is rounded
first, then scaled by the power of ten. -/
def ofDecimal (significand : Nat) (exponent : Int) : Option Binary64 := do
  let x ← ofRatio significand 1
  match exponent with
  | .ofNat k => x.mulPowerOfTen k
  | .negSucc k => x.divPowerOfTen (k + 1)

end Binary64

end PlugTaxonomy
