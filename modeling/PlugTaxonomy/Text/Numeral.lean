/-!
# Unsigned numerals

Numbers in codes, flag sets and schema files are unsigned numerals of a given base.

* `readUnsigned?` — an optional plus sign and at least one digit, below a limit;
* `decimal`, `hex` — the digits of a number without leading zeros;
* `hexPadded`, `octalPadded` — the same, filled up to a width with zeros.
-/

namespace PlugTaxonomy.Text

/-- The value of a digit in a base up to sixteen; letters count in either case. -/
def digitValue? (base : Nat) (c : Char) : Option Nat :=
  let value? :=
    if '0' ≤ c ∧ c ≤ '9' then some (c.toNat - '0'.toNat)
    else if 'a' ≤ c ∧ c ≤ 'f' then some (c.toNat - 'a'.toNat + 10)
    else if 'A' ≤ c ∧ c ≤ 'F' then some (c.toNat - 'A'.toNat + 10)
    else none
  value?.filter (· < base)

/-- The number that digits denote behind those already read, or nothing if one is no digit. -/
def readDigits? (base : Nat) (read : Nat) : List Char → Option Nat
  | [] => some read
  | c :: cs => do
    let digit ← digitValue? base c
    readDigits? base (read * base + digit) cs

/-- The number below the limit that an unsigned numeral denotes.  One plus sign may stand in
front, leading zeros do not matter, and there is at least one digit. -/
def readUnsigned? (base limit : Nat) (cs : List Char) : Option Nat :=
  let digits := match cs with
    | '+' :: rest => rest
    | _ => cs
  if digits.isEmpty then none else (readDigits? base 0 digits).filter (· < limit)

/-- The decimal digits of a number. -/
def decimal (n : Nat) : List Char :=
  Nat.toDigits 10 n

/-- The hexadecimal digits of a number, in lower case. -/
def hex (n : Nat) : List Char :=
  Nat.toDigits 16 n

/-- Digits filled up with zeros in front to at least a width. -/
def zeroPadded (width : Nat) (digits : List Char) : List Char :=
  List.replicate (width - digits.length) '0' ++ digits

/-- The hexadecimal digits of a number, at least as many as the width. -/
def hexPadded (width n : Nat) : List Char :=
  zeroPadded width (hex n)

/-- The octal digits of a number, at least as many as the width. -/
def octalPadded (width n : Nat) : List Char :=
  zeroPadded width (Nat.toDigits 8 n)

end PlugTaxonomy.Text
