/-!
# Packed plug type codes

A plug type is identified by a word of 16 bits.  The direction of the endpoint takes the top
two bits, the command flag the bit below them and the type itself the remaining 13:

* `Code` — such a word, with the flags as constants;
* `Direction` — consumer or producer; both direction bits, or none, are no direction;
* `typeCode`, `masked` — parts of a code;
* `withDirection`, `withCommand` — a code with flags put in;
* `categoryMask` — the bits from an offset up to the top of a type field.
-/

namespace PlugTaxonomy

/-- The direction of an endpoint. -/
inductive Direction where
  | input
  | output
  deriving DecidableEq, Repr

/-- A packed plug type code of 16 bits. -/
structure Code where
  bits : BitVec 16
  deriving DecidableEq, Repr

namespace Code

/-- The number of bits that hold the type. -/
def maxTypeBits : Nat := 13

/-- The code of no type at all. -/
def unknown : Code := ⟨0⟩

/-- The flag of producing endpoints. -/
def output : Code := ⟨0x4000⟩

/-- The flag of consuming endpoints. -/
def input : Code := ⟨0x8000⟩

/-- Both direction flags. -/
def directionMask : Code := ⟨0xc000⟩

/-- The flag of explicit commands. -/
def command : Code := ⟨0x2000⟩

/-- All bits that hold the type. -/
def typeMask : Code := ⟨0x1fff⟩

/-- The code with the lowest 16 bits of a number. -/
def ofNat (n : Nat) : Code :=
  ⟨BitVec.ofNat 16 n⟩

def toNat (c : Code) : Nat :=
  c.bits.toNat

@[simp] theorem ofNat_toNat (c : Code) : ofNat c.toNat = c := by
  rw [ofNat, toNat, BitVec.ofNat_toNat, BitVec.setWidth_eq]

/-- The bits that are in both codes. -/
def masked (c mask : Code) : Code :=
  ⟨c.bits &&& mask.bits⟩

/-- The bits that are in one of two codes. -/
def union (c d : Code) : Code :=
  ⟨c.bits ||| d.bits⟩

/-- The bits of a code that are not in another. -/
def without (c d : Code) : Code :=
  ⟨c.bits &&& ~~~d.bits⟩

/-- The type alone, without direction and command flag. -/
def typeCode (c : Code) : Code :=
  c.masked typeMask

/-- The direction of the endpoint, if exactly one of the direction flags is set. -/
def direction? (c : Code) : Option Direction :=
  let flags := c.masked directionMask
  if flags = input then some .input
  else if flags = output then some .output
  else none

def isInput (c : Code) : Bool :=
  c.direction? == some .input

def isOutput (c : Code) : Bool :=
  c.direction? == some .output

/-- Whether the command flag is set. -/
def isCommand (c : Code) : Bool :=
  c.masked command != unknown

/-- The flag of a direction. -/
def ofDirection : Direction → Code
  | .input => input
  | .output => output

/-- The code with a direction in place of the one it had. -/
def withDirection (c : Code) (direction : Direction) : Code :=
  (c.without directionMask).union (ofDirection direction)

/-- The code with the command flag set. -/
def withCommand (c : Code) : Code :=
  c.union command

/-- The bits from an offset up to the top of a field of type bits. -/
def categoryMask (offset typeBits : Nat) : Code :=
  ofNat ((1 <<< (typeBits - offset) - 1) <<< offset)

end Code

end PlugTaxonomy
