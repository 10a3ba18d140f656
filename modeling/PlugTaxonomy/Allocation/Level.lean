import PlugTaxonomy.Table.Basic
import Std.Data.TreeSet

/-!
# Checks of one level

A level of siblings takes the topmost bits that are left of the type field.  It has to fit
there, it declares at least one type and no more than its selector can tell apart, and the
names on it are identifiers without repetition.

* `AllocationError` — the ways in which a schema cannot be allocated;
* `isIdentifier` — capital letters, digits and underscores, no digit in front;
* `firstRepeated?` — the first entry of a list that equals an earlier one;
* `checkLevel` — the checks of one level, in order;
* `Layout.place` — the place of a level below the bits that are taken already.

The value zero of a selector stays free, so that a code that ends in zeros names the level's
owner itself.
-/

namespace PlugTaxonomy

/-- Why a schema cannot be allocated. -/
inductive AllocationError where
  | insufficientBits (path : String) (needed remaining : Nat)
  | categoryOverflow (path : String) (count bitCount capacity : Nat)
  | emptyCategory (path : String)
  | duplicateName (path name : String)
  | invalidName (path name : String)
  | duplicateConstant (name path : String)
  | typeBitsTooWide (typeBits limit : Nat)
  deriving DecidableEq, Repr

def AllocationError.message : AllocationError → String
  | insufficientBits path needed remaining =>
    "not enough bits for " ++ path ++ ": level needs " ++ toString needed ++
      " bits but only " ++ toString remaining ++ " remain"
  | categoryOverflow path count bitCount capacity =>
    "overflow of " ++ path ++ ": " ++ toString count ++ " types declared but " ++
      toString bitCount ++ " bits address at most " ++ toString capacity
  | emptyCategory path => path ++ " declares an empty list of types"
  | duplicateName path name => path ++ " declares '" ++ name ++ "' more than once"
  | invalidName path name =>
    path ++ " declares '" ++ name ++
      "', which is not an identifier of the form [A-Z_][A-Z0-9_]*"
  | duplicateConstant name path =>
    path ++ " produces the constant " ++ name ++ ", which is already defined"
  | typeBitsTooWide typeBits limit =>
    toString typeBits ++ " type bits leave no room for the flag bits (at most " ++
      toString limit ++ " allowed)"

/-! ### Names -/

/-- Whether a character may start an identifier. -/
def startsIdentifier (c : Char) : Bool :=
  ('A' ≤ c && c ≤ 'Z') || c == '_'

/-- Whether a character may stand in an identifier behind the first one. -/
def continuesIdentifier (c : Char) : Bool :=
  startsIdentifier c || ('0' ≤ c && c ≤ '9')

/-- Whether a name has the form `[A-Z_][A-Z0-9_]*`. -/
def isIdentifier (name : String) : Bool :=
  match name.toList with
  | [] => false
  | c :: cs => startsIdentifier c && cs.all continuesIdentifier

/-- The first entry that is among the earlier ones. -/
def firstRepeated? (earlier : Std.TreeSet String) : List String → Option String
  | [] => none
  | name :: names =>
    if earlier.contains name then some name else firstRepeated? (earlier.insert name) names

/-- The names that a level declares: each type's own and its usage. -/
def declaredNames (types : List TypeNode) : List String :=
  types.flatMap fun type => type.value.name :: type.value.usage.toList

/-! ### Levels -/

/-- The number of types that a selector of some bits tells apart, its value zero left out. -/
def capacity (bitCount : Nat) : Nat :=
  1 <<< bitCount - 1

/-- The checks of one level, given its owner's names and the bits that remain for it. -/
def checkLevel (owner : List String) (remaining bitCount : Nat) (types : List TypeNode) :
    Except AllocationError Unit :=
  let path := ownerPath owner
  if remaining < bitCount then .error (.insufficientBits path bitCount remaining)
  else if types.isEmpty then .error (.emptyCategory path)
  else if capacity bitCount < types.length then
    .error (.categoryOverflow path types.length bitCount (capacity bitCount))
  else
    match (declaredNames types).find? (!isIdentifier ·) with
    | some name => .error (.invalidName path name)
    | none =>
      match firstRepeated? ∅ (types.map (·.value.name)) with
      | some name => .error (.duplicateName path name)
      | none => .ok ()

/-- The place of a level whose selector takes the topmost of the bits that remain. -/
def Layout.place (typeBits : Nat) (owner : List String) (remaining bitCount : Nat) : Layout :=
  let offset := remaining - bitCount
  { names := owner, offset, bitCount, mask := Code.categoryMask offset typeBits }

end PlugTaxonomy
