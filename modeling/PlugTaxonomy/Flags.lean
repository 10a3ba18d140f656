import PlugTaxonomy.Text.Blank
import PlugTaxonomy.Text.Field
import PlugTaxonomy.Text.Numeral

/-!
# Behavioural flags of a type

A type of the taxonomy carries a set of flags, written in schemas as names with bars between
them, such as `CMD | TOGGLE`.

* `Flags` — eight flag bits, three of which have a name;
* `Flags.read` — the set that a text denotes; bits without a name come as hexadecimal numbers;
* `Flags.text` — the names in order, then the bits that have no name.
-/

namespace PlugTaxonomy

/-- A set of flags, one per bit. -/
structure Flags where
  bits : BitVec 8
  deriving DecidableEq, Repr

/-- Why a text is not a set of flags. -/
inductive FlagsError where
  | empty
  | invalidHex
  | unknownName
  deriving DecidableEq, Repr

def FlagsError.message : FlagsError → String
  | .empty => "encountered empty flag"
  | .invalidHex => "invalid hex flag"
  | .unknownName => "unrecognized named flag"

namespace Flags

/-- No flag at all. -/
def none : Flags := ⟨0⟩

/-- Values may arrive as explicit commands. -/
def command : Flags := ⟨1⟩

/-- A toggle variant of the usage exists beside the plain one. -/
def toggle : Flags := ⟨2⟩

/-- All types below are interchangeable when endpoints are wired. -/
def compatible : Flags := ⟨4⟩

/-- The flags that have a name, in the order in which they are written. -/
def named : List (String × Flags) :=
  [("CMD", command), ("TOGGLE", toggle), ("COMPATIBLE", compatible)]

/-- The flags of both sets. -/
def union (s t : Flags) : Flags :=
  ⟨s.bits ||| t.bits⟩

/-- The flags of one set that are not in the other. -/
def without (s t : Flags) : Flags :=
  ⟨s.bits &&& ~~~t.bits⟩

/-- Whether a set has all flags of another. -/
def contains (s t : Flags) : Bool :=
  s.bits &&& t.bits == t.bits

/-- The flags of one entry: a name, or a hexadecimal number behind `0x`. -/
def readEntry : List Char → Except FlagsError Flags
  | [] => .error .empty
  | '0' :: 'x' :: digits =>
    match Text.readUnsigned? 16 256 digits with
    | some bits => .ok ⟨BitVec.ofNat 8 bits⟩
    | .none => .error .invalidHex
  | entry =>
    match named.find? (fun (name, _) => name.toList == entry) with
    | some (_, flag) => .ok flag
    | .none => .error .unknownName

/-- The flags of entries, added to those already read. -/
def readEntries (read : Flags) : List (List Char) → Except FlagsError Flags
  | [] => .ok read
  | entry :: entries => do
    let flags ← readEntry (Text.trim entry)
    readEntries (read.union flags) entries

/-- The set of flags that a text denotes.  A blank text is the empty set. -/
def read (text : String) : Except FlagsError Flags :=
  let entries := text.toList
  if (Text.trim entries).isEmpty then .ok none else readEntries none (Text.fields '|' entries)

/-- The entries of the written form: names in order, then the bits without a name. -/
def entries (s : Flags) : List String :=
  let names := (named.filter fun (_, flag) => s.contains flag).map (·.1)
  let rest := s.without (command.union (toggle.union compatible))
  if rest = none then names
  else names ++ [String.ofList ('0' :: 'x' :: Text.hex rest.bits.toNat)]

/-- The written form of a set of flags. -/
def text (s : Flags) : String :=
  String.intercalate " | " s.entries

end Flags

end PlugTaxonomy
