import PlugTaxonomy.Code.Basic

/-!
# Named codes

Generated sources speak of codes by name.  A symbol is a code together with its name; six of
them, the flags, come before all types.
-/

namespace PlugTaxonomy

/-- A code with the name it is written as. -/
structure Symbol where
  name : String
  code : Code
  deriving DecidableEq, Repr

/-- The flag constants, in the order in which they are declared. -/
def Symbol.flags : List Symbol :=
  [⟨"IN", .input⟩, ⟨"OUT", .output⟩, ⟨"DIRECTION_MASK", .directionMask⟩, ⟨"CMD", .command⟩,
   ⟨"TYPE_MASK", .typeMask⟩, ⟨"UNKNOWN", .unknown⟩]

end PlugTaxonomy
