import PlugTaxonomy.Flags
import PlugTaxonomy.Tree

/-!
# Schemas

A schema declares the taxonomy of plug types: a tree of named types, and for each level of
siblings the number of bits that select one of them.

* `TypeInfo` — what is declared for one type;
* `TypeNode` — a type with the types below it;
* `Schema` — the width of the type field, and the types of the root level.
-/

namespace PlugTaxonomy

/-- What a schema declares for one type.  A type without a usage takes the one of the nearest
type above it. -/
structure TypeInfo where
  name : String
  flags : Flags
  label : String
  usage : Option String
  description : String
  deriving DecidableEq, Repr

/-- A type of the taxonomy with the types below it.  The heading of a level is the number of
bits of its selector. -/
abbrev TypeNode := Tree TypeInfo UInt32

/-- A declared taxonomy. -/
structure Schema where
  typeBits : UInt32
  bitCount : UInt32
  types : List TypeNode
  deriving DecidableEq, Repr

/-- The number of types that a schema declares. -/
def Schema.nodeCount (schema : Schema) : Nat :=
  Tree.sizes schema.types

end PlugTaxonomy
