import PlugTaxonomy.Allocation.Basic
import PlugTaxonomy.Log.Entry

/-!
# The levels of a schema in order

Allocation visits the levels of a schema in pre-order: the level below a type before the next
sibling of that type.

* `LevelSite` — a level with its owner's names and the bits that remain for it;
* `Schema.sites` — all levels in the order of the visits;
* `Schema.allocationLog` — what allocation reports: each level that passes its checks, up to
  the first one that does not, and the size of the table in the end.
-/

namespace PlugTaxonomy

/-- A level of a schema as allocation meets it. -/
structure LevelSite where
  owner : List String
  remaining : Nat
  bitCount : Nat
  types : List TypeNode

/-- The violation on a level, if there is one. -/
def LevelSite.check (site : LevelSite) : Except AllocationError Unit :=
  checkLevel site.owner site.remaining site.bitCount site.types

mutual

/-- The levels below a type, given the names and the bits that remain above it. -/
def TypeNode.sites (owner : List String) (remaining : Nat) : TypeNode → List LevelSite
  | .leaf _ => []
  | .branch info bitCount children =>
    let names := owner ++ [info.name]
    ⟨names, remaining, bitCount.toNat, children⟩ ::
      TypeNode.sitesOf names (remaining - bitCount.toNat) children

/-- The levels below the types of a list. -/
def TypeNode.sitesOf (owner : List String) (remaining : Nat) : List TypeNode → List LevelSite
  | [] => []
  | type :: types => type.sites owner remaining ++ TypeNode.sitesOf owner remaining types

end

/-- All levels of a schema in the order in which they are visited. -/
def Schema.sites (schema : Schema) : List LevelSite :=
  let typeBits := schema.typeBits.toNat
  let bitCount := schema.bitCount.toNat
  ⟨[], typeBits, bitCount, schema.types⟩ ::
    TypeNode.sitesOf [] (typeBits - bitCount) schema.types

/-! ### Log -/

/-- What is reported of a level that has passed its checks. -/
def LevelSite.entry (site : LevelSite) : LogEntry :=
  ⟨.trace, .allocation, "Level " ++ ownerPath site.owner ++ ": " ++ toString site.types.length ++
    " types in bits " ++ toString (site.remaining - site.bitCount) ++ ".." ++
    toString site.remaining⟩

/-- What is reported of a finished table. -/
def CodeTable.entry (table : CodeTable) : LogEntry :=
  ⟨.debug, .allocation, "Allocated " ++ toString table.preorder.length ++ " types using " ++
    toString table.usedBits ++ " of " ++ toString table.typeBits ++ " type bits"⟩

/-- What the allocation of a schema reports. -/
def Schema.allocationLog (schema : Schema) : List LogEntry :=
  if Code.maxTypeBits < schema.typeBits.toNat then []
  else
    let passed := schema.sites.takeWhile (·.check.isOk)
    let levels := passed.map LevelSite.entry
    match allocate schema with
    | .error _ => levels
    | .ok table => levels ++ [table.entry]

end PlugTaxonomy
