import PlugTaxonomy.Allocation.Level

/-!
# Allocation of codes

The root level takes the topmost bits of the type field, and every level below it the bits
right under those of its owner.  A type's code is its owner's code with the selector value put
in.

* `allocateNode`, `allocateNodes` — codes for a type and for all siblings of a level, the
  levels checked in pre-order;
* `CodeTable.claims` — the constants of a table in the order of the enumeration, with the path
  of the type that produces each;
* `allocate` — the table of a schema, or the first violation.

Names are joined across levels, so different names on every level do not make the constants
different.  They are checked once all levels have passed.
-/

namespace PlugTaxonomy

/-- The slot of a type on a level, given its owner's code. -/
def Slot.place (layout : Layout) (owner : Code) (index : Nat) (info : TypeInfo) : Slot :=
  { info
    names := layout.names ++ [info.name]
    index
    code := owner.union (Code.ofNat (index <<< layout.offset))
    categoryMask := layout.mask }

mutual

/-- The codes of a type and all types below it. -/
def allocateNode (typeBits : Nat) (layout : Layout) (owner : Code) (index : Nat) :
    TypeNode → Except AllocationError TableNode
  | .leaf info => .ok (.leaf (Slot.place layout owner index info))
  | .branch info bitCount children => do
    let slot := Slot.place layout owner index info
    checkLevel slot.names layout.offset bitCount.toNat children
    let below := Layout.place typeBits slot.names layout.offset bitCount.toNat
    let nodes ← allocateNodes typeBits below slot.code 1 children
    return .branch slot below nodes

/-- The codes of siblings, their selector values counted from an index on. -/
def allocateNodes (typeBits : Nat) (layout : Layout) (owner : Code) (index : Nat) :
    List TypeNode → Except AllocationError (List TableNode)
  | [] => .ok []
  | type :: types => do
    let node ← allocateNode typeBits layout owner index type
    let nodes ← allocateNodes typeBits layout owner (index + 1) types
    return node :: nodes

end

/-! ### Constants -/

mutual

/-- The constants that a type and all types below it produce, with the paths of their
producers. -/
def TableNode.claims : TableNode → List (String × String)
  | .leaf slot => slot.variants.map fun variant => (variant.name, slot.path)
  | .branch slot layout children =>
    (slot.variants.map fun variant => (variant.name, slot.path)) ++
      (layout.maskName, slot.path) :: TableNode.claimsOf children

/-- The constants that a list of types produces. -/
def TableNode.claimsOf : List TableNode → List (String × String)
  | [] => []
  | node :: nodes => node.claims ++ TableNode.claimsOf nodes

end

/-- The constants of a table in the order of the enumeration, with the paths of their
producers. -/
def CodeTable.claims (table : CodeTable) : List (String × String) :=
  (table.root.maskName, ownerPath []) :: TableNode.claimsOf table.nodes

/-- Whether each constant is new among those that are taken already. -/
def checkClaims (taken : Std.TreeSet String) :
    List (String × String) → Except AllocationError Unit
  | [] => .ok ()
  | (name, path) :: claims =>
    if taken.contains name then .error (.duplicateConstant name path)
    else checkClaims (taken.insert name) claims

/-! ### Schemas -/

/-- The tree of a schema with its codes, or the first violation on a level. -/
def allocateLevels (schema : Schema) : Except AllocationError CodeTable := do
  let typeBits := schema.typeBits.toNat
  checkLevel [] typeBits schema.bitCount.toNat schema.types
  let root := Layout.place typeBits [] typeBits schema.bitCount.toNat
  let nodes ← allocateNodes typeBits root .unknown 1 schema.types
  return { typeBits, root, nodes }

/-- The code table of a schema, or the first violation. -/
def allocate (schema : Schema) : Except AllocationError CodeTable := do
  if Code.maxTypeBits < schema.typeBits.toNat then
    throw (.typeBitsTooWide schema.typeBits.toNat Code.maxTypeBits)
  let table ← allocateLevels schema
  checkClaims (.ofList (Symbol.flags.map (·.name))) table.claims
  return table

end PlugTaxonomy
