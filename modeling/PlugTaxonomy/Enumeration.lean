import PlugTaxonomy.Table.Basic

/-!
# The enumeration of constants

Generated programs name codes by the constants of one enumeration: the flags first, then for
each level its mask followed by the variants of its types, the level below a type right behind
the type itself.

* `Constant` — a named code with a comment and its depth in the tree;
* `CodeTable.enumeration` — all constants in order.
-/

namespace PlugTaxonomy

/-- A named code of the enumeration. -/
structure Constant where
  name : String
  code : Code
  comment : Option String
  /-- The number of types above, zero for flags and the root level. -/
  depth : Nat
  deriving DecidableEq, Repr

/-- The comment that explains a flag. -/
def flagComment? (name : String) : Option String :=
  match name with
  | "IN" => some "direction"
  | "CMD" => some "explicit command (set, step, toggle)"
  | "TYPE_MASK" => some "type"
  | _ => none

/-- The constants of the flags. -/
def flagConstants : List Constant :=
  Symbol.flags.map fun flag => ⟨flag.name, flag.code, flagComment? flag.name, 0⟩

/-- The constant of a level's mask. -/
def Layout.constant (layout : Layout) (depth : Nat) : Constant :=
  ⟨layout.maskName, layout.mask, none, depth⟩

/-- The constants of a type's variants.  The first one carries the description. -/
def Slot.constants (slot : Slot) (depth : Nat) : List Constant :=
  let description := slot.info.description
  let comment := if description.isEmpty then none else some description
  match slot.variants with
  | [] => []
  | first :: others =>
    ⟨first.name, first.code, comment, depth⟩ :: others.map fun v => ⟨v.name, v.code, none, depth⟩

mutual

/-- The constants of a type and all types below it. -/
def TableNode.constants (depth : Nat) : TableNode → List Constant
  | .leaf slot => slot.constants depth
  | .branch slot layout children =>
    slot.constants depth ++
      layout.constant (depth + 1) :: TableNode.constantsOf (depth + 1) children

/-- The constants of the types of a list. -/
def TableNode.constantsOf (depth : Nat) : List TableNode → List Constant
  | [] => []
  | node :: nodes => node.constants depth ++ TableNode.constantsOf depth nodes

end

/-- All constants of a table in order. -/
def CodeTable.enumeration (table : CodeTable) : List Constant :=
  flagConstants ++ table.root.constant 0 :: TableNode.constantsOf 0 table.nodes

end PlugTaxonomy
