/-!
# Trees with levels

A taxonomy is a list of trees.  A node that has children owns the level they stand on, and a
level has a heading of its own: the width of its selector in a schema, its place in the code
word after allocation.

* `Tree α β` — nodes carry an `α`, levels a `β`; a level may be declared empty;
* `preorder` — all subtrees, each node before its children and its next sibling;
* `size` — the number of nodes.
-/

namespace PlugTaxonomy

/-- A tree whose nodes carry values and whose levels carry headings. -/
inductive Tree (α β : Type) where
  | leaf (value : α)
  | branch (value : α) (heading : β) (children : List (Tree α β))
  deriving Repr

namespace Tree

variable {α β : Type}

/-- The value of the topmost node. -/
def value : Tree α β → α
  | leaf value => value
  | branch value _ _ => value

/-- Whether the topmost node owns no level. -/
def isLeaf : Tree α β → Bool
  | leaf _ => true
  | branch _ _ _ => false

/-- The trees right below the topmost node. -/
def children : Tree α β → List (Tree α β)
  | leaf _ => []
  | branch _ _ children => children

/-! ### Number of nodes -/

mutual

/-- The number of nodes of a tree. -/
def size : Tree α β → Nat
  | leaf _ => 1
  | branch _ _ children => 1 + sizes children

/-- The number of nodes of a list of trees. -/
def sizes : List (Tree α β) → Nat
  | [] => 0
  | tree :: trees => tree.size + sizes trees

end

/-! ### Order of nodes -/

mutual

/-- All subtrees of a tree, each node before its children. -/
def preorder : Tree α β → List (Tree α β)
  | leaf value => [leaf value]
  | branch value heading children => branch value heading children :: preorders children

/-- All subtrees of a list of trees, each tree with all below it before the next one. -/
def preorders : List (Tree α β) → List (Tree α β)
  | [] => []
  | tree :: trees => tree.preorder ++ preorders trees

end

mutual

theorem length_preorder (tree : Tree α β) : tree.preorder.length = tree.size := by
  cases tree with
  | leaf value => rfl
  | branch value heading children =>
    simp only [preorder, size, List.length_cons, length_preorders children]
    omega

theorem length_preorders (trees : List (Tree α β)) :
    (preorders trees).length = sizes trees := by
  cases trees with
  | nil => rfl
  | cons tree trees =>
    simp only [preorders, sizes, List.length_append, length_preorder tree,
      length_preorders trees]

end

/-! ### Equality -/

mutual

/-- Equality of two trees is decided node by node. -/
def decideEq [DecidableEq α] [DecidableEq β] : (s t : Tree α β) → Decidable (s = t)
  | leaf v, leaf w =>
    if h : v = w then isTrue (congrArg leaf h) else isFalse fun e => h (leaf.inj e)
  | leaf _, branch _ _ _ => isFalse nofun
  | branch _ _ _, leaf _ => isFalse nofun
  | branch v a cs, branch w b ds =>
    if h : v = w ∧ a = b then
      match decideEqs cs ds with
      | isTrue hs => isTrue (by rw [h.1, h.2, hs])
      | isFalse hs => isFalse fun e => hs (branch.inj e).2.2
    else isFalse fun e => h ⟨(branch.inj e).1, (branch.inj e).2.1⟩

/-- Equality of two lists of trees is decided tree by tree. -/
def decideEqs [DecidableEq α] [DecidableEq β] : (s t : List (Tree α β)) → Decidable (s = t)
  | [], [] => isTrue rfl
  | [], _ :: _ => isFalse nofun
  | _ :: _, [] => isFalse nofun
  | s :: ss, t :: ts =>
    match decideEq s t, decideEqs ss ts with
    | isTrue h, isTrue hs => isTrue (by rw [h, hs])
    | isFalse h, _ => isFalse fun e => h (List.cons.inj e).1
    | _, isFalse hs => isFalse fun e => hs (List.cons.inj e).2

end

instance [DecidableEq α] [DecidableEq β] : DecidableEq (Tree α β) :=
  decideEq

end Tree

end PlugTaxonomy
