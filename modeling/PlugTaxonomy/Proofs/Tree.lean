import PlugTaxonomy.Tree

/-!
# Paths in trees

* `preorder_eq`, `preorders_eq_flatMap` — pre-order through the children alone;
* `mem_preorder_iff`, `mem_preorders_iff` — a subtree stands on a level or below it;
* `level_induction` — induction over the levels of a list of trees;
* `mem_preorder_trans` — a subtree of a subtree is a subtree;
* `Descent` — a path from a level downwards: each tree stands right below the one before.
-/

namespace PlugTaxonomy.Tree

variable {α β : Type}

/-! ### Pre-order -/

theorem preorders_eq_flatMap (trees : List (Tree α β)) :
    preorders trees = trees.flatMap preorder := by
  induction trees with
  | nil => rfl
  | cons tree trees ih => rw [preorders, List.flatMap_cons, ih]

/-- A tree comes first, and all that is below it next. -/
theorem preorder_eq (tree : Tree α β) : tree.preorder = tree :: preorders tree.children := by
  cases tree with
  | leaf value => rfl
  | branch value heading children => rfl

theorem mem_preorder_iff {tree sub : Tree α β} :
    sub ∈ tree.preorder ↔ sub = tree ∨ sub ∈ preorders tree.children := by
  rw [preorder_eq, List.mem_cons]

theorem mem_preorders_iff {trees : List (Tree α β)} {sub : Tree α β} :
    sub ∈ preorders trees ↔ ∃ tree ∈ trees, sub = tree ∨ sub ∈ preorders tree.children := by
  rw [preorders_eq_flatMap, List.mem_flatMap]
  simp only [mem_preorder_iff]

theorem mem_preorders_of_mem {trees : List (Tree α β)} {tree : Tree α β} (h : tree ∈ trees) :
    tree ∈ preorders trees :=
  mem_preorders_iff.mpr ⟨tree, h, Or.inl rfl⟩

/-! ### Induction -/

/-- Induction along the levels: what holds of a level, if it holds of all levels right below it,
holds of every level. -/
@[elab_as_elim]
theorem level_induction {motive : List (Tree α β) → Prop}
    (step : ∀ trees, (∀ value heading children, branch value heading children ∈ trees →
      motive children) → motive trees) (trees : List (Tree α β)) : motive trees :=
  step trees fun value heading children _ => level_induction step children
termination_by sizeOf trees
decreasing_by
  rename_i hmem
  have hlt := List.sizeOf_lt_of_mem hmem
  rw [branch.sizeOf_spec] at hlt
  omega

/-- What stands below a tree that stands on a level or below it does so too. -/
theorem mem_preorders_of_mem_preorder {trees : List (Tree α β)} {tree sub : Tree α β}
    (htree : tree ∈ preorders trees) (hsub : sub ∈ tree.preorder) : sub ∈ preorders trees := by
  induction trees using level_induction with
  | step trees ih =>
    obtain ⟨top, htop, rfl | hbelow⟩ := mem_preorders_iff.mp htree
    · exact mem_preorders_iff.mpr ⟨tree, htop, mem_preorder_iff.mp hsub⟩
    · cases top with
      | leaf value => cases hbelow
      | branch value heading children =>
        exact mem_preorders_iff.mpr ⟨_, htop, Or.inr (ih value heading children htop hbelow)⟩

theorem mem_preorder_trans {top tree sub : Tree α β} (htree : tree ∈ top.preorder)
    (hsub : sub ∈ tree.preorder) : sub ∈ top.preorder := by
  rw [mem_preorder_iff] at htree ⊢
  rcases htree with rfl | hbelow
  · exact mem_preorder_iff.mp hsub
  · exact Or.inr (mem_preorders_of_mem_preorder hbelow hsub)

/-! ### Paths -/

/-- A path that starts on a level and goes down level by level.  It may end anywhere. -/
inductive Descent : List (Tree α β) → List (Tree α β) → Prop where
  | nil (level : List (Tree α β)) : Descent level []
  | cons {level path : List (Tree α β)} {tree : Tree α β} (here : tree ∈ level)
      (below : Descent tree.children path) : Descent level (tree :: path)

end PlugTaxonomy.Tree
