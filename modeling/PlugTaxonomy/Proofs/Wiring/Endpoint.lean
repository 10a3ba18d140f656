import PlugTaxonomy.Proofs.Compatibility
import PlugTaxonomy.Proofs.Table.Paths

/-!
# Verdicts on paths

Between two types of a table the rules of wiring see nothing of codes and masks: the verdict is told
from the paths of the two types, from their flags, and from which types on the consumer's path are
compatible.

* `TypePath.standsIn`, `TypePath.admits` — what the rules ask of a path, and of two;
* `Endpoint.verdict` — the rules as said of two types by their paths and flags;
* `acceptor_covers_iff` — the producers that the descent accepts lie in the consumer's type or in a
  compatible type above it;
* `check_types_eq_verdict` — the verdict on two types of an allocated table is the one on their
  paths.
-/

namespace PlugTaxonomy

/-! ### Rules on paths -/

/-- The names from the root level down to a type. -/
abbrev TypePath := List String

namespace TypePath

/-- Whether a path starts at a root type with one of some names. -/
def standsIn (path : TypePath) (categories : List String) : Bool :=
  path.head?.any categories.contains

/-- Whether a producer's type stands in the consumer's own, or in one of the compatible types that
the consumer's path leads through. -/
def admits (compatible : TypePath → Bool) (dst src : TypePath) : Bool :=
  dst.inits.any fun above => (above = dst || compatible above) && above.isPrefixOf src

theorem admits_iff {compatible : TypePath → Bool} {dst src : TypePath} :
    admits compatible dst src = true ↔
      ∃ above, above <+: dst ∧ (above = dst ∨ compatible above = true) ∧ above <+: src := by
  simp only [admits, List.any_eq_true, List.mem_inits, Bool.and_eq_true, Bool.or_eq_true,
    decide_eq_true_eq, List.isPrefixOf_iff_prefix]

end TypePath

/-- A type at one end of a wire: its path, and the direction and the command flag that are put into
its code. -/
structure Endpoint where
  path : TypePath
  flags : Code

namespace Endpoint

/-- The verdict on a consumer and a producer, said of their paths. -/
def verdict (compatible : TypePath → Bool) (dst src : Endpoint) : Verdict :=
  let dstSwitch := dst.path.standsIn switchNames
  let srcSwitch := src.path.standsIn switchNames
  if !src.flags.isOutput || !dst.flags.isInput then ⟨false, .direction⟩
  else if dst.path.length = 1 ∧ dst.path <+: src.path then ⟨true, .exactMatch⟩
  else if srcSwitch && dstSwitch then ⟨true, .switchEquivalence⟩
  else if srcSwitch && dst.flags.isCommand then ⟨true, .switchDrivesCommand⟩
  else if !src.flags.isCommand && dstSwitch then ⟨true, .valueDrivesSwitch⟩
  else if src.path.standsIn [encoderName] && dst.flags.isCommand && !dstSwitch then
    ⟨true, .encoderDrivesCommand⟩
  else if src.flags.isCommand && !dst.flags.isCommand then ⟨false, .commandAsymmetry⟩
  else ⟨dst.path.admits compatible src.path, .structuralDescent⟩

/-- Only the beginnings of the consumer's path are asked for being compatible. -/
theorem verdict_congr {compatible compatible' : TypePath → Bool} {dst src : Endpoint}
    (h : ∀ above, above <+: dst.path → compatible above = compatible' above) :
    verdict compatible dst src = verdict compatible' dst src := by
  have hadmits : dst.path.admits compatible src.path = dst.path.admits compatible' src.path := by
    rw [Bool.eq_iff_iff, TypePath.admits_iff, TypePath.admits_iff]
    refine exists_congr fun above => and_congr_right fun habove => ?_
    rw [h above habove]
  rw [verdict, verdict, hadmits]

end Endpoint

/-! ### The paths of a table -/

/-- Whether a path is that of a compatible type. -/
def CodeTable.isCompatiblePath (table : CodeTable) (path : TypePath) : Bool :=
  table.preorder.any fun node =>
    node.value.names = path && node.value.info.flags.contains .compatible

/-- The trees on a downward path stand on the level that it starts on, or below it. -/
theorem Tree.Descent.mem_preorders {α β : Type} {level path : List (Tree α β)}
    (h : Tree.Descent level path) : ∀ tree ∈ path, tree ∈ Tree.preorders level := by
  induction h with
  | nil level => exact List.forall_mem_nil _
  | @cons level path top here below ih =>
    refine List.forall_mem_cons.mpr ⟨Tree.mem_preorders_of_mem here, fun tree htree => ?_⟩
    exact Tree.mem_preorders_iff.mpr ⟨top, here, Or.inr (ih tree htree)⟩

/-- Behind a tree on a downward path come trees below it. -/
theorem Tree.Descent.mem_preorders_of_append {α β : Type} {level before after : List (Tree α β)}
    {tree : Tree α β} (h : Tree.Descent level (before ++ tree :: after)) :
    ∀ sub ∈ after, sub ∈ Tree.preorders tree.children := by
  induction before generalizing level with
  | nil =>
    cases h with
    | cons here below => exact below.mem_preorders
  | cons first before ih =>
    cases h with
    | cons here below => exact ih below

section Table

variable {typeBits : Nat} {table : CodeTable}
  (h : LevelPlaced typeBits .unknown [] table.typeBits table.root table.nodes)
include h

/-- No type has the empty path. -/
theorem isCompatiblePath_nil : table.isCompatiblePath [] = false := by
  rw [CodeTable.isCompatiblePath, List.any_eq_false]
  intro node hnode hsame
  exact names_ne_nil h hnode (of_decide_eq_true (Bool.and_eq_true_iff.mp hsame).1)

variable {node : TableNode} (hnode : node ∈ table.preorder)
include hnode

/-- A path is that of one type, so it is compatible if that type is. -/
theorem isCompatiblePath_names :
    table.isCompatiblePath node.value.names = node.value.info.flags.contains .compatible := by
  rw [Bool.eq_iff_iff, CodeTable.isCompatiblePath, List.any_eq_true]
  constructor
  · rintro ⟨other, hother, hsame⟩
    obtain ⟨hnames, hflags⟩ := Bool.and_eq_true_iff.mp hsame
    rwa [← h.eq_of_names_eq hother hnode (of_decide_eq_true hnames)]
  · intro hflags
    exact ⟨node, hnode, Bool.and_eq_true_iff.mpr ⟨decide_eq_true rfl, hflags⟩⟩

/-- What lies in a type that stands in another or below it lies in the other. -/
theorem covers_of_mem_preorder {sub : TableNode} (hsub : sub ∈ node.preorder) {c : Code}
    (hcovers : sub.value.covers c = true) : node.value.covers c = true := by
  obtain ⟨_, _, _, _, _, hlevel, hmem⟩ := h.exists_level hnode
  rcases Tree.mem_preorder_iff.mp hsub with rfl | hsub
  · exact hcovers
  · exact hlevel.covers_of_mem_children hmem hsub hcovers

/-- Producers are accepted that lie in the consumer's type, or in a compatible type that the
consumer's type stands in or below. -/
theorem acceptor_covers_iff (c : Code) :
    (TableNode.acceptor (table.pathTo node) node).value.covers c = true ↔
      ∃ above ∈ table.preorder, node ∈ above.preorder ∧
        (above = node ∨ above.value.info.flags.contains .compatible = true) ∧
        above.value.covers c = true := by
  have hself : node ∈ node.preorder := Tree.mem_preorder_iff.mpr (Or.inl rfl)
  rw [TableNode.acceptor]
  cases hfind : (table.pathTo node).find? (·.value.info.flags.contains .compatible) with
  | none =>
    rw [Option.getD_none]
    constructor
    · exact fun hcovers => ⟨node, hnode, hself, Or.inl rfl, hcovers⟩
    · rintro ⟨above, habove, hbelow, rfl | hcompatible, hcovers⟩
      · exact hcovers
      · have hpath : above ∈ table.pathTo node :=
          List.mem_filter.mpr ⟨habove, decide_eq_true hbelow⟩
        exact absurd hcompatible (List.find?_eq_none.mp hfind above hpath)
  | some top =>
    obtain ⟨hcompatible, before, after, hsplit, hearlier⟩ := List.find?_eq_some_iff_append.mp hfind
    have htop : top ∈ table.pathTo node := List.mem_of_find?_eq_some hfind
    obtain ⟨hmem, hbelow⟩ := List.mem_filter.mp htop
    rw [Option.getD_some]
    constructor
    · exact fun hcovers => ⟨top, hmem, of_decide_eq_true hbelow, Or.inr hcompatible, hcovers⟩
    · -- nothing compatible stands above the topmost compatible type, so all else is below it
      rintro ⟨above, habove, hunder, rfl | hother, hcovers⟩
      · exact covers_of_mem_preorder h hmem (of_decide_eq_true hbelow) hcovers
      · have hpath : above ∈ table.pathTo node :=
          List.mem_filter.mpr ⟨habove, decide_eq_true hunder⟩
        refine covers_of_mem_preorder h hmem (Tree.mem_preorder_iff.mpr ?_) hcovers
        have hdescent := (descent_pathTo h hnode).1
        rw [hsplit] at hpath hdescent
        rcases List.mem_append.mp hpath with hpath | hpath
        · have hnot := hearlier above hpath
          rw [hother] at hnot
          cases hnot
        · rcases List.mem_cons.mp hpath with rfl | hpath
          · exact Or.inl rfl
          · exact Or.inr (hdescent.mem_preorders_of_append above hpath)

/-- In which root types a type stands is told by the first name on its path. -/
theorem liesIn_code (categories : List String) :
    table.liesIn categories node.value.code = TypePath.standsIn node.value.names categories := by
  rw [Bool.eq_iff_iff, liesIn_iff, TypePath.standsIn, Option.any_eq_true]
  simp only [List.contains_iff_mem]
  constructor
  · rintro ⟨root, hroot, hcategory, hcovers⟩
    have hmem : root ∈ table.preorder := Tree.mem_preorders_of_mem hroot
    have hbelow := (h.mem_preorder_iff_covers hmem hnode).mpr hcovers
    obtain ⟨rest, hrest⟩ := (mem_preorder_iff_isPrefix h hmem hnode).mp hbelow
    refine ⟨root.value.info.name, ?_, hcategory⟩
    rw [← hrest, h.fits.names_eq hroot]
    rfl
  · rintro ⟨name, hhead, hcategory⟩
    obtain ⟨rest, hrest⟩ := List.head?_eq_some_iff.mp hhead
    have hbegins : [name] <+: node.value.names := ⟨rest, hrest.symm⟩
    obtain ⟨root, hmem, hnames, hbelow⟩ :=
      exists_of_isPrefix h hnode (List.cons_ne_nil _ _) hbegins
    have hroot : root ∈ table.nodes := by
      rw [mem_nodes_iff_length h hmem, hnames]
      rfl
    rw [h.fits.names_eq hroot] at hnames
    obtain ⟨rfl, -⟩ := List.cons.inj hnames
    exact ⟨root, hroot, hcategory, (h.mem_preorder_iff_covers hmem hnode).mp hbelow⟩

variable {sub : TableNode} (hsub : sub ∈ table.preorder)
include hsub

theorem covers_code_iff_isPrefix :
    node.value.covers sub.value.code = true ↔ node.value.names <+: sub.value.names := by
  rw [← h.mem_preorder_iff_covers hnode hsub]
  exact mem_preorder_iff_isPrefix h hnode hsub

/-- Whether a producer is accepted is told by the paths. -/
theorem acceptor_covers_eq_admits :
    (TableNode.acceptor (table.pathTo node) node).value.covers sub.value.code =
      TypePath.admits table.isCompatiblePath node.value.names sub.value.names := by
  rw [Bool.eq_iff_iff, acceptor_covers_iff h hnode, TypePath.admits_iff]
  constructor
  · rintro ⟨above, habove, hbelow, hkind, hcovers⟩
    refine ⟨above.value.names, (mem_preorder_iff_isPrefix h habove hnode).mp hbelow, ?_,
      (covers_code_iff_isPrefix h habove hsub).mp hcovers⟩
    rw [isCompatiblePath_names h habove]
    exact hkind.imp_left fun heq => congrArg (·.value.names) heq
  · rintro ⟨names, hbegins, hkind, hsrc⟩
    have hne : names ≠ [] := by
      rintro rfl
      rcases hkind with heq | hcompatible
      · exact names_ne_nil h hnode heq.symm
      · rw [isCompatiblePath_nil h] at hcompatible
        cases hcompatible
    obtain ⟨above, habove, rfl, hbelow⟩ := exists_of_isPrefix h hnode hne hbegins
    rw [isCompatiblePath_names h habove] at hkind
    exact ⟨above, habove, hbelow, hkind.imp_left (h.eq_of_names_eq habove hnode),
      (covers_code_iff_isPrefix h habove hsub).mpr hsrc⟩

/-- **The verdict is told by the paths.**  Between two types of a table, whatever flags are put into
their codes, the rules give the verdict on their paths. -/
theorem check_types_eq_verdict {dstFlags srcFlags : Code}
    (hdst : dstFlags.typeCode = .unknown) (hsrc : srcFlags.typeCode = .unknown) :
    table.compatibility.check (node.value.code.union dstFlags) (sub.value.code.union srcFlags) =
      Endpoint.verdict table.isCompatiblePath ⟨node.value.names, dstFlags⟩
        ⟨sub.value.names, srcFlags⟩ := by
  have hcode := h.typeCode_code hnode
  have hsubcode := h.typeCode_code hsub
  have htype := Code.typeCode_union_of_flags hcode hdst
  have hsubtype := Code.typeCode_union_of_flags hsubcode hsrc
  have hinput : (node.value.code.union dstFlags).isInput = dstFlags.isInput :=
    congrArg (· == some Direction.input) (Code.direction?_union_of_typeCode dstFlags hcode)
  have houtput : (sub.value.code.union srcFlags).isOutput = srcFlags.isOutput :=
    congrArg (· == some Direction.output) (Code.direction?_union_of_typeCode srcFlags hsubcode)
  have hdstSwitch := isSwitch_eq_liesIn h.fits node.value.code
  have hsrcSwitch := isSwitch_eq_liesIn h.fits sub.value.code
  have hencoder := isEncoder_eq_liesIn h.fits sub.value.code
  rw [hcode, liesIn_code h hnode] at hdstSwitch
  rw [hsubcode, liesIn_code h hsub] at hsrcSwitch hencoder
  have hexact : sub.value.code.masked table.root.mask = node.value.code ↔
      node.value.names.length = 1 ∧ node.value.names <+: sub.value.names := by
    rw [← mem_nodes_iff_length h hnode, ← covers_code_iff_isPrefix h hnode hsub,
      ← masked_eq_code_iff h hnode, hsubcode]
  have hmask : table.compatibility.category.code = table.root.mask := rfl
  simp only [Compatibility.check, Endpoint.verdict, hmask, htype, hsubtype, hinput, houtput,
    Code.isCommand_union_of_typeCode _ hcode, Code.isCommand_union_of_typeCode _ hsubcode,
    hdstSwitch, hsrcSwitch, hencoder, hexact]
  refine if_congr Iff.rfl rfl ?_
  by_cases hown : node.value.names.length = 1 ∧ node.value.names <+: sub.value.names
  · rw [if_pos hown, if_pos hown]
  · have hcovers : ∀ slot : Slot, slot.covers (sub.value.code.union srcFlags) =
        slot.covers sub.value.code :=
      fun slot => slot.covers_congr (hsubtype.trans hsubcode.symm)
    have houtside : ¬(node ∈ table.nodes ∧
        node.value.covers (sub.value.code.union srcFlags) = true) := by
      rwa [mem_nodes_iff_length h hnode, hcovers, covers_code_iff_isPrefix h hnode hsub]
    rw [if_neg hown, if_neg hown, evaluate_compatibility_descent h hnode htype houtside, hcovers,
      acceptor_covers_eq_admits h hnode hsub]
    rfl

end Table

end PlugTaxonomy
