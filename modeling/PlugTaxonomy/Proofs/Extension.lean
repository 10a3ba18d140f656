import PlugTaxonomy.Proofs.Label
import PlugTaxonomy.Proofs.Usage
import PlugTaxonomy.Proofs.Wiring.Endpoint

/-!
# Answers outlast extensions of a schema

A schema may get further types, other selectors, another order of siblings and another width of the
type field.  All codes and masks change with that, but what is answered about a type depends on its
path and on what is declared along it.

* `Schema.ExtendedBy` — all types of a schema are found again on the same paths of another one;
* `Counterparts` — types of two tables that have the same path;
* `Counterparts.forall₂_chain` — on their paths stand counterparts;
* `answers_of_extension` — label, usage and verdict are the same for counterparts.
-/

namespace PlugTaxonomy

/-! ### Extensions -/

/-- Two types have the same label, flags and usage. -/
def TypeInfo.Agrees (info info' : TypeInfo) : Prop :=
  info'.label = info.label ∧ info'.flags = info.flags ∧ info'.usage = info.usage

instance (info info' : TypeInfo) : Decidable (info.Agrees info') :=
  inferInstanceAs (Decidable (_ ∧ _ ∧ _))

/-- All types of a schema are declared in another one too, on the same path and with the same label,
flags and usage. -/
def Schema.ExtendedBy (schema schema' : Schema) : Prop :=
  ∀ type ∈ schema.declaredTypes, ∃ type' ∈ schema'.declaredTypes,
    type'.path = type.path ∧ type.info.Agrees type'.info

instance (schema schema' : Schema) : Decidable (schema.ExtendedBy schema') :=
  inferInstanceAs (Decidable (∀ type ∈ schema.declaredTypes, ∃ type' ∈ schema'.declaredTypes,
    type'.path = type.path ∧ type.info.Agrees type'.info))

/-- Only flags and usages of the types on a path count for what is left behind it. -/
theorem Inherited.along_of_agrees (inherited : Inherited) {path path' : List TypeInfo}
    (h : List.Forall₂ TypeInfo.Agrees path path') :
    inherited.along path' = inherited.along path := by
  induction h generalizing inherited with
  | nil => rfl
  | @cons info info' path path' hinfo hpath ih =>
    obtain ⟨-, hflags, husage⟩ := hinfo
    have henter : inherited.enter info' = inherited.enter info := by
      rw [enter, enter, hflags, husage]
    show (inherited.enter info').along path' = (inherited.enter info).along path
    rw [henter, ih]

/-! ### Counterparts -/

/-- Types of two tables that have the same path. -/
structure Counterparts (table table' : CodeTable) (node node' : TableNode) : Prop where
  mem : node ∈ table.preorder
  mem' : node' ∈ table'.preorder
  path_eq : node'.value.path = node.value.path

/-- In an extension all types have counterparts. -/
theorem exists_counterpart {schema schema' : Schema} {table table' : CodeTable}
    (h : allocate schema = .ok table) (h' : allocate schema' = .ok table')
    (hextended : schema.ExtendedBy schema') {node : TableNode} (hnode : node ∈ table.preorder) :
    ∃ node', Counterparts table table' node node' ∧ node.value.info.Agrees node'.value.info := by
  have hdeclared : node.value.declaredType ∈ schema.declaredTypes := by
    rw [← map_declared_preorder h]
    exact List.mem_map_of_mem hnode
  obtain ⟨type', htype', hpath, hagrees⟩ := hextended _ hdeclared
  rw [← map_declared_preorder h'] at htype'
  obtain ⟨node', hnode', rfl⟩ := List.mem_map.mp htype'
  exact ⟨node', ⟨hnode, hnode', hpath⟩, hagrees⟩

namespace Counterparts

variable {table table' : CodeTable} {node node' : TableNode}

/-- A type has one counterpart. -/
theorem unique {typeBits : Nat}
    (h' : LevelPlaced typeBits .unknown [] table'.typeBits table'.root table'.nodes)
    (hpair : Counterparts table table' node node') {other : TableNode}
    (hother : Counterparts table table' node other) : other = node' :=
  h'.eq_of_names_eq hother.mem' hpair.mem'
    (names_eq_of_path_eq h' h' hpair.mem' hother.mem' (hother.path_eq.trans hpair.path_eq.symm))

section Placed

variable {typeBits typeBits' : Nat}
  (h : LevelPlaced typeBits .unknown [] table.typeBits table.root table.nodes)
  (h' : LevelPlaced typeBits' .unknown [] table'.typeBits table'.root table'.nodes)
  (hpair : Counterparts table table' node node')
include h h' hpair

theorem names_eq : node'.value.names = node.value.names :=
  names_eq_of_path_eq h h' hpair.mem hpair.mem' hpair.path_eq

/-- The paths of counterparts lead through counterparts. -/
theorem forall₂_chain :
    List.Forall₂ (Counterparts table table') (table.chain node.value.code)
      (table'.chain node'.value.code) := by
  have hnames : (table.chain node.value.code).map (·.value.names) =
      (table'.chain node'.value.code).map (·.value.names) := by
    rw [map_names_table_chain h hpair.mem, map_names_table_chain h' hpair.mem',
      hpair.names_eq h h']
  rw [← List.forall₂_eq_eq_eq, List.forall₂_map_left_iff, List.forall₂_map_right_iff,
    List.forall₂_iff_zip] at hnames
  refine List.forall₂_iff_zip.mpr ⟨hnames.1, fun {above above'} hzip => ?_⟩
  obtain ⟨hmem, hmem'⟩ := List.of_mem_zip hzip
  exact ⟨(List.mem_filter.mp hmem).1, (List.mem_filter.mp hmem').1,
    congrArg (String.intercalate ".") (hnames.2 hzip).symm⟩

end Placed

section Extended

variable {schema schema' : Schema} (h : allocate schema = .ok table)
  (h' : allocate schema' = .ok table') (hextended : schema.ExtendedBy schema')
  (hpair : Counterparts table table' node node')
include h h' hextended hpair

/-- In an extension counterparts have the same label, flags and usage. -/
theorem agrees : node.value.info.Agrees node'.value.info := by
  obtain ⟨other, hother, hagrees⟩ := exists_counterpart h h' hextended hpair.mem
  obtain rfl := hpair.unique (levelPlaced_of_allocate h') hother
  exact hagrees

/-- Above counterparts the same paths are compatible. -/
theorem isCompatiblePath_eq {above : TypePath} (habove : above <+: node.value.names) :
    table'.isCompatiblePath above = table.isCompatiblePath above := by
  have hplaced := levelPlaced_of_allocate h
  have hplaced' := levelPlaced_of_allocate h'
  by_cases hnil : above = []
  · rw [hnil, isCompatiblePath_nil hplaced, isCompatiblePath_nil hplaced']
  · obtain ⟨top, htop, rfl, -⟩ := exists_of_isPrefix hplaced hpair.mem hnil habove
    obtain ⟨top', hpair', -, hflags, -⟩ := exists_counterpart h h' hextended htop
    rw [isCompatiblePath_names hplaced htop, ← hpair'.names_eq hplaced hplaced',
      isCompatiblePath_names hplaced' hpair'.mem', hflags]

theorem forall₂_declared :
    List.Forall₂ TypeInfo.Agrees (table.declared node.value.code)
      (table'.declared node'.value.code) := by
  rw [CodeTable.declared, CodeTable.declared, List.forall₂_map_left_iff,
    List.forall₂_map_right_iff]
  exact (hpair.forall₂_chain (levelPlaced_of_allocate h) (levelPlaced_of_allocate h')).imp
    fun _ _ habove => habove.agrees h h' hextended

end Extended

end Counterparts

/-! ### Answers -/

section Flagged

variable {schema : Schema} {table : CodeTable} (h : allocate schema = .ok table)
  {node : TableNode} (hnode : node ∈ table.preorder) {flags : Code}
  (hflags : flags.typeCode = .unknown)
include h hnode hflags

/-- A type's code is labelled as the type, with any flags. -/
theorem label?_type :
    (Artifacts.ofTable table).label? (node.value.code.union flags) =
      some node.value.info.label :=
  label?_of_typeCode h hnode
    (Code.typeCode_union_of_flags ((levelPlaced_of_allocate h).typeCode_code hnode) hflags)

/-- The usage of a type's code is left behind the types on its path, with any flags. -/
theorem usageOf_type (isCommand : Bool) :
    (Artifacts.ofTable table).usageOf (node.value.code.union flags) isCommand =
      (Inherited.root.along (table.declared node.value.code)).tag.resolve isCommand := by
  have hcode := (levelPlaced_of_allocate h).typeCode_code hnode
  have hchain : table.chain (node.value.code.union flags) = table.chain node.value.code :=
    TableNode.chain_congr table.nodes
      ((Code.typeCode_union_of_flags hcode hflags).trans hcode.symm)
  rw [usageOf_eq_along h, CodeTable.declared, CodeTable.declared, hchain]

end Flagged

/-- **Answers outlast extensions.**  If all types of an accepted schema are declared in another
accepted schema, with further types, other siblings, selectors and codes, each of them has a
counterpart, and whatever flags are put into the codes, its label, its usages and the verdicts with
the rules that they rest on are those of its counterpart. -/
theorem answers_of_extension {schema schema' : Schema} {table table' : CodeTable}
    (h : allocate schema = .ok table) (h' : allocate schema' = .ok table')
    (hextended : schema.ExtendedBy schema') :
    (∀ n ∈ table.preorder, ∃ n', Counterparts table table' n n') ∧
      (∀ n n' flags, Counterparts table table' n n' → flags.typeCode = .unknown →
        (Artifacts.ofTable table').label? (n'.value.code.union flags) =
            (Artifacts.ofTable table).label? (n.value.code.union flags) ∧
          ∀ isCommand, (Artifacts.ofTable table').usageOf (n'.value.code.union flags) isCommand =
            (Artifacts.ofTable table).usageOf (n.value.code.union flags) isCommand) ∧
      ∀ d d' dstFlags s s' srcFlags, Counterparts table table' d d' →
        Counterparts table table' s s' →
        dstFlags.typeCode = .unknown → srcFlags.typeCode = .unknown →
        (Artifacts.ofTable table').check (d'.value.code.union dstFlags)
            (s'.value.code.union srcFlags) =
          (Artifacts.ofTable table).check (d.value.code.union dstFlags)
            (s.value.code.union srcFlags) := by
  have hplaced := levelPlaced_of_allocate h
  have hplaced' := levelPlaced_of_allocate h'
  refine ⟨?_, ?_, ?_⟩
  · intro n hn
    obtain ⟨n', hpair, -⟩ := exists_counterpart h h' hextended hn
    exact ⟨n', hpair⟩
  · intro n n' flags hpair hflags
    constructor
    · rw [label?_type h hpair.mem hflags, label?_type h' hpair.mem' hflags,
        (hpair.agrees h h' hextended).1]
    · intro isCommand
      rw [usageOf_type h hpair.mem hflags, usageOf_type h' hpair.mem' hflags,
        Inherited.along_of_agrees .root (hpair.forall₂_declared h h' hextended)]
  · intro d d' dstFlags s s' srcFlags hdst hsrc hdstFlags hsrcFlags
    show table'.compatibility.check _ _ = table.compatibility.check _ _
    rw [check_types_eq_verdict hplaced hdst.mem hsrc.mem hdstFlags hsrcFlags,
      check_types_eq_verdict hplaced' hdst.mem' hsrc.mem' hdstFlags hsrcFlags,
      hdst.names_eq hplaced hplaced', hsrc.names_eq hplaced hplaced']
    exact Endpoint.verdict_congr fun above habove =>
      hdst.isCompatiblePath_eq h h' hextended habove

/-- A taxonomy that extends the sample: the level has got types below it, the root level a category
in front of the others, and the siblings of the light, now in another order, one more. -/
def Schema.extendedSample : Schema :=
  { typeBits := 12
    bitCount := 3
    types :=
      [.leaf ⟨"TERNARY", .none, "Ternary", none, ""⟩,
        .branch ⟨"LEVEL", .none, "Level", none, ""⟩ 2
          [.leaf ⟨"GAIN", .command, "Gain", some "SLIDE", ""⟩],
        .branch ⟨"ENCODER", .none, "Encoder", none, ""⟩ 2
          [.leaf ⟨"ROTARY", .none, "Rotary", some "STEPS", "Endless"⟩],
        .branch ⟨"BINARY", .toggle, "Binary", some "OFF_ON", ""⟩ 2
          [.branch ⟨"POWER", .compatible, "Power", none, ""⟩ 3
            [.leaf ⟨"PUMP", .none, "Pump", none, ""⟩,
              .leaf ⟨"FAN", .command, "Fan", some "SPEED", ""⟩,
              .leaf ⟨"LIGHT", .command, "Light", none, ""⟩],
            .leaf ⟨"SWITCH", .none, "Switch", none, ""⟩]] }

theorem allocate_extendedSample :
    allocate Schema.extendedSample = .ok Schema.extendedSample.table := by
  decide +kernel

/-- In the extension the light is found under another code and the level as a type with types below
it. -/
theorem extension_sample : allocate Schema.sample = .ok Schema.sample.table ∧
    allocate Schema.extendedSample = .ok Schema.extendedSample.table ∧
    Schema.sample.ExtendedBy Schema.extendedSample ∧
    (Artifacts.ofTable Schema.extendedSample.table).label? ⟨0x28b0⟩ =
      (Artifacts.ofTable Schema.sample.table).label? ⟨0x20a4⟩ ∧
    (Artifacts.ofTable Schema.extendedSample.table).usageOf ⟨0x28b0⟩ true =
      (Artifacts.ofTable Schema.sample.table).usageOf ⟨0x20a4⟩ true ∧
    (Artifacts.ofTable Schema.extendedSample.table).check ⟨0x8400⟩ ⟨0x4680⟩ =
      (Artifacts.ofTable Schema.sample.table).check ⟨0x8180⟩ ⟨0x4140⟩ := by
  have hextended : Schema.sample.ExtendedBy Schema.extendedSample := by decide +kernel
  have hlight : Counterparts Schema.sample.table Schema.extendedSample.table
      (.leaf ⟨⟨"LIGHT", .command, "Light", none, ""⟩, ["BINARY", "POWER", "LIGHT"], 1, ⟨0xa4⟩,
        ⟨0x1fc⟩⟩)
      (.leaf ⟨⟨"LIGHT", .command, "Light", none, ""⟩, ["BINARY", "POWER", "LIGHT"], 3, ⟨0x8b0⟩,
        ⟨0xff0⟩⟩) :=
    ⟨by decide, by decide, rfl⟩
  have hlevel : Counterparts Schema.sample.table Schema.extendedSample.table
      (.leaf ⟨⟨"LEVEL", .none, "Level", none, ""⟩, ["LEVEL"], 3, ⟨0x180⟩, ⟨0x180⟩⟩)
      (.branch ⟨⟨"LEVEL", .none, "Level", none, ""⟩, ["LEVEL"], 2, ⟨0x400⟩, ⟨0xe00⟩⟩
        ⟨["LEVEL"], 7, 2, ⟨0xf80⟩⟩
        [.leaf ⟨⟨"GAIN", .command, "Gain", some "SLIDE", ""⟩, ["LEVEL", "GAIN"], 1, ⟨0x480⟩,
          ⟨0xf80⟩⟩]) :=
    ⟨by decide, by decide, rfl⟩
  have hrotary : Counterparts Schema.sample.table Schema.extendedSample.table
      (.leaf ⟨⟨"ROTARY", .none, "Rotary", some "STEPS", ""⟩, ["ENCODER", "ROTARY"], 1, ⟨0x140⟩,
        ⟨0x1c0⟩⟩)
      (.leaf ⟨⟨"ROTARY", .none, "Rotary", some "STEPS", "Endless"⟩, ["ENCODER", "ROTARY"], 1,
        ⟨0x680⟩, ⟨0xf80⟩⟩) :=
    ⟨by decide, by decide, rfl⟩
  obtain ⟨-, hanswers, hverdicts⟩ :=
    answers_of_extension allocate_sample allocate_extendedSample hextended
  obtain ⟨hlabel, husage⟩ := hanswers _ _ .command hlight (by decide)
  exact ⟨allocate_sample, allocate_extendedSample, hextended, hlabel, husage true,
    hverdicts _ _ .input _ _ .output hlevel hrotary (by decide) (by decide)⟩

end PlugTaxonomy
