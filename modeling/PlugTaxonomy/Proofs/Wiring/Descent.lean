import PlugTaxonomy.Proofs.Compatibility
import PlugTaxonomy.Proofs.Wiring.Rules

/-!
# Consumers of any code

The descent is settled on the tree for consumers of a type.  Here it is described for every
consumer, also for one whose code is that of no type: each level either accepts the producer, or
hands it down to the type that the consumer lies in.

* `Admitted` — how a level comes to accept a producer, one case for each place where it may do so;
* `evaluate_descent_iff` — the decision of a level accepts just what is admitted;
* `Admitted.exists_covers` — both ends of an accepted wire lie in one type of the level;
* `Admitted.of_descendant` — what is accepted of a type is accepted of all types below it;
* `rule_of_crossing` — between root types only the rules about switches and encoders accept;
* `compatible_of_descendant` — a more special producer is accepted wherever a general one is.
-/

namespace PlugTaxonomy

/-! ### The descent -/

/-- How the decision along a consumer's path comes to accept a producer. -/
inductive Admitted (dst src : Code) : List TableNode → Prop
  /-- Both lie in a type that accepts all that lies in it. -/
  | within {nodes : List TableNode} {top : TableNode} (here : top ∈ nodes)
      (consumer : top.value.covers dst = true)
      (whole : top.value.info.flags.contains .compatible = true ∨ top.isLeaf = true)
      (producer : top.value.covers src = true) : Admitted dst src nodes
  /-- The consumer is itself what the level below leaves of the producer. -/
  | own {nodes : List TableNode} {slot : Slot} {layout : Layout} {children : List TableNode}
      (here : .branch slot layout children ∈ nodes) (consumer : slot.covers dst = true)
      (divided : ¬slot.info.flags.contains .compatible = true)
      (producer : src.typeCode.masked layout.mask = dst.typeCode) : Admitted dst src nodes
  /-- The producer is accepted on the level below. -/
  | deeper {nodes : List TableNode} {slot : Slot} {layout : Layout} {children : List TableNode}
      (here : .branch slot layout children ∈ nodes) (consumer : slot.covers dst = true)
      (divided : ¬slot.info.flags.contains .compatible = true)
      (below : Admitted dst src children) : Admitted dst src nodes

section Level

variable {typeBits : Nat} {owner : Code} {names : List String} {remaining : Nat}
  {layout : Layout} {nodes : List TableNode} {dst src : Code}

/-- On a level the decision is that of the type that the consumer lies in. -/
theorem evaluate_descent_of_covers (h : LevelFits typeBits owner names remaining layout nodes)
    {top : TableNode} (htop : top ∈ nodes) (hcovers : top.value.covers dst = true) :
    (Decision.switch .dst layout.symbol (descentArms layout nodes) (.give false)).evaluate
        (.pair dst src) =
      (descentDecision layout top).evaluate (.pair dst src) :=
  h.evaluate_switch_of_covers (fun _ harm => mem_descentArms.mp harm) rfl htop
    (mem_descentArms.mpr ⟨top, htop, rfl⟩) hcovers

/-- What the decision of a level accepts is admitted.  The induction is on the levels: a type that is
neither compatible nor a leaf hands over to the level below. -/
theorem admitted_of_evaluate (h : LevelPlaced typeBits owner names remaining layout nodes)
    (hevaluate : (Decision.switch .dst layout.symbol (descentArms layout nodes)
      (.give false)).evaluate (.pair dst src) = true) : Admitted dst src nodes := by
  induction h with
  | @intro owner names remaining layout nodes fits below ih =>
    by_cases hex : ∃ top ∈ nodes, top.value.covers dst = true
    · obtain ⟨top, htop, hcovers⟩ := hex
      rw [evaluate_descent_of_covers fits htop hcovers] at hevaluate
      by_cases hwhole : top.value.info.flags.contains .compatible = true ∨ top.isLeaf = true
      · rw [evaluate_descentDecision fits htop hwhole] at hevaluate
        exact .within htop hcovers hwhole hevaluate
      · obtain ⟨hdivided, hleaf⟩ := not_or.mp hwhole
        cases top with
        | leaf slot => exact absurd rfl hleaf
        | branch slot layout' children =>
          have hslot : ¬slot.info.flags.contains .compatible = true := hdivided
          rw [evaluate_descentDecision_branch hslot] at hevaluate
          split at hevaluate
          · rename_i hown
            exact .own htop hcovers hslot hown
          · exact .deeper htop hcovers hslot (ih slot layout' children htop hevaluate)
    · -- a consumer that lies in no type of the level comes to the default
      have hnone : ∀ node ∈ nodes, (node.value.symbol, descentDecision layout node) ∈
          descentArms layout nodes → node.value.covers dst = false :=
        fun node hnode _ => Bool.eq_false_iff.mpr fun hcovers => hex ⟨node, hnode, hcovers⟩
      rw [fits.evaluate_switch_of_none (fun _ harm => mem_descentArms.mp harm) rfl hnone]
        at hevaluate
      cases hevaluate

theorem evaluate_of_admitted (hadmitted : Admitted dst src nodes)
    (h : LevelPlaced typeBits owner names remaining layout nodes) :
    (Decision.switch .dst layout.symbol (descentArms layout nodes) (.give false)).evaluate
      (.pair dst src) = true := by
  induction hadmitted generalizing owner names remaining layout with
  | within here consumer whole producer =>
    rw [evaluate_descent_of_covers h.fits here consumer, evaluate_descentDecision h.fits here whole,
      producer]
  | own here consumer divided producer =>
    rw [evaluate_descent_of_covers h.fits here consumer, evaluate_descentDecision_branch divided,
      if_pos producer]
  | deeper here consumer divided below ih =>
    rw [evaluate_descent_of_covers h.fits here consumer, evaluate_descentDecision_branch divided,
      ih (h.level_below here), ite_self]

/-- The decision of a level accepts just what is admitted, of consumers of any code. -/
theorem evaluate_descent_iff (h : LevelPlaced typeBits owner names remaining layout nodes) :
    (Decision.switch .dst layout.symbol (descentArms layout nodes) (.give false)).evaluate
      (.pair dst src) = true ↔ Admitted dst src nodes :=
  ⟨admitted_of_evaluate h, fun hadmitted => evaluate_of_admitted hadmitted h⟩

namespace Admitted

/-- A consumer and a producer that is accepted lie in one type of the level. -/
theorem exists_covers (hadmitted : Admitted dst src nodes)
    (h : LevelPlaced typeBits owner names remaining layout nodes) :
    ∃ top ∈ nodes, top.value.covers dst = true ∧ top.value.covers src = true := by
  induction hadmitted generalizing owner names remaining layout with
  | within here consumer whole producer => exact ⟨_, here, consumer, producer⟩
  | own here consumer divided producer =>
    exact ⟨_, here, consumer, h.covers_of_masked_below here consumer producer⟩
  | deeper here consumer divided below ih =>
    obtain ⟨top, htop, -, hproducer⟩ := ih (h.level_below here)
    exact ⟨_, here, consumer,
      h.covers_of_mem_children here (Tree.mem_preorders_of_mem htop) hproducer⟩

/-- The mask of the level leaves the same of a consumer and of a producer that is accepted. -/
theorem masked_eq (hadmitted : Admitted dst src nodes)
    (h : LevelPlaced typeBits owner names remaining layout nodes) :
    src.typeCode.masked layout.mask = dst.typeCode.masked layout.mask := by
  obtain ⟨top, htop, hconsumer, hproducer⟩ := hadmitted.exists_covers h
  rw [(h.fits.covers_iff htop src).mp hproducer, (h.fits.covers_iff htop dst).mp hconsumer]

/-- Where the consumer is what the level below leaves of a type on it, the consumer is also what that
level leaves of the types further down. -/
theorem own_of_descendant {node sub : TableNode} {slot : Slot} {layout' : Layout}
    {children : List TableNode} (h : LevelPlaced typeBits owner names remaining layout nodes)
    (here : .branch slot layout' children ∈ nodes) (consumer : slot.covers dst = true)
    (divided : ¬slot.info.flags.contains .compatible = true)
    (hnode : node ∈ Tree.preorders children) (hsub : sub ∈ node.preorder)
    (producer : node.value.code.masked layout'.mask = dst.typeCode) :
    Admitted dst sub.value.code nodes := by
  have hlevel := h.level_below here
  refine .own here consumer divided ?_
  rw [hlevel.typeCode_code (Tree.mem_preorders_of_mem_preorder hnode hsub),
    hlevel.masked_code_of_descendant hnode hsub, producer]

/-- A level that accepts the producers of a type accepts those of the types below it, unless the
consumer is what the mask of the level leaves of the type itself.  There the level above has
accepted both before, or the exact match has. -/
theorem of_descendant {node sub : TableNode} (hadmitted : Admitted dst node.value.code nodes)
    (h : LevelPlaced typeBits owner names remaining layout nodes)
    (hnode : node ∈ Tree.preorders nodes) (hsub : sub ∈ node.preorder)
    (hbefore : node.value.code.masked layout.mask ≠ dst.typeCode) :
    Admitted dst sub.value.code nodes := by
  induction hadmitted generalizing owner names remaining layout with
  | within here consumer whole producer =>
    exact .within here consumer whole (h.covers_of_descendant here hnode hsub producer)
  | @own nodes slot layout' children here consumer divided producer =>
    have hcovers := h.covers_of_masked_below here consumer producer
    rw [h.typeCode_code hnode] at producer
    rcases h.eq_or_mem_children here hnode hcovers with rfl | hbelow
    · -- the masks of both levels keep the code of the type that owns the level below
      have hmask : slot.code.masked layout'.mask = slot.code :=
        (h.level_below here).fits.owner_masked_mask
      have hmask' : slot.code.masked layout.mask = slot.code := by
        rw [h.fits.mask_eq]
        exact h.fits.code_masked here
      exact absurd (hmask'.trans (hmask.symm.trans producer)) hbefore
    · exact own_of_descendant h here consumer divided hbelow hsub producer
  | @deeper nodes slot layout' children here consumer divided below ih =>
    have hlevel := h.level_below here
    obtain ⟨top, htop, -, hproducer⟩ := below.exists_covers hlevel
    have hcovers := h.covers_of_mem_children here (Tree.mem_preorders_of_mem htop) hproducer
    rcases h.eq_or_mem_children here hnode hcovers with rfl | hbelow
    · -- a type lies in none of the types on the level that it owns
      rw [hlevel.fits.not_covers_owner htop (h.typeCode_code hnode)] at hproducer
      cases hproducer
    · by_cases hown : node.value.code.masked layout'.mask = dst.typeCode
      · exact own_of_descendant h here consumer divided hbelow hsub hown
      · exact .deeper here consumer divided (ih hlevel hbelow hown)

end Admitted

end Level

/-! ### The descent of a table -/

section Table

variable {typeBits : Nat} {table : CodeTable} {dst src : Code}
  (h : LevelPlaced typeBits .unknown [] table.typeBits table.root table.nodes)
include h

/-- The descent of a table accepts just what its root level admits. -/
theorem evaluate_compatibility_iff :
    table.compatibility.descent.evaluate (.pair dst src) = true ↔ Admitted dst src table.nodes :=
  evaluate_descent_iff h

/-- Producers of one type come to the same in the descent, whatever their flags. -/
theorem evaluate_compatibility_type_iff {node : TableNode} (hnode : node ∈ table.preorder)
    (hsrc : src.typeCode = node.value.code) :
    table.compatibility.descent.evaluate (.pair dst src) = true ↔
      Admitted dst node.value.code table.nodes := by
  rw [← evaluate_compatibility_iff h, Operands.pair, Operands.pair, hsrc, h.typeCode_code hnode]

/-- Grounds that do not rest on switches or encoders bind a producer to the consumer's root type. -/
theorem categoryOf_eq_of_grounds {rule : Rule}
    (hgrounds : Compatibility.Grounds table.compatibility dst src rule)
    (hrule : rule ∉ [Rule.switchEquivalence, .switchDrivesCommand, .valueDrivesSwitch,
      .encoderDrivesCommand]) :
    dst.typeCode.masked table.root.mask = src.typeCode.masked table.root.mask := by
  cases hgrounds with
  | exactMatch own =>
    have hown : src.typeCode.masked table.root.mask = dst.typeCode := own
    rw [← hown, Code.masked_masked, Code.masked_self]
  | switchEquivalence => exact absurd (by decide) hrule
  | switchDrivesCommand => exact absurd (by decide) hrule
  | valueDrivesSwitch => exact absurd (by decide) hrule
  | encoderDrivesCommand => exact absurd (by decide) hrule
  | structuralDescent command admitted =>
    exact (((evaluate_compatibility_iff h).mp admitted).masked_eq h).symm

/-- Grounds that do rest on them need a root type of one of their names. -/
theorem exists_root_of_grounds {rule : Rule}
    (hgrounds : Compatibility.Grounds table.compatibility dst src rule)
    (hrule : rule ∈ [Rule.switchEquivalence, .switchDrivesCommand, .valueDrivesSwitch,
      .encoderDrivesCommand]) :
    ∃ root ∈ table.nodes, root.value.info.name ∈ ["BINARY", "TERNARY", "ENCODER"] := by
  have hswitch : ∀ c : Code, table.compatibility.isSwitch (table.compatibility.categoryOf c) = true →
      ∃ root ∈ table.nodes, root.value.info.name ∈ ["BINARY", "TERNARY", "ENCODER"] := by
    intro c hc
    have hlies := (isSwitch_eq_liesIn h.fits c).symm.trans hc
    obtain ⟨root, hroot, hname, -⟩ := (liesIn_iff _ _ _).mp hlies
    exact ⟨root, hroot, List.mem_append_left ["ENCODER"] hname⟩
  cases hgrounds with
  | exactMatch => exact absurd hrule (by decide)
  | switchEquivalence producer => exact hswitch src producer
  | switchDrivesCommand producer => exact hswitch src producer
  | valueDrivesSwitch value consumer => exact hswitch dst consumer
  | encoderDrivesCommand producer =>
    have hlies := (isEncoder_eq_liesIn h.fits src).symm.trans producer
    obtain ⟨root, hroot, hname, -⟩ := (liesIn_iff _ _ _).mp hlies
    exact ⟨root, hroot, List.mem_append_right ["BINARY", "TERNARY"] hname⟩
  | structuralDescent => exact absurd hrule (by decide)

end Table

/-- The types of the root level are those that the schema declares there. -/
theorem exists_declared_of_mem_nodes {schema : Schema} {table : CodeTable}
    (h : allocate schema = .ok table) {node : TableNode} (hnode : node ∈ table.nodes) :
    ∃ type ∈ schema.types, type.value = node.value.info := by
  obtain ⟨-, -, -, rfl⟩ := (allocate_eq_ok_iff schema table).mp h
  obtain ⟨type, htype, index, rfl⟩ := exists_of_mem_placeNodes hnode
  refine ⟨type, htype, ?_⟩
  rw [value_placeNode]
  rfl

/-- **Only switches and encoders cross root types.**  If a consumer accepts a producer with another
root selector, whether their codes are those of types or not, one of the rules about switches and
encoders decides.  So where no root type has a name that these rules look for, no producer with
another root selector is accepted. -/
theorem rule_of_crossing {schema : Schema} {table : CodeTable} (h : allocate schema = .ok table)
    (dst src : Code)
    (hcrossing : dst.typeCode.masked table.root.mask ≠ src.typeCode.masked table.root.mask) :
    (((Artifacts.ofTable table).check dst src).compatible = true →
      ((Artifacts.ofTable table).check dst src).rule ∈
        [Rule.switchEquivalence, .switchDrivesCommand, .valueDrivesSwitch,
          .encoderDrivesCommand]) ∧
      ((∀ type ∈ schema.types, type.value.name ∉ ["BINARY", "TERNARY", "ENCODER"]) →
        ((Artifacts.ofTable table).check dst src).compatible = false) := by
  have hplaced := levelPlaced_of_allocate h
  have hrule : ((Artifacts.ofTable table).check dst src).compatible = true →
      ((Artifacts.ofTable table).check dst src).rule ∈ [Rule.switchEquivalence,
        .switchDrivesCommand, .valueDrivesSwitch, .encoderDrivesCommand] := by
    intro hcompatible
    obtain ⟨-, -, hgrounds⟩ := Compatibility.grounds_of_compatible hcompatible
    by_contra hother
    exact hcrossing (categoryOf_eq_of_grounds hplaced hgrounds hother)
  refine ⟨hrule, fun hnames => Bool.eq_false_iff.mpr fun hcompatible => ?_⟩
  obtain ⟨-, -, hgrounds⟩ := Compatibility.grounds_of_compatible hcompatible
  obtain ⟨root, hroot, hname⟩ := exists_root_of_grounds hplaced hgrounds (hrule hcompatible)
  obtain ⟨type, htype, hinfo⟩ := exists_declared_of_mem_nodes h hroot
  rw [← hinfo] at hname
  exact hnames type htype hname

/-- A taxonomy without switches and encoders, with a compatible type below the root level. -/
def Schema.climate : Schema :=
  { typeBits := 6
    bitCount := 2
    types :=
      [.branch ⟨"HEAT", .none, "Heat", none, ""⟩ 2
        [.branch ⟨"AIR", .compatible, "Air", none, ""⟩ 2
          [.leaf ⟨"INDOOR", .none, "Indoor", none, ""⟩,
            .leaf ⟨"OUTDOOR", .none, "Outdoor", none, ""⟩],
          .leaf ⟨"WATER", .none, "Water", none, ""⟩],
        .leaf ⟨"LIGHT", .none, "Light", none, ""⟩] }

namespace Schema.climate

def indoor : TableNode :=
  .leaf ⟨⟨"INDOOR", .none, "Indoor", none, ""⟩, ["HEAT", "AIR", "INDOOR"], 1, ⟨0x15⟩, ⟨0x3f⟩⟩

def outdoor : TableNode :=
  .leaf ⟨⟨"OUTDOOR", .none, "Outdoor", none, ""⟩, ["HEAT", "AIR", "OUTDOOR"], 2, ⟨0x16⟩, ⟨0x3f⟩⟩

/-- The compatible type with the types below it, as they are placed. -/
def air : TableNode :=
  .branch ⟨⟨"AIR", .compatible, "Air", none, ""⟩, ["HEAT", "AIR"], 1, ⟨0x14⟩, ⟨0x3c⟩⟩
    ⟨["HEAT", "AIR"], 0, 2, ⟨0x3f⟩⟩ [indoor, outdoor]

end Schema.climate

theorem allocate_climate : allocate Schema.climate = .ok Schema.climate.table := by
  decide +kernel

/-- A level takes the commands of a switch.  A light without switches and encoders around it takes
nothing from a producer of heat, also from one whose code is that of no type. -/
theorem crossing_sample : allocate Schema.sample = .ok Schema.sample.table ∧
    ((Artifacts.ofTable Schema.sample.table).check ⟨0xa180⟩ ⟨0x4090⟩).rule ∈
      [Rule.switchEquivalence, .switchDrivesCommand, .valueDrivesSwitch, .encoderDrivesCommand] ∧
    allocate Schema.climate = .ok Schema.climate.table ∧
    ((Artifacts.ofTable Schema.climate.table).check ⟨0x8020⟩ ⟨0x4013⟩).compatible = false := by
  have hswitch := rule_of_crossing allocate_sample ⟨0xa180⟩ ⟨0x4090⟩ (by decide)
  have hlight := rule_of_crossing allocate_climate ⟨0x8020⟩ ⟨0x4013⟩ (by decide)
  exact ⟨allocate_sample, hswitch.1 (by decide), allocate_climate, hlight.2 (by decide)⟩

/-! ### More special producers -/

/-- Nothing that acceptance rests on is lost if a producer of a type is replaced by one of a type
below. -/
theorem favours_of_descendant {typeBits : Nat} {table : CodeTable}
    (h : LevelPlaced typeBits .unknown [] table.typeBits table.root table.nodes) {s t : TableNode}
    (hs : s ∈ table.preorder) (ht : t ∈ s.preorder) {flags : Code}
    (hflags : flags.typeCode = .unknown) (dst : Code) :
    Compatibility.Favours table.compatibility dst (s.value.code.union flags) dst
      (t.value.code.union flags) := by
  have hmem : t ∈ table.preorder := Tree.mem_preorders_of_mem_preorder hs ht
  have hcode := h.typeCode_code hs
  have hcode' := h.typeCode_code hmem
  have htype := Code.typeCode_union_of_flags hcode hflags
  have htype' := Code.typeCode_union_of_flags hcode' hflags
  have hdirection : (t.value.code.union flags).direction? =
      (s.value.code.union flags).direction? := by
    rw [Code.direction?_union_of_typeCode flags hcode',
      Code.direction?_union_of_typeCode flags hcode]
  have hcommand : (t.value.code.union flags).isCommand = (s.value.code.union flags).isCommand := by
    rw [Code.isCommand_union_of_typeCode flags hcode', Code.isCommand_union_of_typeCode flags hcode]
  have hcategory : (t.value.code.union flags).typeCode.masked table.root.mask =
      (s.value.code.union flags).typeCode.masked table.root.mask := by
    rw [htype, htype']
    exact h.masked_code_of_descendant hs ht
  refine ⟨hdirection, rfl, rfl, hcategory, id, fun hsrc => hcommand.symm.trans hsrc, ?_⟩
  intro hbefore hevaluate
  rw [Compatibility.categoryOf, htype] at hbefore
  rw [evaluate_compatibility_type_iff h hs htype] at hevaluate
  rw [evaluate_compatibility_type_iff h hmem htype']
  exact hevaluate.of_descendant h hs ht hbefore

/-- **Special producers are accepted where general ones are.**  If a consumer, of a type or not,
accepts a producer of a type, it accepts the producers of all types below with the same flags. -/
theorem compatible_of_descendant {schema : Schema} {table : CodeTable}
    (h : allocate schema = .ok table) {s t : TableNode} (hs : s ∈ table.preorder)
    (ht : t ∈ s.preorder) (dst flags : Code) (hflags : flags.typeCode = .unknown)
    (hcompatible : ((Artifacts.ofTable table).check dst (s.value.code.union flags)).compatible =
      true) :
    ((Artifacts.ofTable table).check dst (t.value.code.union flags)).compatible = true :=
  Compatibility.isCompatible_mono (favours_of_descendant (levelPlaced_of_allocate h) hs ht hflags dst)
    hcompatible

/-- The code of a consumer in the air that is neither indoor nor outdoor is that of no type.  It
takes air, so it takes outdoor air. -/
theorem descendant_sample : allocate Schema.climate = .ok Schema.climate.table ∧
    ((Artifacts.ofTable Schema.climate.table).check ⟨0x8017⟩ ⟨0x4014⟩).compatible = true ∧
    ((Artifacts.ofTable Schema.climate.table).check ⟨0x8017⟩ ⟨0x4016⟩).compatible = true := by
  have hair : Schema.climate.air ∈ Schema.climate.table.preorder := by decide
  have houtdoor : Schema.climate.outdoor ∈ Schema.climate.air.preorder := by decide
  have haccepts : ((Artifacts.ofTable Schema.climate.table).check ⟨0x8017⟩ ⟨0x4014⟩).compatible =
      true := by decide
  exact ⟨allocate_climate, haccepts,
    compatible_of_descendant allocate_climate hair houtdoor ⟨0x8017⟩ .output (by decide) haccepts⟩

end PlugTaxonomy
