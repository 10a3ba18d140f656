import PlugTaxonomy.Proofs.Wiring.Descent
import PlugTaxonomy.Proofs.Wiring.Preorder

/-!
# Compatible types are wired as one

The types that stand in a compatible type are wired as if they were one type.  As consumers, no
producer tells them apart, but for a root type, which also takes commands as a value.  As consumers
and producers of one another they accept all, but for commands that meet a value.

* `acceptor_covers_iff_above` — where producers are sought does not depend on the consumer's place
  below a compatible type;
* `check_consumer_eq` — consumers below a compatible type get the same verdict;
* `compatible_within` — a producer below a compatible type is accepted by the consumers there;
* `interchange_of_compatible` — both, for the types of an allocated table.
-/

namespace PlugTaxonomy

section Table

variable {typeBits : Nat} {table : CodeTable}
  (h : LevelPlaced typeBits .unknown [] table.typeBits table.root table.nodes)
  {a d : TableNode} (ha : a ∈ table.preorder)
  (hcompatible : a.value.info.flags.contains .compatible = true) (hd : d ∈ a.preorder)
include h ha hcompatible hd

/-- A consumer below a compatible type accepts in the descent what lies in that type, or in a
compatible type above it. -/
theorem acceptor_covers_iff_above (c : Code) :
    (TableNode.acceptor (table.pathTo d) d).value.covers c = true ↔
      ∃ above ∈ table.preorder, a ∈ above.preorder ∧
        above.value.info.flags.contains .compatible = true ∧ above.value.covers c = true := by
  have hmem : d ∈ table.preorder := Tree.mem_preorders_of_mem_preorder ha hd
  have hself : a ∈ a.preorder := Tree.mem_preorder_iff.mpr (Or.inl rfl)
  rw [acceptor_covers_iff h hmem]
  constructor
  · rintro ⟨above, habove, hbelow, rfl | hflag, hcovers⟩
    · exact ⟨a, ha, hself, hcompatible, covers_of_mem_preorder h ha hd hcovers⟩
    · -- both types stand above the consumer, so one of them stands above the other
      have hpath := (mem_preorder_iff_isPrefix h habove hmem).mp hbelow
      have hpath' := (mem_preorder_iff_isPrefix h ha hmem).mp hd
      rcases List.prefix_or_prefix_of_prefix hpath hpath' with hle | hle
      · exact ⟨above, habove, (mem_preorder_iff_isPrefix h habove ha).mpr hle, hflag, hcovers⟩
      · have hunder := (mem_preorder_iff_isPrefix h ha habove).mpr hle
        exact ⟨a, ha, hself, hcompatible, covers_of_mem_preorder h ha hunder hcovers⟩
  · rintro ⟨above, habove, hbelow, hflag, hcovers⟩
    exact ⟨above, habove, Tree.mem_preorder_trans hbelow hd, Or.inr hflag, hcovers⟩

/-- Consumers below a compatible type, none of them a root type, get the same verdict on every
producer. -/
theorem check_consumer_eq {d' : TableNode} (hd' : d' ∈ a.preorder) (hroot : d ∉ table.nodes)
    (hroot' : d' ∉ table.nodes) (isCommand : Bool) (src : Code) :
    table.compatibility.check (d.value.consumer isCommand) src =
      table.compatibility.check (d'.value.consumer isCommand) src := by
  have hmem : d ∈ table.preorder := Tree.mem_preorders_of_mem_preorder ha hd
  have hmem' : d' ∈ table.preorder := Tree.mem_preorders_of_mem_preorder ha hd'
  have hcode := h.typeCode_code hmem
  have hcode' := h.typeCode_code hmem'
  have htype : (d.value.consumer isCommand).typeCode = d.value.code :=
    Code.typeCode_consumer hcode isCommand
  have htype' : (d'.value.consumer isCommand).typeCode = d'.value.code :=
    Code.typeCode_consumer hcode' isCommand
  have hown : ¬src.typeCode.masked table.root.mask = d.value.code := by
    rw [masked_eq_code_iff h hmem]
    exact fun hexact => hroot hexact.1
  have hown' : ¬src.typeCode.masked table.root.mask = d'.value.code := by
    rw [masked_eq_code_iff h hmem']
    exact fun hexact => hroot' hexact.1
  refine Compatibility.check_congr ?_ ?_ ?_ ?_ ?_
  · exact (Code.isInput_consumer hcode isCommand).trans (Code.isInput_consumer hcode' isCommand).symm
  · exact (Code.isCommand_consumer hcode isCommand).trans
      (Code.isCommand_consumer hcode' isCommand).symm
  · rw [Compatibility.categoryOf, Compatibility.categoryOf, htype, htype']
    exact (h.masked_code_of_descendant ha hd).trans (h.masked_code_of_descendant ha hd').symm
  · rw [htype, htype']
    exact iff_of_false hown hown'
  · intro _
    rw [evaluate_compatibility_descent h hmem htype fun hexact => hroot hexact.1,
      evaluate_compatibility_descent h hmem' htype' fun hexact => hroot' hexact.1, Bool.eq_iff_iff,
      acceptor_covers_iff_above h ha hcompatible hd, acceptor_covers_iff_above h ha hcompatible hd']

/-- A producer below a compatible type is accepted by the consumers there, unless it is a command and
the consumer a value. -/
theorem compatible_within {s : TableNode} (hs : s ∈ a.preorder) {dstCommand srcCommand : Bool}
    (hcommand : srcCommand = true → dstCommand = true) :
    (table.compatibility.check (d.value.consumer dstCommand)
      (s.value.producer srcCommand)).compatible = true := by
  have hmem : d ∈ table.preorder := Tree.mem_preorders_of_mem_preorder ha hd
  have hsrc : s ∈ table.preorder := Tree.mem_preorders_of_mem_preorder ha hs
  have hcode := h.typeCode_code hmem
  have hsrcCode := h.typeCode_code hsrc
  have htype : (d.value.consumer dstCommand).typeCode = d.value.code :=
    Code.typeCode_consumer hcode dstCommand
  have hsrcType : (s.value.producer srcCommand).typeCode = s.value.code :=
    Code.typeCode_producer hsrcCode srcCommand
  have hinput : (d.value.consumer dstCommand).isInput = true :=
    Code.isInput_consumer hcode dstCommand
  have houtput : (s.value.producer srcCommand).isOutput = true :=
    Code.isOutput_producer hsrcCode srcCommand
  by_cases hexact : d ∈ table.nodes ∧ d.value.covers (s.value.producer srcCommand) = true
  · refine Compatibility.compatible_of_grounds houtput hinput (.exactMatch ?_)
    rw [htype]
    exact (masked_eq_code_iff h hmem _).mpr hexact
  · refine Compatibility.compatible_of_grounds houtput hinput (.structuralDescent ?_ ?_)
    · intro hsrcCommand
      exact (Code.isCommand_consumer hcode dstCommand).trans
        (hcommand ((Code.isCommand_producer hsrcCode srcCommand).symm.trans hsrcCommand))
    · have hself : a ∈ a.preorder := Tree.mem_preorder_iff.mpr (Or.inl rfl)
      have hcovers : a.value.covers (s.value.producer srcCommand) = true := by
        rw [a.value.covers_congr (hsrcType.trans hsrcCode.symm)]
        exact (h.mem_preorder_iff_covers ha hsrc).mp hs
      rw [evaluate_compatibility_descent h hmem htype hexact,
        acceptor_covers_iff_above h ha hcompatible hd]
      exact ⟨a, ha, hself, hcompatible, hcovers⟩

end Table

/-- **Compatible types are wired as one.**  Where a type is compatible, all types that stand in it,
itself among them, get the same verdict as consumers of any producer, with the command flag set or
not, root types excepted.  And all of them accept all of them, commands excepted that meet a
value. -/
theorem interchange_of_compatible {schema : Schema} {table : CodeTable}
    (h : allocate schema = .ok table) {a : TableNode} (ha : a ∈ table.preorder)
    (hcompatible : a.value.info.flags.contains .compatible = true) :
    (∀ d ∈ a.preorder, ∀ d' ∈ a.preorder, d ∉ table.nodes → d' ∉ table.nodes →
      ∀ (isCommand : Bool) (src : Code),
        (Artifacts.ofTable table).check (d.value.consumer isCommand) src =
          (Artifacts.ofTable table).check (d'.value.consumer isCommand) src) ∧
      ∀ d ∈ a.preorder, ∀ s ∈ a.preorder, ∀ dstCommand srcCommand : Bool,
        (srcCommand = true → dstCommand = true) →
        ((Artifacts.ofTable table).check (d.value.consumer dstCommand)
          (s.value.producer srcCommand)).compatible = true := by
  have hplaced := levelPlaced_of_allocate h
  constructor
  · intro d hd d' hd' hroot hroot' isCommand src
    exact check_consumer_eq hplaced ha hcompatible hd hd' hroot hroot' isCommand src
  · intro d hd s hs dstCommand srcCommand hcommand
    exact compatible_within hplaced ha hcompatible hd hs hcommand

/-- Indoor air and outdoor air are the same to a producer of water, and a consumer of indoor air
takes outdoor air. -/
theorem interchange_sample : allocate Schema.climate = .ok Schema.climate.table ∧
    (Artifacts.ofTable Schema.climate.table).check ⟨0x8015⟩ ⟨0x4018⟩ =
      (Artifacts.ofTable Schema.climate.table).check ⟨0x8016⟩ ⟨0x4018⟩ ∧
    ((Artifacts.ofTable Schema.climate.table).check ⟨0xa015⟩ ⟨0x4016⟩).compatible = true := by
  have hair : Schema.climate.air ∈ Schema.climate.table.preorder := by decide
  have hindoor : Schema.climate.indoor ∈ Schema.climate.air.preorder := by decide
  have houtdoor : Schema.climate.outdoor ∈ Schema.climate.air.preorder := by decide
  have hwired := interchange_of_compatible allocate_climate hair (by decide)
  refine ⟨allocate_climate, ?_, ?_⟩
  · exact hwired.1 _ hindoor _ houtdoor (by decide) (by decide) false ⟨0x4018⟩
  · exact hwired.2 _ hindoor _ houtdoor true false (by decide)

end PlugTaxonomy
