import PlugTaxonomy.Proofs.Label
import PlugTaxonomy.Proofs.Usage
import PlugTaxonomy.Proofs.Wiring.Descent

/-!
# Only the type field counts

A schema may take fewer bits for types than a word has room for.  The bits between its type field
and the flags belong to nothing; they are kept where the flags are dropped, and still no answer
depends on them, as the mask of each level stays within the field and no producer is compared
without a mask.

* `LevelPlaced.chain_eq_of_field` — codes with the same type field lie in the same types;
* `Admitted.of_field` — a producer is admitted for its type field alone;
* `answers_of_field` — labels, usages and verdicts on producers depend on the type field and the
  flags alone.
-/

namespace PlugTaxonomy

section Level

variable {typeBits : Nat} {owner : Code} {names : List String} {remaining : Nat}
  {layout : Layout} {nodes : List TableNode} {c c' : Code}

/-- The mask of a level leaves the same of codes with the same type field. -/
theorem LevelFits.masked_eq_of_field (h : LevelFits typeBits owner names remaining layout nodes)
    (hfield : c.toNat % 2 ^ typeBits = c'.toNat % 2 ^ typeBits) :
    c.typeCode.masked layout.mask = c'.typeCode.masked layout.mask := by
  have hmasked := Code.masked_field_eq_iff.mpr hfield
  rw [h.mask_eq, Code.typeCode_masked_categoryMask _ _ h.typeBits_le,
    Code.typeCode_masked_categoryMask _ _ h.typeBits_le,
    ← Code.masked_masked_of_le c typeBits (Nat.zero_le layout.offset), hmasked,
    Code.masked_masked_of_le c' typeBits (Nat.zero_le layout.offset)]

variable (h : LevelPlaced typeBits owner names remaining layout nodes)
  (hfield : c.toNat % 2 ^ typeBits = c'.toNat % 2 ^ typeBits)
include h hfield

/-- Codes with the same type field lie in the same types. -/
theorem LevelPlaced.covers_eq_of_field {node : TableNode} (hnode : node ∈ Tree.preorders nodes) :
    node.value.covers c = node.value.covers c' := by
  obtain ⟨_, _, _, _, _, hlevel, hmem⟩ := h.exists_level hnode
  rw [Bool.eq_iff_iff, hlevel.fits.covers_iff hmem, hlevel.fits.covers_iff hmem,
    hlevel.fits.masked_eq_of_field hfield]

theorem LevelPlaced.chain_eq_of_field : TableNode.chain nodes c = TableNode.chain nodes c' :=
  List.filter_congr fun _ hnode => h.covers_eq_of_field hfield hnode

/-- A level that admits a producer admits all producers with the same type field. -/
theorem Admitted.of_field {dst : Code} (hadmitted : Admitted dst c nodes) :
    Admitted dst c' nodes := by
  induction hadmitted generalizing owner names remaining layout with
  | within here consumer whole producer =>
    refine .within here consumer whole ?_
    rwa [← h.covers_eq_of_field hfield (Tree.mem_preorders_of_mem here)]
  | own here consumer divided producer =>
    refine .own here consumer divided ?_
    rwa [← (h.level_below here).fits.masked_eq_of_field hfield]
  | deeper here consumer divided below ih =>
    exact .deeper here consumer divided (ih (h.level_below here))

end Level

section Table

variable {typeBits : Nat} {table : CodeTable}
  (h : LevelPlaced typeBits .unknown [] table.typeBits table.root table.nodes) {dst src src' : Code}
include h

/-- Producers with the same flags and the same type field get the same verdict. -/
theorem check_eq_of_field (hfield : src.toNat % 2 ^ typeBits = src'.toNat % 2 ^ typeBits)
    (hdirection : src.masked .directionMask = src'.masked .directionMask)
    (hcommand : src.masked .command = src'.masked .command) :
    table.compatibility.check dst src = table.compatibility.check dst src' := by
  refine Compatibility.check_congr_producer ?_ ?_ (h.fits.masked_eq_of_field hfield) ?_
  · rw [Code.isOutput, Code.isOutput, Code.direction?, Code.direction?, hdirection]
  · rw [Code.isCommand, Code.isCommand, hcommand]
  · rw [Bool.eq_iff_iff, evaluate_compatibility_iff h, evaluate_compatibility_iff h]
    exact ⟨.of_field h hfield, .of_field h hfield.symm⟩

end Table

/-- The type field of a table is that of its schema. -/
theorem typeBits_of_allocate {schema : Schema} {table : CodeTable}
    (h : allocate schema = .ok table) : table.typeBits = schema.typeBits.toNat := by
  obtain ⟨-, -, -, rfl⟩ := (allocate_eq_ok_iff schema table).mp h
  rfl

/-- **Only the type field and the flags count.**  Where a schema is accepted, all codes that agree
in the bits of its type field have the same label and the same usages, as values and as commands.
And no consumer tells producers apart that agree in these bits, the direction flags and the command
flag. -/
theorem answers_of_field {schema : Schema} {table : CodeTable} (h : allocate schema = .ok table) :
    (∀ c c' : Code,
        c.toNat % 2 ^ schema.typeBits.toNat = c'.toNat % 2 ^ schema.typeBits.toNat →
          (Artifacts.ofTable table).label? c = (Artifacts.ofTable table).label? c' ∧
            ∀ isCommand, (Artifacts.ofTable table).usageOf c isCommand =
              (Artifacts.ofTable table).usageOf c' isCommand) ∧
      ∀ dst src src' : Code,
        src.toNat % 2 ^ schema.typeBits.toNat = src'.toNat % 2 ^ schema.typeBits.toNat →
        src.masked .directionMask = src'.masked .directionMask →
        src.masked .command = src'.masked .command →
          (Artifacts.ofTable table).check dst src = (Artifacts.ofTable table).check dst src' := by
  have hplaced := levelPlaced_of_allocate h
  rw [← typeBits_of_allocate h]
  constructor
  · intro c c' hfield
    have hchain := hplaced.chain_eq_of_field hfield
    constructor
    · have hlabel := evaluate_labels hplaced c none
      rw [hchain, ← evaluate_labels hplaced c' none] at hlabel
      exact hlabel
    · intro isCommand
      have hdeclared : table.declared c = table.declared c' :=
        congrArg (List.map fun node : TableNode => node.value.info) hchain
      rw [usageOf_eq_along h, usageOf_eq_along h, hdeclared]
  · intro dst src src' hfield hdirection hcommand
    exact check_eq_of_field hplaced hfield hdirection hcommand

/-- The type field of the sample has nine bits.  The four bits above it are no matter to the fan,
nor to a rotary encoder as a producer. -/
theorem answers_of_field_sample : allocate Schema.sample = .ok Schema.sample.table ∧
    (Artifacts.ofTable Schema.sample.table).label? ⟨0x1ea8⟩ =
      (Artifacts.ofTable Schema.sample.table).label? ⟨0x00a8⟩ ∧
    (Artifacts.ofTable Schema.sample.table).usageOf ⟨0x1ea8⟩ true =
      (Artifacts.ofTable Schema.sample.table).usageOf ⟨0x00a8⟩ true ∧
    (Artifacts.ofTable Schema.sample.table).check ⟨0x8140⟩ ⟨0x5f40⟩ =
      (Artifacts.ofTable Schema.sample.table).check ⟨0x8140⟩ ⟨0x4140⟩ := by
  obtain ⟨hanswers, hchecks⟩ := answers_of_field allocate_sample
  obtain ⟨hlabel, husage⟩ := hanswers ⟨0x1ea8⟩ ⟨0x00a8⟩ (by decide)
  exact ⟨allocate_sample, hlabel, husage true,
    hchecks ⟨0x8140⟩ ⟨0x5f40⟩ ⟨0x4140⟩ (by decide) (by decide) (by decide)⟩

end PlugTaxonomy
