import PlugTaxonomy.Proofs.Code.Flags
import PlugTaxonomy.Proofs.Label
import PlugTaxonomy.Proofs.Table.Paths
import PlugTaxonomy.Proofs.Table.Slots

/-!
# Variants are read back

A variant is a type's code with flags above the type field.  The field gives the type back, the
flags give the form of the variant, so no two variants of a table have the same code.

* `VariantForm`, `Slot.forms` — what the suffix of a variant says, and the forms that a type comes
  in;
* `map_parts_variants` — the variants of a type have its name, its code and its forms;
* `nodup_variants` — all variants of a table have different codes;
* `variants_decode` — each variant leads back to its type.
-/

namespace PlugTaxonomy

/-! ### Forms -/

/-- A form that the codes of a type come in. -/
structure VariantForm where
  /-- What stands behind the name of the type. -/
  suffix : String
  direction : Option Direction
  isCommand : Bool
  deriving DecidableEq, Repr

namespace VariantForm

/-- The forms of every type. -/
def plain : List VariantForm :=
  [⟨"", none, false⟩, ⟨"_IN", some .input, false⟩, ⟨"_OUT", some .output, false⟩]

/-- The forms of types whose values may arrive as commands. -/
def commands : List VariantForm :=
  [⟨"_CMD_IN", some .input, true⟩, ⟨"_CMD_OUT", some .output, true⟩]

end VariantForm

namespace Slot

/-- The forms of a type. -/
def forms (slot : Slot) : List VariantForm :=
  if slot.isCommand then VariantForm.plain ++ VariantForm.commands else VariantForm.plain

/-- No two forms of a type have the same flags. -/
theorem nodup_forms (slot : Slot) :
    (slot.forms.map fun form => (form.direction, form.isCommand)).Nodup := by
  rw [forms]
  cases slot.isCommand <;> decide

/-- The variants of a type have its name with their suffix, its code, and the flags of their
form. -/
theorem map_parts_variants {slot : Slot} (hcode : slot.code.typeCode = slot.code) :
    (slot.variants.map fun v => (v.name, v.code.typeCode, v.code.direction?, v.code.isCommand)) =
      slot.forms.map fun form =>
        (slot.qualifiedName ++ form.suffix, slot.code, form.direction, form.isCommand) := by
  have hdirection := Code.direction?_of_typeCode hcode
  have hvalue := Code.isCommand_of_typeCode hcode
  rw [variants, forms]
  cases slot.isCommand <;>
    simp [VariantForm.plain, VariantForm.commands, hcode, hdirection, hvalue]

variable {slot : Slot} (hcode : slot.code.typeCode = slot.code)
include hcode

/-- The type field of a variant holds the code of its type. -/
theorem typeCode_of_mem_variants : ∀ v ∈ slot.variants, v.code.typeCode = slot.code := by
  intro v hv
  have hparts := List.mem_map_of_mem
    (f := fun v : Symbol => (v.name, v.code.typeCode, v.code.direction?, v.code.isCommand)) hv
  rw [map_parts_variants hcode] at hparts
  obtain ⟨form, -, hform⟩ := List.mem_map.mp hparts
  exact (congrArg (·.2.1) hform).symm

/-- The variants of one type have different codes. -/
theorem nodup_codes_variants : (slot.variants.map (·.code)).Nodup := by
  refine List.Nodup.of_map (fun c : Code => (c.direction?, c.isCommand)) ?_
  have hparts := congrArg (List.map fun parts => parts.2.2) (map_parts_variants hcode)
  rw [List.map_map, List.map_map] at hparts
  rw [List.map_map]
  exact (congrArg List.Nodup hparts).mpr slot.nodup_forms

end Slot

/-! ### All variants -/

/-- No two variants of types on a level or below it have the same code. -/
theorem LevelPlaced.nodup_variants {typeBits : Nat} {owner : Code} {names : List String}
    {remaining : Nat} {layout : Layout} {nodes : List TableNode}
    (h : LevelPlaced typeBits owner names remaining layout nodes) :
    (((Tree.preorders nodes).flatMap (·.value.variants)).map (·.code)).Nodup := by
  rw [List.map_flatMap, List.nodup_flatMap]
  constructor
  · exact fun node hnode => Slot.nodup_codes_variants (h.typeCode_code hnode)
  · -- a code that variants of two types share would have both types in its field
    refine (List.pairwise_map.mp h.nodup_codes).imp_of_mem ?_
    intro node node' hnode hnode' hne code hcode hcode'
    obtain ⟨v, hv, rfl⟩ := List.mem_map.mp hcode
    obtain ⟨v', hv', hsame⟩ := List.mem_map.mp hcode'
    have htype := Slot.typeCode_of_mem_variants (h.typeCode_code hnode) v hv
    rw [← hsame, Slot.typeCode_of_mem_variants (h.typeCode_code hnode') v' hv'] at htype
    exact hne htype.symm

/-- **Variants are read back.**  Where a schema is accepted, no two variants have the same code in
the whole table.  The variants of a type are the bare one, one for each direction and, for command
types alone, one for each direction as a command.  The code of each gives back the code of the type,
and the direction and the command flag that the suffix says; its label is that of the type; and the
path of the type leads to it. -/
theorem variants_decode {schema : Schema} {table : CodeTable} (h : allocate schema = .ok table) :
    ((table.preorder.flatMap (·.value.variants)).map (·.code)).Nodup ∧
      ∀ node ∈ table.preorder,
        (node.value.variants.map fun v =>
            (v.name, v.code.typeCode, v.code.direction?, v.code.isCommand)) =
          (node.value.forms.map fun form =>
            (node.value.qualifiedName ++ form.suffix, node.value.code, form.direction,
              form.isCommand)) ∧
        (∀ v ∈ node.value.variants,
          (Artifacts.ofTable table).label? v.code = some node.value.info.label) ∧
        table.find? node.value.path = some node := by
  have hplaced := levelPlaced_of_allocate h
  refine ⟨hplaced.nodup_variants, fun node hnode => ?_⟩
  have hcode := hplaced.typeCode_code hnode
  refine ⟨Slot.map_parts_variants hcode, fun v hv => ?_, find?_path hplaced hnode⟩
  exact label?_of_typeCode h hnode (Slot.typeCode_of_mem_variants hcode v hv)

/-- The fan as the producer of a command. -/
theorem variants_decode_sample : allocate Schema.sample = .ok Schema.sample.table ∧
    (Artifacts.ofTable Schema.sample.table).label? ⟨0x60a8⟩ = some "Fan" ∧
    (Schema.sample.table.find? "BINARY.POWER.FAN").map (·.value.code) = some ⟨0xa8⟩ := by
  have hfan : .leaf ⟨⟨"FAN", .command, "Fan", some "SPEED", ""⟩, ["BINARY", "POWER", "FAN"], 2,
      ⟨0xa8⟩, ⟨0x1fc⟩⟩ ∈ Schema.sample.table.preorder := by decide
  obtain ⟨-, hvariants⟩ := variants_decode allocate_sample
  obtain ⟨-, hlabel, hfind⟩ := hvariants _ hfan
  exact ⟨allocate_sample, hlabel ⟨"BINARY_POWER_FAN_CMD_OUT", ⟨0x60a8⟩⟩ (by decide),
    congrArg (Option.map (·.value.code)) hfind⟩

end PlugTaxonomy
