import PlugTaxonomy.Output.Basic
import PlugTaxonomy.Proofs.Json.Tokens
import PlugTaxonomy.Proofs.Outcome
import PlugTaxonomy.Proofs.Table.Slots
import Mathlib.Data.List.Perm.Subperm

/-!
# The JSON file loses nothing

Artifacts are told apart by the JSON file that is written for them.

* `Decision.toJson_inj`, `Artifacts.toJson_inj` — decisions and artifacts are determined by the
  values that are written for them, whose shapes never clash;
* `length_preorder_le` — an allocated table has no more types than there are codes;
* `Artifacts.isUnsigned_toJson` — so all numbers that are written have 64 bits;
* `eq_of_jsonFiles` — artifacts with the same JSON file are the same.
-/

namespace PlugTaxonomy

/-! ### Values are determined by their JSON -/

theorem Code.toJson_inj {code other : Code} (h : code.toJson = other.toJson) : code = other := by
  have hnat : code.toNat = other.toNat :=
    Int.ofNat.inj (JsonNumber.integer.inj (JsonValue.number.inj h))
  exact congrArg Code.mk (BitVec.eq_of_toNat_eq hnat)

theorem Symbol.toJson_inj {symbol other : Symbol} (h : symbol.toJson = other.toJson) :
    symbol = other := by
  obtain ⟨name, code⟩ := symbol
  obtain ⟨name', code'⟩ := other
  simp only [toJson, JsonValue.object.injEq, List.cons.injEq, Prod.mk.injEq, JsonValue.string.injEq,
    true_and, and_true] at h
  obtain ⟨rfl, hcode⟩ := h
  rw [Code.toJson_inj hcode]

theorem Operand.toJson_inj {operand other : Operand} (h : operand.toJson = other.toJson) :
    operand = other := by
  have hname := JsonValue.string.inj h
  cases operand <;> cases other <;> first | rfl | exact absurd hname (by decide)

theorem Comparand.toJson_inj {comparand other : Comparand}
    (h : comparand.toJson = other.toJson) : comparand = other := by
  cases comparand with
  | symbol symbol =>
    cases other with
    | symbol other =>
      have hsymbol : symbol.toJson = other.toJson := by simpa [toJson] using h
      rw [Symbol.toJson_inj hsymbol]
    | operand other => simp [toJson] at h
  | operand operand =>
    cases other with
    | symbol other => simp [toJson] at h
    | operand other =>
      have hoperand : operand.toJson = other.toJson := by simpa [toJson] using h
      rw [Operand.toJson_inj hoperand]

namespace Decision

variable {α : Type} {value : α → JsonValue}

mutual

/-- **Decisions are determined by their JSON** if their values are. -/
theorem toJson_inj (hvalue : Function.Injective value) (decision other : Decision α)
    (h : decision.toJson value = other.toJson value) : decision = other := by
  match decision, other with
  | give v, give w =>
    have hv : value v = value w := by simpa [toJson] using h
    rw [hvalue hv]
  | switch operand mask arms default, switch operand' mask' arms' default' =>
    simp only [toJson, JsonValue.object.injEq, List.cons.injEq, Prod.mk.injEq, true_and, and_true,
      JsonValue.array.injEq] at h
    obtain ⟨hoperand, hmask, harms, hdefault⟩ := h
    rw [Operand.toJson_inj hoperand, Symbol.toJson_inj hmask, armsToJson_inj hvalue arms arms' harms,
      toJson_inj hvalue default default' hdefault]
  | ifMatch operand mask comparand hit miss, ifMatch operand' mask' comparand' hit' miss' =>
    simp only [toJson, JsonValue.object.injEq, List.cons.injEq, Prod.mk.injEq, true_and,
      and_true] at h
    obtain ⟨hoperand, hmask, hcomparand, hhit, hmiss⟩ := h
    rw [Operand.toJson_inj hoperand, Symbol.toJson_inj hmask, Comparand.toJson_inj hcomparand,
      hvalue hhit, toJson_inj hvalue miss miss' hmiss]
  | give _, switch _ _ _ _ | give _, ifMatch _ _ _ _ _ | switch _ _ _ _, give _
  | switch _ _ _ _, ifMatch _ _ _ _ _ | ifMatch _ _ _ _ _, give _
  | ifMatch _ _ _ _ _, switch _ _ _ _ => simp [toJson] at h

theorem armsToJson_inj (hvalue : Function.Injective value) (arms others : Arms α)
    (h : armsToJson value arms = armsToJson value others) : arms = others := by
  match arms, others with
  | [], [] => rfl
  | (symbol, decision) :: arms, (symbol', other) :: others =>
    simp only [armsToJson, List.cons.injEq, JsonValue.object.injEq, Prod.mk.injEq, true_and,
      and_true] at h
    obtain ⟨⟨hsymbol, hdecision⟩, harms⟩ := h
    rw [Symbol.toJson_inj hsymbol, toJson_inj hvalue decision other hdecision,
      armsToJson_inj hvalue arms others harms]
  | [], _ :: _ | _ :: _, [] => simp [armsToJson] at h

end

end Decision

theorem Constant.toJson_inj {constant other : Constant} (h : constant.toJson = other.toJson) :
    constant = other := by
  obtain ⟨name, code, comment, depth⟩ := constant
  obtain ⟨name', code', comment', depth'⟩ := other
  -- The comment is told by the number of members.
  cases comment <;> cases comment' <;> simp [toJson, JsonValue.nat] at h
  · obtain ⟨rfl, hcode, rfl⟩ := h
    rw [Code.toJson_inj hcode]
  · obtain ⟨rfl, hcode, rfl, rfl⟩ := h
    rw [Code.toJson_inj hcode]

theorem UsageTag.toJson_injective : Function.Injective UsageTag.toJson := by
  rintro ⟨tag, toggle⟩ ⟨tag', toggle'⟩ h
  simp only [toJson, JsonValue.object.injEq, List.cons.injEq, Prod.mk.injEq, JsonValue.string.injEq,
    JsonValue.boolean.injEq, true_and, and_true] at h
  rw [h.1, h.2]

theorem JsonValue.stringOrNull_injective : Function.Injective JsonValue.stringOrNull := by
  rintro (_ | text) (_ | other) h
  · rfl
  · cases h
  · cases h
  · rw [JsonValue.string.inj h]

theorem Compatibility.toJson_inj {rules other : Compatibility} (h : rules.toJson = other.toJson) :
    rules = other := by
  obtain ⟨category, switches, encoder, descent⟩ := rules
  obtain ⟨category', switches', encoder', descent'⟩ := other
  simp only [toJson, JsonValue.object.injEq, List.cons.injEq, Prod.mk.injEq, true_and, and_true,
    JsonValue.array.injEq] at h
  obtain ⟨hcategory, hswitches, hencoder, hdescent⟩ := h
  have hencoder : encoder = encoder' := by
    cases encoder <;> cases encoder'
    · rfl
    · cases hencoder
    · cases hencoder
    · exact congrArg some (Symbol.toJson_inj hencoder)
  rw [Symbol.toJson_inj hcategory, List.map_injective_iff.mpr (fun _ _ => Symbol.toJson_inj) hswitches,
    hencoder, Decision.toJson_inj (fun _ _ => JsonValue.boolean.inj) descent descent' hdescent]

/-- **Artifacts are determined by their JSON.** -/
theorem Artifacts.toJson_inj {artifacts other : Artifacts}
    (h : artifacts.toJson = other.toJson) : artifacts = other := by
  obtain ⟨typeBits, typeCount, usedBits, enumeration, usages, labels, usage, rules⟩ := artifacts
  obtain ⟨typeBits', typeCount', usedBits', enumeration', usages', labels', usage', rules'⟩ := other
  simp only [toJson, JsonValue.object.injEq, List.cons.injEq, Prod.mk.injEq, true_and, and_true,
    JsonValue.array.injEq, JsonValue.nat, JsonValue.number.injEq, JsonNumber.integer.injEq,
    Int.natCast_inj] at h
  obtain ⟨rfl, rfl, rfl, henumeration, husages, hlabels, husage, hrules⟩ := h
  rw [List.map_injective_iff.mpr (fun _ _ => Constant.toJson_inj) henumeration,
    List.map_injective_iff.mpr (fun _ _ => JsonValue.string.inj) husages,
    Decision.toJson_inj JsonValue.stringOrNull_injective labels labels' hlabels,
    Decision.toJson_inj UsageTag.toJson_injective usage usage' husage,
    Compatibility.toJson_inj hrules]

/-! ### Numbers of 64 bits -/

theorem isUnsigned_nat_of_lt {n : Nat} (h : n < UInt64.size) : (JsonValue.nat n).IsUnsigned :=
  ⟨n, h, rfl⟩

theorem areUnsigned_map {α : Type} {f : α → JsonValue} {items : List α}
    (h : ∀ item ∈ items, (f item).IsUnsigned) : JsonValue.AreUnsigned (items.map f) := by
  induction items with
  | nil => trivial
  | cons item items ih =>
    obtain ⟨hitem, hitems⟩ := List.forall_mem_cons.mp h
    exact ⟨hitem, ih hitems⟩

theorem Code.toNat_lt (code : Code) : code.toNat < UInt64.size :=
  Nat.lt_trans code.bits.isLt (by decide)

theorem Symbol.isUnsigned_toJson (symbol : Symbol) : symbol.toJson.IsUnsigned :=
  ⟨trivial, isUnsigned_nat_of_lt symbol.code.toNat_lt, trivial⟩

theorem Comparand.isUnsigned_toJson (comparand : Comparand) : comparand.toJson.IsUnsigned := by
  cases comparand with
  | symbol symbol => exact ⟨symbol.isUnsigned_toJson, trivial⟩
  | operand operand => exact ⟨trivial, trivial⟩

namespace Decision

variable {α : Type} {value : α → JsonValue}

mutual

theorem isUnsigned_toJson (hvalue : ∀ v, (value v).IsUnsigned) (decision : Decision α) :
    (decision.toJson value).IsUnsigned := by
  match decision with
  | give v => exact ⟨trivial, hvalue v, trivial⟩
  | switch operand mask arms default =>
    exact ⟨trivial, trivial, mask.isUnsigned_toJson, areUnsigned_armsToJson hvalue arms,
      isUnsigned_toJson hvalue default, trivial⟩
  | ifMatch operand mask comparand hit miss =>
    exact ⟨trivial, trivial, mask.isUnsigned_toJson, comparand.isUnsigned_toJson, hvalue hit,
      isUnsigned_toJson hvalue miss, trivial⟩

theorem areUnsigned_armsToJson (hvalue : ∀ v, (value v).IsUnsigned) (arms : Arms α) :
    JsonValue.AreUnsigned (armsToJson value arms) := by
  match arms with
  | [] => trivial
  | (symbol, decision) :: arms =>
    exact ⟨⟨symbol.isUnsigned_toJson, isUnsigned_toJson hvalue decision, trivial⟩,
      areUnsigned_armsToJson hvalue arms⟩

end

end Decision

theorem Constant.isUnsigned_toJson {constant : Constant} (h : constant.depth < UInt64.size) :
    constant.toJson.IsUnsigned := by
  have hdepth := isUnsigned_nat_of_lt h
  have hcode := isUnsigned_nat_of_lt constant.code.toNat_lt
  obtain ⟨name, code, comment, depth⟩ := constant
  cases comment with
  | none => exact ⟨trivial, hcode, hdepth, trivial⟩
  | some comment => exact ⟨trivial, hcode, trivial, hdepth, trivial⟩

theorem Compatibility.isUnsigned_toJson (rules : Compatibility) : rules.toJson.IsUnsigned := by
  have hboolean : ∀ accepted, (JsonValue.boolean accepted).IsUnsigned := fun _ => trivial
  refine ⟨rules.category.isUnsigned_toJson, areUnsigned_map fun symbol _ => symbol.isUnsigned_toJson,
    ?_, Decision.isUnsigned_toJson hboolean rules.descent, trivial⟩
  cases rules.encoderCategory with
  | none => trivial
  | some encoder => exact encoder.isUnsigned_toJson

/-! ### Sizes of tables -/

theorem Slot.depth_of_mem_constants {slot : Slot} {depth : Nat} {constant : Constant}
    (h : constant ∈ slot.constants depth) : constant.depth = depth := by
  rw [constants] at h
  split at h
  · cases h
  · rcases List.mem_cons.mp h with rfl | h
    · rfl
    · obtain ⟨v, -, rfl⟩ := List.mem_map.mp h
      rfl

mutual

/-- No constant stands deeper than there are types. -/
theorem TableNode.depth_le_of_mem_constants (node : TableNode) (depth : Nat) :
    ∀ constant ∈ node.constants depth, constant.depth ≤ depth + node.size := by
  intro constant hconstant
  match node with
  | .leaf slot =>
    rw [TableNode.constants] at hconstant
    rw [Slot.depth_of_mem_constants hconstant]
    exact Nat.le_add_right _ _
  | .branch slot layout children =>
    rw [TableNode.constants, List.mem_append, List.mem_cons] at hconstant
    rw [Tree.size]
    rcases hconstant with hconstant | rfl | hconstant
    · rw [Slot.depth_of_mem_constants hconstant]
      exact Nat.le_add_right _ _
    · show depth + 1 ≤ _
      omega
    · have hbelow := TableNode.depth_le_of_mem_constantsOf children (depth + 1) constant hconstant
      omega

theorem TableNode.depth_le_of_mem_constantsOf (nodes : List TableNode) (depth : Nat) :
    ∀ constant ∈ TableNode.constantsOf depth nodes, constant.depth ≤ depth + Tree.sizes nodes := by
  intro constant hconstant
  match nodes with
  | [] => cases hconstant
  | node :: nodes =>
    rw [TableNode.constantsOf, List.mem_append] at hconstant
    rw [Tree.sizes]
    rcases hconstant with hconstant | hconstant
    · have hnode := TableNode.depth_le_of_mem_constants node depth constant hconstant
      omega
    · have hnodes := TableNode.depth_le_of_mem_constantsOf nodes depth constant hconstant
      omega

end

theorem CodeTable.depth_le_of_mem_enumeration {table : CodeTable} {constant : Constant}
    (h : constant ∈ table.enumeration) : constant.depth ≤ table.preorder.length := by
  rw [enumeration, List.mem_append, List.mem_cons] at h
  rcases h with h | rfl | h
  · obtain ⟨flag, -, rfl⟩ := List.mem_map.mp h
    exact Nat.zero_le _
  · exact Nat.zero_le _
  · rw [preorder, Tree.length_preorders, ← Nat.zero_add (Tree.sizes _)]
    exact TableNode.depth_le_of_mem_constantsOf table.nodes 0 constant h

/-- **There are no more types than codes**, since no two types have the same one. -/
theorem length_preorder_le {schema : Schema} {table : CodeTable}
    (h : allocate schema = .ok table) : table.preorder.length ≤ 2 ^ 16 := by
  have hnodup := (levelPlaced_of_allocate h).nodup_codes
  have hnats : ((table.preorder.map (·.value.code)).map Code.toNat).Nodup :=
    hnodup.map fun c d hcode => congrArg Code.mk (BitVec.eq_of_toNat_eq hcode)
  have hrange : (table.preorder.map (·.value.code)).map Code.toNat ⊆ List.range (2 ^ 16) := by
    intro n hn
    obtain ⟨code, -, rfl⟩ := List.mem_map.mp hn
    exact List.mem_range.mpr code.bits.isLt
  have hlength := (List.subperm_of_subset hnats hrange).length_le
  rwa [List.length_map, List.length_map, List.length_range] at hlength

/-- All numbers that are written for an accepted schema have 64 bits. -/
theorem Artifacts.isUnsigned_toJson {schema : Schema} {artifacts : Artifacts}
    (h : compile schema = .ok artifacts) : artifacts.toJson.IsUnsigned := by
  obtain ⟨table, htable, h⟩ := ok_of_bind h
  obtain rfl := Except.ok.inj h
  have hsize : 2 ^ 16 < UInt64.size := by decide
  have htypes := length_preorder_le htable
  have hbits : table.typeBits ≤ 13 := (levelPlaced_of_allocate htable).fits.typeBits_le
  have hused : table.usedBits ≤ table.typeBits := Nat.sub_le _ _
  have hlabel : ∀ label, (JsonValue.stringOrNull label).IsUnsigned := by
    rintro (_ | label) <;> trivial
  have htag : ∀ tag : UsageTag, tag.toJson.IsUnsigned := fun tag => ⟨trivial, trivial, trivial⟩
  refine ⟨isUnsigned_nat_of_lt ?_, isUnsigned_nat_of_lt ?_, isUnsigned_nat_of_lt ?_,
    areUnsigned_map fun constant hconstant => Constant.isUnsigned_toJson ?_,
    areUnsigned_map fun usage _ => trivial, Decision.isUnsigned_toJson hlabel _,
    Decision.isUnsigned_toJson htag _, Compatibility.isUnsigned_toJson _, trivial⟩
  · show table.typeBits < _
    omega
  · show table.preorder.length < _
    omega
  · show table.usedBits < _
    omega
  · have hdepth : constant.depth ≤ table.preorder.length :=
      CodeTable.depth_le_of_mem_enumeration hconstant
    omega

/-- **The JSON file loses nothing.**  If the artifacts of two accepted schemas are written as the same
JSON file, they are the same: sizes, enumeration with comments and depths, usages, all three decisions
with their symbols, and the symbols that the rules of wiring look at. -/
theorem eq_of_jsonFiles {schema other : Schema} {artifacts artifacts' : Artifacts}
    (h : compile schema = .ok artifacts) (h' : compile other = .ok artifacts')
    (hfiles : artifacts.render .json = artifacts'.render .json) : artifacts = artifacts' := by
  have htext : artifacts.toJson.pretty ++ "\n" = artifacts'.toJson.pretty ++ "\n" :=
    (OutputFile.mk.inj (List.cons.inj (Except.ok.inj hfiles)).1).2
  exact Artifacts.toJson_inj (JsonValue.pretty_inj (Artifacts.isUnsigned_toJson h)
    (Artifacts.isUnsigned_toJson h') (String.append_left_inj _ |>.mp htext))

/-- The sample with flags that only repeat what the types above say: a toggle below a toggle, and a
compatible type within a compatible one. -/
def Schema.repeatedSample : Schema :=
  { typeBits := 9
    bitCount := 2
    types :=
      [.branch ⟨"BINARY", .toggle, "Binary", some "OFF_ON", ""⟩ 3
        [.leaf ⟨"SWITCH", .toggle, "Switch", none, ""⟩,
          .branch ⟨"POWER", .compatible, "Power", none, ""⟩ 2
            [.leaf ⟨"LIGHT", .command, "Light", none, ""⟩,
              .leaf ⟨"FAN", Flags.command.union .compatible, "Fan", some "SPEED", ""⟩]],
        .branch ⟨"ENCODER", .none, "Encoder", none, ""⟩ 1
          [.leaf ⟨"ROTARY", .none, "Rotary", some "STEPS", ""⟩],
        .leaf ⟨"LEVEL", .none, "Level", none, ""⟩] }

/-- The tables of two schemas differ in flags, their artifacts do not. -/
theorem jsonFiles_sample :
    compile .sample = .ok (.ofTable Schema.sample.table) ∧
      compile .repeatedSample = .ok (.ofTable Schema.repeatedSample.table) ∧
      Schema.sample.table ≠ Schema.repeatedSample.table ∧
      (Artifacts.ofTable Schema.sample.table).render .json =
        (Artifacts.ofTable Schema.repeatedSample.table).render .json ∧
      Artifacts.ofTable Schema.sample.table = .ofTable Schema.repeatedSample.table := by
  have hrepeated : allocate .repeatedSample = .ok Schema.repeatedSample.table := by decide +kernel
  have hcompile : compile .sample = .ok (.ofTable Schema.sample.table) := by
    rw [compile, allocate_sample]
    rfl
  have hcompile' : compile .repeatedSample = .ok (.ofTable Schema.repeatedSample.table) := by
    rw [compile, hrepeated]
    rfl
  have hjson : (Artifacts.ofTable Schema.sample.table).toJson =
      (Artifacts.ofTable Schema.repeatedSample.table).toJson := by
    rfl
  have hfiles : (Artifacts.ofTable Schema.sample.table).render .json =
      (Artifacts.ofTable Schema.repeatedSample.table).render .json := by
    rw [Artifacts.render, Artifacts.render, Artifacts.jsonFiles, Artifacts.jsonFiles, hjson]
  exact ⟨hcompile, hcompile', by decide +kernel, hfiles, eq_of_jsonFiles hcompile hcompile' hfiles⟩

end PlugTaxonomy
