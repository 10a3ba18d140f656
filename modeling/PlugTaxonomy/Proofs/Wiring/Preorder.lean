import PlugTaxonomy.Proofs.Wiring.Endpoint

/-!
# Wiring is a preorder

Where all endpoints are values, or all of them commands, types accept themselves, and what is
accepted by something accepted is accepted.  The rules come down to two or three alternatives then,
and whichever of them two verdicts rest on, one of them holds between the outer endpoints.

* `TypePath.admits_refl`, `TypePath.admits_trans` — the descent alone is a preorder;
* `Endpoint.accepts_values_iff`, `Endpoint.accepts_commands_iff` — which values, and which commands
  a type accepts;
* `Endpoint.accepts_trans` — one case for each pair of rules that two verdicts may rest on;
* `Artifacts.accepts` — whether a consumer of a type accepts a producer of another;
* `accepts_preorder` — acceptance between the types of an allocated table.
-/

namespace PlugTaxonomy

/-! ### The descent -/

namespace TypePath

variable {compatible : TypePath → Bool} {dst mid src : TypePath}

theorem admits_refl : dst.admits compatible dst = true :=
  admits_iff.mpr ⟨dst, List.prefix_rfl, Or.inl rfl, List.prefix_rfl⟩

/-- A consumer's type admits all that stands below it. -/
theorem admits_of_isPrefix (h : dst <+: src) : dst.admits compatible src = true :=
  admits_iff.mpr ⟨dst, List.prefix_rfl, Or.inl rfl, h⟩

/-- Of the types through which the two verdicts hold, both on the path in the middle, the upper one
serves for the outer paths. -/
theorem admits_trans (h : dst.admits compatible mid = true)
    (h' : mid.admits compatible src = true) : dst.admits compatible src = true := by
  obtain ⟨above, hdst, hkind, hmid⟩ := admits_iff.mp h
  obtain ⟨above', hmid', hkind', hsrc⟩ := admits_iff.mp h'
  rw [admits_iff]
  rcases List.prefix_or_prefix_of_prefix hmid hmid' with hle | hle
  · exact ⟨above, hdst, hkind, hle.trans hsrc⟩
  · rcases hkind' with rfl | hcompatible
    · exact ⟨above, hdst, hkind, hmid.trans hsrc⟩
    · exact ⟨above', hle.trans hdst, Or.inr hcompatible, hsrc⟩

/-- Two paths of which one admits the other start at the same root type. -/
theorem head?_eq_of_admits (hnil : compatible [] = false) (hdst : dst ≠ [])
    (h : dst.admits compatible src = true) : dst.head? = src.head? := by
  obtain ⟨above, hbegins, hkind, hbegins'⟩ := admits_iff.mp h
  cases above with
  | nil =>
    rcases hkind with heq | hcompatible
    · exact absurd heq.symm hdst
    · rw [hnil] at hcompatible
      cases hcompatible
  | cons name above =>
    obtain ⟨rest, rfl⟩ := hbegins
    obtain ⟨rest', rfl⟩ := hbegins'
    rfl

theorem standsIn_congr (h : dst.head? = src.head?) (categories : List String) :
    dst.standsIn categories = src.standsIn categories := by
  rw [standsIn, standsIn, h]

end TypePath

/-! ### Values and commands -/

namespace Endpoint

/-- Whether a consumer of one type accepts a producer of another, both of them values or both of
them commands. -/
def accepts (compatible : TypePath → Bool) (isCommand : Bool) (dst src : TypePath) : Bool :=
  (verdict compatible ⟨dst, Code.consumerFlags isCommand⟩
    ⟨src, Code.producerFlags isCommand⟩).compatible

variable {compatible : TypePath → Bool} {dst mid src : TypePath}

/-- Of values, switches accept all, and others what the descent accepts. -/
theorem accepts_values_iff :
    accepts compatible false dst src = true ↔
      dst.standsIn switchNames = true ∨ dst.admits compatible src = true := by
  rw [accepts, verdict]
  by_cases hown : dst.length = 1 ∧ dst <+: src
  · have hadmits : dst.admits compatible src = true := TypePath.admits_of_isPrefix hown.2
    simp [hown, hadmits]
  · cases dst.standsIn switchNames <;> cases src.standsIn switchNames <;> simp [hown]

/-- Of commands, those of switches are accepted by all, those of encoders by all but switches, and
others where the descent accepts them. -/
theorem accepts_commands_iff :
    accepts compatible true dst src = true ↔
      src.standsIn switchNames = true ∨
        (src.standsIn [encoderName] = true ∧ dst.standsIn switchNames = false) ∨
        dst.admits compatible src = true := by
  rw [accepts, verdict]
  by_cases hown : dst.length = 1 ∧ dst <+: src
  · have hadmits : dst.admits compatible src = true := TypePath.admits_of_isPrefix hown.2
    simp [hown, hadmits]
  · cases dst.standsIn switchNames <;> cases src.standsIn switchNames <;>
      cases src.standsIn [encoderName] <;> simp [hown]

/-- Each type accepts itself. -/
theorem accepts_refl (isCommand : Bool) : accepts compatible isCommand dst dst = true := by
  cases isCommand with
  | false => exact accepts_values_iff.mpr (Or.inr TypePath.admits_refl)
  | true => exact accepts_commands_iff.mpr (Or.inr (Or.inr TypePath.admits_refl))

/-- What a type accepts that is itself accepted is accepted. -/
theorem accepts_trans (hnil : compatible [] = false) (hdst : dst ≠ []) (hmid : mid ≠ [])
    (isCommand : Bool) (h : accepts compatible isCommand dst mid = true)
    (h' : accepts compatible isCommand mid src = true) :
    accepts compatible isCommand dst src = true := by
  cases isCommand with
  | false =>
    rw [accepts_values_iff] at h h' ⊢
    rcases h with hswitch | hadmits
    · exact Or.inl hswitch
    · have hroot := TypePath.standsIn_congr (TypePath.head?_eq_of_admits hnil hdst hadmits)
      rcases h' with hswitch | hadmits'
      · exact Or.inl ((hroot switchNames).trans hswitch)
      · exact Or.inr (TypePath.admits_trans hadmits hadmits')
  | true =>
    rw [accepts_commands_iff] at h h' ⊢
    rcases h' with hswitch | ⟨hencoder, hmidSwitch⟩ | hadmits'
    · exact Or.inl hswitch
    · -- an encoder drives the outer consumer too, since that is no switch either
      rcases h with hswitch | ⟨-, hdstSwitch⟩ | hadmits
      · rw [hmidSwitch] at hswitch
        cases hswitch
      · exact Or.inr (Or.inl ⟨hencoder, hdstSwitch⟩)
      · have hroot := TypePath.standsIn_congr (TypePath.head?_eq_of_admits hnil hdst hadmits)
        exact Or.inr (Or.inl ⟨hencoder, (hroot switchNames).trans hmidSwitch⟩)
    · have hroot := TypePath.standsIn_congr (TypePath.head?_eq_of_admits hnil hmid hadmits')
      rcases h with hswitch | ⟨hencoder, hdstSwitch⟩ | hadmits
      · exact Or.inl ((hroot switchNames).symm.trans hswitch)
      · exact Or.inr (Or.inl ⟨(hroot [encoderName]).symm.trans hencoder, hdstSwitch⟩)
      · exact Or.inr (Or.inr (TypePath.admits_trans hadmits hadmits'))

end Endpoint

/-! ### Types of a table -/

/-- The code of a producer of a type, as a value or as a command. -/
def Slot.producer (slot : Slot) (isCommand : Bool) : Code :=
  slot.code.union (Code.producerFlags isCommand)

/-- Whether a consumer of one type accepts a producer of another, both of them values or both of
them commands. -/
def Artifacts.accepts (artifacts : Artifacts) (isCommand : Bool) (dst src : Slot) : Bool :=
  artifacts.compatibility.isCompatible (dst.consumer isCommand) (src.producer isCommand)

/-- Acceptance between types of a table is acceptance between their paths. -/
theorem accepts_eq_of_paths {typeBits : Nat} {table : CodeTable}
    (h : LevelPlaced typeBits .unknown [] table.typeBits table.root table.nodes)
    {dst src : TableNode} (hdst : dst ∈ table.preorder) (hsrc : src ∈ table.preorder)
    (isCommand : Bool) :
    (Artifacts.ofTable table).accepts isCommand dst.value src.value =
      Endpoint.accepts table.isCompatiblePath isCommand dst.value.names src.value.names :=
  congrArg Verdict.compatible (check_types_eq_verdict h hdst hsrc
    (Code.typeCode_consumerFlags isCommand) (Code.typeCode_producerFlags isCommand))

/-- **Wiring is a preorder.**  Between the types of an allocated table, all of them taken as values
or all of them as commands, every type accepts itself, and a type accepts what is accepted by one
that it accepts, by whatever rules. -/
theorem accepts_preorder {schema : Schema} {table : CodeTable} (h : allocate schema = .ok table)
    (isCommand : Bool) :
    (∀ d ∈ table.preorder, (Artifacts.ofTable table).accepts isCommand d.value d.value = true) ∧
      ∀ d ∈ table.preorder, ∀ m ∈ table.preorder, ∀ s ∈ table.preorder,
        (Artifacts.ofTable table).accepts isCommand d.value m.value = true →
        (Artifacts.ofTable table).accepts isCommand m.value s.value = true →
        (Artifacts.ofTable table).accepts isCommand d.value s.value = true := by
  have hplaced := levelPlaced_of_allocate h
  constructor
  · intro d hd
    rw [accepts_eq_of_paths hplaced hd hd]
    exact Endpoint.accepts_refl isCommand
  · intro d hd m hm s hs hdm hms
    rw [accepts_eq_of_paths hplaced hd hm] at hdm
    rw [accepts_eq_of_paths hplaced hm hs] at hms
    rw [accepts_eq_of_paths hplaced hd hs]
    exact Endpoint.accepts_trans (isCompatiblePath_nil hplaced) (names_ne_nil hplaced hd)
      (names_ne_nil hplaced hm) isCommand hdm hms

/-- A level takes the steps of an encoder, which takes the commands of a switch, so a level takes
the commands of a switch. -/
theorem accepts_sample : allocate Schema.sample = .ok Schema.sample.table ∧
    ∃ level rotary switch, level.path = "LEVEL" ∧ rotary.path = "ENCODER.ROTARY" ∧
      switch.path = "BINARY.SWITCH" ∧
      (Artifacts.ofTable Schema.sample.table).accepts true level rotary = true ∧
      (Artifacts.ofTable Schema.sample.table).accepts true rotary switch = true ∧
      (Artifacts.ofTable Schema.sample.table).accepts true level switch = true := by
  have hlevel : .leaf ⟨⟨"LEVEL", .none, "Level", none, ""⟩, ["LEVEL"], 3, ⟨0x180⟩, ⟨0x180⟩⟩ ∈
      Schema.sample.table.preorder := by decide
  have hrotary : .leaf ⟨⟨"ROTARY", .none, "Rotary", some "STEPS", ""⟩, ["ENCODER", "ROTARY"], 1,
      ⟨0x140⟩, ⟨0x1c0⟩⟩ ∈ Schema.sample.table.preorder := by decide
  have hswitch : .leaf ⟨⟨"SWITCH", .none, "Switch", none, ""⟩, ["BINARY", "SWITCH"], 1, ⟨0x90⟩,
      ⟨0x1f0⟩⟩ ∈ Schema.sample.table.preorder := by decide
  have haccepts := (accepts_preorder allocate_sample true).2 _ hlevel _ hrotary _ hswitch
    (by decide) (by decide)
  exact ⟨allocate_sample, _,
    ⟨⟨"ROTARY", .none, "Rotary", some "STEPS", ""⟩, ["ENCODER", "ROTARY"], 1, ⟨0x140⟩, ⟨0x1c0⟩⟩, _,
    rfl, rfl, rfl, by decide, by decide, haccepts⟩

end PlugTaxonomy
