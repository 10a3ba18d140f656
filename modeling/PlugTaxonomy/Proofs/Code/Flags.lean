import PlugTaxonomy.Proofs.Code.Mask

/-!
# Direction and command flag

The flags stand above the type field, so a type's own code has none of them, and flags put into
it are all that is read back.

* `isInput_iff`, `isOutput_iff` — a direction is set if the other one is not;
* `union_masked` — a mask is put on both parts of a code;
* `masked_of_typeCode` — a mask above the type field leaves nothing of a type's own code;
* `direction?_union_of_typeCode`, `isCommand_union_of_typeCode` — flags put into a type's code are
  read back from it;
* `typeCode_withDirection`, `direction?_withDirection` — a direction is set without touching the type;
* `typeCode_withCommand`, `typeCode_without_command` — the command flag of a code is set and cleared
  without touching its type and its direction;
* `consumerFlags`, `producerFlags` — the flags of a consumer and of a producer, as a value or as a
  command.
-/

namespace PlugTaxonomy.Code

theorem isInput_iff (c : Code) : c.isInput = true ↔ c.masked directionMask = input := by
  rw [isInput, beq_iff_eq, direction?]
  split
  · rename_i h
    exact ⟨fun _ => h, fun _ => rfl⟩
  · rename_i h
    constructor
    · split <;> exact nofun
    · exact fun hinput => absurd hinput h

theorem isOutput_iff (c : Code) : c.isOutput = true ↔ c.masked directionMask = output := by
  rw [isOutput, beq_iff_eq, direction?]
  split
  · rename_i h
    rw [h]
    exact ⟨nofun, nofun⟩
  · split
    · rename_i h
      exact ⟨fun _ => h, fun _ => rfl⟩
    · rename_i h
      exact ⟨nofun, fun houtput => absurd houtput h⟩

theorem union_masked (c d mask : Code) :
    (c.union d).masked mask = (c.masked mask).union (d.masked mask) := by
  apply eq_of_bit_eq
  intro i
  simp only [bit_masked, bit_union, Bool.and_or_distrib_right]

@[simp] theorem unknown_union (c : Code) : unknown.union c = c := by
  apply eq_of_bit_eq
  intro i
  simp only [bit_union, bit_unknown, Bool.false_or]

/-- A mask above the type field leaves nothing of a code that is a type alone. -/
theorem masked_of_typeCode {c mask : Code} (hc : c.typeCode = c)
    (hmask : typeMask.masked mask = unknown) : c.masked mask = unknown := by
  rw [← hc, typeCode, masked_masked, hmask, masked_unknown]

/-- What a mask above the type field leaves of a type's code with flags is that of the flags. -/
theorem union_masked_of_typeCode {c mask : Code} (flags : Code) (hc : c.typeCode = c)
    (hmask : typeMask.masked mask = unknown) : (c.union flags).masked mask = flags.masked mask := by
  rw [union_masked, masked_of_typeCode hc hmask, unknown_union]

/-- The direction of a type's code with flags is that of the flags. -/
theorem direction?_union_of_typeCode {c : Code} (flags : Code) (hc : c.typeCode = c) :
    (c.union flags).direction? = flags.direction? := by
  rw [direction?, union_masked_of_typeCode flags hc (by decide)]
  rfl

theorem isCommand_union_of_typeCode {c : Code} (flags : Code) (hc : c.typeCode = c) :
    (c.union flags).isCommand = flags.isCommand := by
  rw [Code.isCommand, union_masked_of_typeCode flags hc (by decide)]
  rfl

/-! ### Setting and clearing flags -/

@[simp] theorem bit_without (c d : Code) (i : Nat) :
    (c.without d).bit i = (c.bit i && !d.bit i) := by
  by_cases h : i < 16
  · simp [bit, without, h]
  · have hout : c.bits.getLsbD i = false := BitVec.getLsbD_of_ge _ _ (Nat.le_of_not_lt h)
    simp [bit, without, hout]

theorem without_masked (c d mask : Code) :
    (c.without d).masked mask = (c.masked mask).without (d.masked mask) := by
  apply eq_of_bit_eq
  intro i
  rw [bit_masked, bit_without, bit_without, bit_masked, bit_masked]
  cases mask.bit i with
  | false => rw [Bool.and_false, Bool.and_false, Bool.false_and]
  | true => rw [Bool.and_true, Bool.and_true, Bool.and_true]

@[simp] theorem union_unknown (c : Code) : c.union unknown = c := by
  apply eq_of_bit_eq
  intro i
  rw [bit_union, bit_unknown, Bool.or_false]

@[simp] theorem without_unknown (c : Code) : c.without unknown = c := by
  apply eq_of_bit_eq
  intro i
  rw [bit_without, bit_unknown, Bool.not_false, Bool.and_true]

/-- A mask does not see flags that are put in elsewhere. -/
theorem union_masked_of_apart (c : Code) {d mask : Code} (h : d.masked mask = unknown) :
    (c.union d).masked mask = c.masked mask := by
  rw [union_masked, h, union_unknown]

/-- A mask does not see flags that are taken away elsewhere. -/
theorem without_masked_of_apart (c : Code) {d mask : Code} (h : d.masked mask = unknown) :
    (c.without d).masked mask = c.masked mask := by
  rw [without_masked, h, without_unknown]

/-- A mask sees nothing of what it has taken away. -/
theorem without_masked_self (c d : Code) : (c.without d).masked d = unknown := by
  apply eq_of_bit_eq
  intro i
  rw [bit_masked, bit_without, Bool.and_assoc, Bool.not_and_self, Bool.and_false, bit_unknown]

/-- A code that is a type alone has no direction. -/
theorem direction?_of_typeCode {c : Code} (hc : c.typeCode = c) : c.direction? = none := by
  rw [direction?, masked_of_typeCode hc (by decide)]
  decide

theorem isCommand_of_typeCode {c : Code} (hc : c.typeCode = c) : c.isCommand = false := by
  rw [isCommand, masked_of_typeCode hc (by decide)]
  decide

section Direction

variable (c : Code) (direction : Direction)

@[simp] theorem typeCode_withDirection : (c.withDirection direction).typeCode = c.typeCode := by
  have hflag : (ofDirection direction).masked typeMask = unknown := by cases direction <;> decide
  rw [typeCode, withDirection, union_masked_of_apart _ hflag,
    without_masked_of_apart c (by decide), typeCode]

@[simp] theorem isCommand_withDirection : (c.withDirection direction).isCommand = c.isCommand := by
  have hflag : (ofDirection direction).masked command = unknown := by cases direction <;> decide
  rw [isCommand, withDirection, union_masked_of_apart _ hflag,
    without_masked_of_apart c (by decide), isCommand]

@[simp] theorem direction?_withDirection :
    (c.withDirection direction).direction? = some direction := by
  rw [direction?, withDirection, union_masked, without_masked_self, unknown_union]
  cases direction <;> decide

end Direction

section Command

variable (c : Code)

@[simp] theorem typeCode_withCommand : c.withCommand.typeCode = c.typeCode :=
  union_masked_of_apart c (by decide)

@[simp] theorem typeCode_without_command : (c.without command).typeCode = c.typeCode :=
  without_masked_of_apart c (by decide)

@[simp] theorem direction?_withCommand : c.withCommand.direction? = c.direction? := by
  rw [direction?, withCommand, union_masked_of_apart c (by decide), direction?]

@[simp] theorem direction?_without_command : (c.without command).direction? = c.direction? := by
  rw [direction?, without_masked_of_apart c (by decide), direction?]

@[simp] theorem isCommand_withCommand : c.withCommand.isCommand = true := by
  have hset : c.withCommand.masked command = command := by
    apply eq_of_bit_eq
    intro i
    rw [bit_masked, withCommand, bit_union]
    cases command.bit i with
    | false => exact Bool.and_false _
    | true => rw [Bool.or_true, Bool.and_true]
  rw [isCommand, hset]
  decide

end Command

/-! ### Consumers and producers -/

/-- The flags of a consumer, as a value or as a command. -/
def consumerFlags (isCommand : Bool) : Code :=
  if isCommand then input.union command else input

theorem typeCode_consumerFlags (isCommand : Bool) :
    (consumerFlags isCommand).typeCode = unknown := by
  cases isCommand <;> decide

/-- The flags of a producer, as a value or as a command. -/
def producerFlags (isCommand : Bool) : Code :=
  if isCommand then output.union command else output

theorem typeCode_producerFlags (isCommand : Bool) :
    (producerFlags isCommand).typeCode = unknown := by
  cases isCommand <;> decide

@[simp] theorem isInput_consumerFlags (isCommand : Bool) :
    (consumerFlags isCommand).isInput = true := by
  cases isCommand <;> decide

@[simp] theorem isCommand_consumerFlags (isCommand : Bool) :
    (consumerFlags isCommand).isCommand = isCommand := by
  cases isCommand <;> decide

@[simp] theorem isOutput_producerFlags (isCommand : Bool) :
    (producerFlags isCommand).isOutput = true := by
  cases isCommand <;> decide

@[simp] theorem isCommand_producerFlags (isCommand : Bool) :
    (producerFlags isCommand).isCommand = isCommand := by
  cases isCommand <;> decide

section Endpoint

variable {c : Code} (hc : c.typeCode = c) (isCommand : Bool)
include hc

theorem typeCode_consumer : (c.union (consumerFlags isCommand)).typeCode = c :=
  typeCode_union_of_flags hc (typeCode_consumerFlags isCommand)

theorem isInput_consumer : (c.union (consumerFlags isCommand)).isInput = true := by
  rw [isInput_iff, union_masked_of_typeCode _ hc (by decide)]
  cases isCommand <;> decide

theorem isCommand_consumer : (c.union (consumerFlags isCommand)).isCommand = isCommand := by
  rw [Code.isCommand, union_masked_of_typeCode _ hc (by decide)]
  cases isCommand <;> decide

theorem typeCode_producer : (c.union (producerFlags isCommand)).typeCode = c :=
  typeCode_union_of_flags hc (typeCode_producerFlags isCommand)

theorem isOutput_producer : (c.union (producerFlags isCommand)).isOutput = true := by
  rw [isOutput_iff, union_masked_of_typeCode _ hc (by decide)]
  cases isCommand <;> decide

theorem isCommand_producer : (c.union (producerFlags isCommand)).isCommand = isCommand := by
  rw [isCommand_union_of_typeCode _ hc, isCommand_producerFlags]

end Endpoint

end PlugTaxonomy.Code
