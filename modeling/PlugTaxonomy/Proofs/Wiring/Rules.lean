import PlugTaxonomy.Artifacts
import PlugTaxonomy.Proofs.Code.Flags
import PlugTaxonomy.Proofs.Table.Layout

/-!
# What acceptance rests on

The rules are tried one after the other, but where a producer is accepted the order only settles
which rule is named.  It is accepted if the directions fit and some rule has its grounds, whatever
other rules apply.  What the order keeps from being accepted stands in the grounds: encoders do not
drive the commands of switches, and in the descent no command meets a value.  So what keeps grounds
keeps acceptance, though another rule may come to decide.

* `Compatibility.Grounds` — what holds of a consumer and a producer where a rule accepts;
* `grounds_of_compatible`, `isCompatible_iff` — the rule that decides has its grounds, and grounds
  are all that acceptance needs besides the directions;
* `check_congr`, `check_congr_producer` — consumers and producers that the rules cannot tell apart;
* `Favours`, `isCompatible_mono` — what a change of the two codes must keep for acceptance to be kept;
* `command_flag_monotone` — a consumer does not lose by taking commands, nor a producer by being a
  value.
-/

namespace PlugTaxonomy

namespace Compatibility

/-- What the mask of the root level leaves of the type of a code. -/
def categoryOf (rules : Compatibility) (c : Code) : Code :=
  c.typeCode.masked rules.category.code

/-- What holds of a consumer and a producer where a rule accepts the producer. -/
inductive Grounds (rules : Compatibility) (dst src : Code) : Rule → Prop
  | exactMatch (own : rules.categoryOf src = dst.typeCode) : Grounds rules dst src .exactMatch
  | switchEquivalence (producer : rules.isSwitch (rules.categoryOf src) = true)
      (consumer : rules.isSwitch (rules.categoryOf dst) = true) :
      Grounds rules dst src .switchEquivalence
  | switchDrivesCommand (producer : rules.isSwitch (rules.categoryOf src) = true)
      (command : dst.isCommand = true) : Grounds rules dst src .switchDrivesCommand
  | valueDrivesSwitch (value : src.isCommand = false)
      (consumer : rules.isSwitch (rules.categoryOf dst) = true) :
      Grounds rules dst src .valueDrivesSwitch
  | encoderDrivesCommand (producer : rules.isEncoder (rules.categoryOf src) = true)
      (command : dst.isCommand = true) (consumer : rules.isSwitch (rules.categoryOf dst) = false) :
      Grounds rules dst src .encoderDrivesCommand
  | structuralDescent (command : src.isCommand = true → dst.isCommand = true)
      (admitted : rules.descent.evaluate (.pair dst src) = true) :
      Grounds rules dst src .structuralDescent

section Check

variable {rules : Compatibility} {dst src : Code}

/-- Where a producer is accepted, the directions fit and the rule that decides has its grounds. -/
theorem grounds_of_compatible (h : (rules.check dst src).compatible = true) :
    src.isOutput = true ∧ dst.isInput = true ∧ Grounds rules dst src (rules.check dst src).rule := by
  have hdirection : ¬(!src.isOutput || !dst.isInput) = true := by
    intro hdirection
    rw [check, if_pos hdirection] at h
    cases h
  simp only [Bool.or_eq_true, Bool.not_eq_true', not_or, Bool.not_eq_false] at hdirection
  refine ⟨hdirection.1, hdirection.2, ?_⟩
  revert h
  -- one case for each rule, in the order in which they are tried
  fun_cases Compatibility.check rules dst src with
  | case1 => exact nofun
  | case2 _ _ _ hown => exact fun _ => .exactMatch hown
  | case3 _ _ _ _ _ _ _ happlies =>
    rw [Bool.and_eq_true] at happlies
    exact fun _ => .switchEquivalence happlies.1 happlies.2
  | case4 _ _ _ _ _ _ _ _ happlies =>
    rw [Bool.and_eq_true] at happlies
    exact fun _ => .switchDrivesCommand happlies.1 happlies.2
  | case5 _ _ _ _ _ _ _ _ _ happlies =>
    rw [Bool.and_eq_true, Bool.not_eq_true'] at happlies
    exact fun _ => .valueDrivesSwitch happlies.1 happlies.2
  | case6 _ _ _ _ _ _ _ _ _ _ happlies =>
    rw [Bool.and_eq_true, Bool.and_eq_true, Bool.not_eq_true'] at happlies
    exact fun _ => .encoderDrivesCommand happlies.1.1 happlies.1.2 happlies.2
  | case7 => exact nofun
  | case8 _ _ _ _ _ _ _ _ _ _ _ hcommand =>
    refine fun hadmitted => .structuralDescent (fun hsrc => ?_) hadmitted
    rw [hsrc, Bool.true_and, Bool.not_eq_true', Bool.not_eq_false] at hcommand
    exact hcommand

/-- Where none of the accepting rules before it applies, only the descent can have its grounds. -/
theorem Grounds.of_descent {rule : Rule} (h : Grounds rules dst src rule)
    (hown : ¬rules.categoryOf src = dst.typeCode)
    (hswitches : ¬(rules.isSwitch (rules.categoryOf src) &&
      rules.isSwitch (rules.categoryOf dst)) = true)
    (hswitch : ¬(rules.isSwitch (rules.categoryOf src) && dst.isCommand) = true)
    (hvalue : ¬(!src.isCommand && rules.isSwitch (rules.categoryOf dst)) = true)
    (hencoder : ¬(rules.isEncoder (rules.categoryOf src) && dst.isCommand &&
      !rules.isSwitch (rules.categoryOf dst)) = true) :
    Grounds rules dst src .structuralDescent := by
  cases h with
  | exactMatch own => exact absurd own hown
  | switchEquivalence producer consumer => simp [producer, consumer] at hswitches
  | switchDrivesCommand producer command => simp [producer, command] at hswitch
  | valueDrivesSwitch value consumer => simp [value, consumer] at hvalue
  | encoderDrivesCommand producer command consumer =>
    simp [producer, command, consumer] at hencoder
  | structuralDescent command admitted => exact .structuralDescent command admitted

/-- Grounds of a rule are enough, though an earlier rule may be the one that decides. -/
theorem compatible_of_grounds (houtput : src.isOutput = true) (hinput : dst.isInput = true)
    {rule : Rule} (h : Grounds rules dst src rule) : (rules.check dst src).compatible = true := by
  fun_cases Compatibility.check rules dst src with
  | case1 hdirection =>
    rw [houtput, hinput] at hdirection
    cases hdirection
  | case2 | case3 | case4 | case5 | case6 => rfl
  | case7 _ _ _ _ _ _ hown hswitches hswitch hvalue hencoder hasymmetry =>
    cases h.of_descent hown hswitches hswitch hvalue hencoder with
    | structuralDescent command admitted =>
      rw [Bool.and_eq_true, Bool.not_eq_true'] at hasymmetry
      rw [command hasymmetry.1] at hasymmetry
      cases hasymmetry.2
  | case8 _ _ _ _ _ _ hown hswitches hswitch hvalue hencoder =>
    cases h.of_descent hown hswitches hswitch hvalue hencoder with
    | structuralDescent command admitted => exact admitted

theorem isCompatible_iff : rules.isCompatible dst src = true ↔
    src.isOutput = true ∧ dst.isInput = true ∧ ∃ rule, Grounds rules dst src rule := by
  constructor
  · intro h
    obtain ⟨houtput, hinput, hgrounds⟩ := grounds_of_compatible h
    exact ⟨houtput, hinput, _, hgrounds⟩
  · rintro ⟨houtput, hinput, rule, hgrounds⟩
    exact compatible_of_grounds houtput hinput hgrounds

/-- Consumers get the same verdict if they have the same direction, command flag and root code, are
both or neither what the root mask leaves of the producer, and come to the same in the descent. -/
theorem check_congr {dst' : Code} (hinput : dst.isInput = dst'.isInput)
    (hcommand : dst.isCommand = dst'.isCommand)
    (hcategory : rules.categoryOf dst = rules.categoryOf dst')
    (hown : rules.categoryOf src = dst.typeCode ↔ rules.categoryOf src = dst'.typeCode)
    (hdescent : ¬rules.categoryOf src = dst.typeCode →
      rules.descent.evaluate (.pair dst src) = rules.descent.evaluate (.pair dst' src)) :
    rules.check dst src = rules.check dst' src := by
  simp only [categoryOf] at hcategory hown hdescent
  simp only [check, hinput, hcommand, hcategory]
  refine if_congr Iff.rfl rfl ?_
  by_cases hexact : src.typeCode.masked rules.category.code = dst.typeCode
  · rw [if_pos hexact, if_pos (hown.mp hexact)]
  · rw [if_neg hexact, if_neg (hown.not.mp hexact), hdescent hexact]

/-- Producers get the same verdict if they have the same direction, command flag and root code and come
to the same in the descent. -/
theorem check_congr_producer {src' : Code} (houtput : src.isOutput = src'.isOutput)
    (hcommand : src.isCommand = src'.isCommand)
    (hcategory : rules.categoryOf src = rules.categoryOf src')
    (hdescent : rules.descent.evaluate (.pair dst src) = rules.descent.evaluate (.pair dst src')) :
    rules.check dst src = rules.check dst src' := by
  simp only [categoryOf] at hcategory
  simp only [check, houtput, hcommand, hcategory, hdescent]

/-! ### Grounds that are kept -/

/-- What a change of a consumer and a producer must keep for acceptance to be kept. -/
structure Favours (rules : Compatibility) (dst src dst' src' : Code) : Prop where
  direction_src : src'.direction? = src.direction?
  direction_dst : dst'.direction? = dst.direction?
  typeCode_dst : dst'.typeCode = dst.typeCode
  category_src : rules.categoryOf src' = rules.categoryOf src
  /-- The consumer does not cease to take commands. -/
  command_dst : dst.isCommand = true → dst'.isCommand = true
  /-- The producer does not become a command. -/
  command_src : src'.isCommand = true → src.isCommand = true
  /-- The descent does not lose the producer, where it comes to the descent at all. -/
  descent : ¬rules.categoryOf src = dst.typeCode →
    rules.descent.evaluate (.pair dst src) = true →
    rules.descent.evaluate (.pair dst' src') = true

variable {dst' src' : Code}

/-- Grounds are kept, though those of the descent may become those of an exact match. -/
theorem Grounds.mono {rule : Rule} (h : Grounds rules dst src rule)
    (hfavours : Favours rules dst src dst' src') : ∃ rule', Grounds rules dst' src' rule' := by
  have hsrc := hfavours.category_src
  have hdst : rules.categoryOf dst' = rules.categoryOf dst := by
    rw [categoryOf, categoryOf, hfavours.typeCode_dst]
  have hexact (own : rules.categoryOf src = dst.typeCode) : Grounds rules dst' src' .exactMatch :=
    .exactMatch (hsrc.trans (own.trans hfavours.typeCode_dst.symm))
  cases h with
  | exactMatch own => exact ⟨_, hexact own⟩
  | switchEquivalence producer consumer =>
    rw [← hsrc] at producer
    rw [← hdst] at consumer
    exact ⟨_, .switchEquivalence producer consumer⟩
  | switchDrivesCommand producer command =>
    rw [← hsrc] at producer
    exact ⟨_, .switchDrivesCommand producer (hfavours.command_dst command)⟩
  | valueDrivesSwitch value consumer =>
    rw [← hdst] at consumer
    have hvalue : src'.isCommand = false := by
      rw [Bool.eq_false_iff] at value ⊢
      exact fun hcommand => value (hfavours.command_src hcommand)
    exact ⟨_, .valueDrivesSwitch hvalue consumer⟩
  | encoderDrivesCommand producer command consumer =>
    rw [← hsrc] at producer
    rw [← hdst] at consumer
    exact ⟨_, .encoderDrivesCommand producer (hfavours.command_dst command) consumer⟩
  | structuralDescent command admitted =>
    by_cases hown : rules.categoryOf src = dst.typeCode
    · exact ⟨_, hexact hown⟩
    · have hcommand (h : src'.isCommand = true) : dst'.isCommand = true :=
        hfavours.command_dst (command (hfavours.command_src h))
      exact ⟨_, .structuralDescent hcommand (hfavours.descent hown admitted)⟩

/-- Acceptance is kept where all is kept that it rests on. -/
theorem isCompatible_mono (hfavours : Favours rules dst src dst' src')
    (h : rules.isCompatible dst src = true) : rules.isCompatible dst' src' = true := by
  obtain ⟨houtput, hinput, rule, hgrounds⟩ := isCompatible_iff.mp h
  refine isCompatible_iff.mpr ⟨?_, ?_, hgrounds.mono hfavours⟩
  · rw [Code.isOutput, hfavours.direction_src]
    exact houtput
  · rw [Code.isInput, hfavours.direction_dst]
    exact hinput

/-! ### Command flags -/

/-- Acceptance is kept if the command flag is set on the consumer or cleared on the producer, and
nothing else is changed. -/
theorem favours_of_types (houtput : src'.direction? = src.direction?)
    (hinput : dst'.direction? = dst.direction?) (hdst : dst'.typeCode = dst.typeCode)
    (hsrc : src'.typeCode = src.typeCode)
    (hconsumer : dst.isCommand = true → dst'.isCommand = true)
    (hproducer : src'.isCommand = true → src.isCommand = true) :
    Favours rules dst src dst' src' where
  direction_src := houtput
  direction_dst := hinput
  typeCode_dst := hdst
  category_src := by rw [categoryOf, categoryOf, hsrc]
  command_dst := hconsumer
  command_src := hproducer
  descent := by
    intro _ hadmitted
    rw [Operands.pair, hdst, hsrc]
    exact hadmitted

end Check

/-- **Commands flow one way.**  Whatever the rules look at, a consumer that takes commands accepts
all that it accepts as a value, and a producer that is accepted as a command is accepted as a value.
A command is accepted by a value only because it lies in the consumer's root type, or because both
are switches. -/
theorem command_flag_monotone (rules : Compatibility) (dst src : Code) :
    (rules.isCompatible dst src = true → rules.isCompatible dst.withCommand src = true) ∧
      (rules.isCompatible dst src.withCommand = true →
        rules.isCompatible dst (src.without .command) = true) ∧
      (src.isCommand = true → dst.isCommand = false → rules.isCompatible dst src = true →
        (rules.check dst src).rule = .exactMatch ∨
          (rules.check dst src).rule = .switchEquivalence) := by
  refine ⟨?_, ?_, ?_⟩
  · refine isCompatible_mono (favours_of_types rfl ?_ ?_ rfl ?_ id)
    · exact Code.direction?_withCommand dst
    · exact Code.typeCode_withCommand dst
    · exact fun _ => Code.isCommand_withCommand dst
  · refine isCompatible_mono (favours_of_types ?_ rfl rfl ?_ id ?_)
    · rw [Code.direction?_without_command, Code.direction?_withCommand]
    · rw [Code.typeCode_without_command, Code.typeCode_withCommand]
    · exact fun _ => Code.isCommand_withCommand src
  · intro hsrc hdst h
    obtain ⟨-, -, hgrounds⟩ := grounds_of_compatible h
    generalize (rules.check dst src).rule = rule at hgrounds ⊢
    -- all other grounds ask for a consumer that takes commands, or for a value as the producer
    cases hgrounds with
    | exactMatch own => exact Or.inl rfl
    | switchEquivalence producer consumer => exact Or.inr rfl
    | switchDrivesCommand producer command =>
      rw [hdst] at command
      cases command
    | valueDrivesSwitch value consumer =>
      rw [hsrc] at value
      cases value
    | encoderDrivesCommand producer command consumer =>
      rw [hdst] at command
      cases command
    | structuralDescent command admitted =>
      rw [command hsrc] at hdst
      cases hdst

/-- A level takes another level's value as a command, and it takes a value where it takes a command.
A light's command is taken by a switch, since both are switches. -/
theorem command_flags_sample : allocate Schema.sample = .ok Schema.sample.table ∧
    Schema.sample.table.compatibility.isCompatible ⟨0xa180⟩ ⟨0x4180⟩ = true ∧
    Schema.sample.table.compatibility.isCompatible ⟨0xa180⟩ ⟨0x4181⟩ = true ∧
    (Schema.sample.table.compatibility.check ⟨0x8090⟩ ⟨0x60a4⟩).rule = .switchEquivalence := by
  have hvalue := (command_flag_monotone Schema.sample.table.compatibility ⟨0x8180⟩ ⟨0x4180⟩).1
  have hproducer :=
    (command_flag_monotone Schema.sample.table.compatibility ⟨0xa180⟩ ⟨0x4181⟩).2.1
  have hrule :=
    (command_flag_monotone Schema.sample.table.compatibility ⟨0x8090⟩ ⟨0x60a4⟩).2.2
  refine ⟨allocate_sample, hvalue (by decide), hproducer (by decide), ?_⟩
  exact (hrule (by decide) (by decide) (by decide)).resolve_left (by decide)

end Compatibility

end PlugTaxonomy
