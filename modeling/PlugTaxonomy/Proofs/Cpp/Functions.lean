import PlugTaxonomy.Proofs.Code.Flags
import PlugTaxonomy.Proofs.Cpp.Execution
import PlugTaxonomy.Proofs.Declared

/-!
# The bodies of the generated functions

Executed under the enumerations of an accepted schema, the three functions give back what the
artifacts answer.

* `Artifacts.scope` — the enumerations of a taxonomy, and `code?_of_declares`: each constant stands
  for its code;
* `exec_labelFunction`, `exec_usageFunction` — label and usage of every code;
* `exec_compatibilityFunction` — the verdict on every consumer and every producer.
-/

namespace PlugTaxonomy

/-! ### Declared names -/

/-- What the names in generated functions stand for. -/
def Artifacts.scope (artifacts : Artifacts) : Cpp.Scope :=
  ⟨artifacts.enumeration, artifacts.usages⟩

/-- Each constant of an accepted schema stands for its code. -/
theorem code?_of_declares {schema : Schema} {table : CodeTable} (h : allocate schema = .ok table)
    {symbol : Symbol} (hsymbol : table.Declares symbol) :
    (Artifacts.ofTable table).scope.code? symbol.name = some symbol.code := by
  obtain ⟨constant, hconstant, rfl⟩ := List.mem_map.mp hsymbol
  have hnodup : ((Artifacts.ofTable table).enumeration.map (·.name)).Nodup := nodup_enumeration h
  exact lookup?_eq_of_nodup hnodup hconstant

namespace Cpp

/-! ### Single statements -/

section Block

variable {scope : Scope} {frame : Frame} {statements : List Statement}

theorem execBlock_comment (text : String) :
    execBlock scope frame (.comment text :: statements) = execBlock scope frame statements :=
  rfl

theorem execBlock_blank :
    execBlock scope frame (.blank :: statements) = execBlock scope frame statements :=
  rfl

theorem execBlock_declareCode {name : String} {term : Term} {code : Code}
    (h : term.eval scope frame = some code) :
    execBlock scope frame (.declareCode name term :: statements) =
      execBlock scope ((name, .code code) :: frame) statements := by
  rw [execBlock, Statement.exec, h]
  rfl

theorem execBlock_declareTruth {name : String} {condition : Condition} {value : Bool}
    (h : condition.eval scope frame = some value) :
    execBlock scope frame (.declareTruth name condition :: statements) =
      execBlock scope ((name, .truth value) :: frame) statements := by
  rw [execBlock, Statement.exec, h]
  rfl

section Guard

variable {rule : Rule} {condition : Condition} {compatible : Bool} {verdict : Verdict}
  (hrest : execBlock scope frame statements = some (.returned (.truth verdict.compatible)))
include hrest

/-- A rule gives its verdict if its condition holds, and leaves the verdict to what follows if
not. -/
theorem execBlock_ruleGuard {p : Prop} [Decidable p]
    (h : condition.eval scope frame = some (decide p)) :
    execBlock scope frame (ruleGuard rule condition compatible ++ statements) =
      some (.returned (.truth (if p then ⟨compatible, rule⟩ else verdict : Verdict).compatible)) := by
  rw [ruleGuard, List.cons_append, execBlock_comment, List.cons_append, execBlock, Statement.exec,
    h]
  by_cases hp : p
  · rw [if_pos hp, decide_eq_true hp]
    rfl
  · rw [if_neg hp, decide_eq_false hp, ← hrest]
    rfl

/-- A rule whose condition is known as a truth value. -/
theorem execBlock_ruleGuard_of_eval {value : Bool} (h : condition.eval scope frame = some value) :
    execBlock scope frame (ruleGuard rule condition compatible ++ statements) =
      some (.returned
        (.truth (if value then ⟨compatible, rule⟩ else verdict : Verdict).compatible)) := by
  refine execBlock_ruleGuard hrest ?_
  rw [h, Bool.decide_eq_true]

end Guard

end Block

/-! ### Label and usage -/

/-- What a function gives back for a label. -/
def labelResult : Option String → Result
  | some label => .text label
  | none => .empty

theorem eval_labelAnswer (scope : Scope) (frame : Frame) (label : Option String) :
    (labelAnswer label).eval scope frame = some (labelResult label) := by
  cases label <;> rfl

/-- The frame of a body in which the type of a code has been declared. -/
theorem eval_declareType {scope : Scope} {frame : Frame} {parameter : String} {c : Code}
    (hmask : scope.code? typeMaskName = some .typeMask) (hc : frame.code? parameter = some c) :
    (Term.masked (.var parameter) typeMaskName).eval scope frame = some c.typeCode :=
  eval_masked hc hmask

theorem eval_declareCommand {scope : Scope} {frame : Frame} {parameter : String} {c : Code}
    (hmask : scope.code? commandName = some .command) (hc : frame.code? parameter = some c) :
    (Condition.nonzero (.masked (.var parameter) commandName)).eval scope frame =
      some c.isCommand := by
  rw [Condition.eval, Term.eval, Term.eval, hc, hmask, Code.isCommand]
  have hflag : decide (c.masked .command ≠ .unknown) = (c.masked .command != .unknown) := by
    rw [Bool.eq_iff_iff, decide_eq_true_iff, bne_iff_ne]
  exact congrArg some hflag

/-- A usage and its toggle variant are declared, and the command flag chooses between them. -/
theorem eval_usageAnswer {table : CodeTable} {tag : UsageTag} {frame : Frame} {isCommand : Bool}
    (hvalue : tag ∈ table.usage.values) (hcommand : frame.truth? "cmd" = some isCommand) :
    (usageAnswer tag).eval (Artifacts.ofTable table).scope frame =
      some (.usage (tag.resolve isCommand)) := by
  have husage : ∀ flag, (Artifacts.ofTable table).scope.usage? (tag.resolve flag) =
      some (.usage (tag.resolve flag)) :=
    fun flag => if_pos (mem_usages_of_mem_values hvalue flag)
  have hplain : tag.resolve false = tag.tag := by
    rw [UsageTag.resolve, Bool.and_false]
    rfl
  rw [usageAnswer]
  split
  · rename_i htoggle
    have hmarked : tag.resolve true = tag.toggleTag := by
      rw [UsageTag.resolve, htoggle]
      rfl
    rw [Answer.eval, hcommand, ← hplain, ← hmarked, husage true, husage false]
    cases isCommand <;> rfl
  · rename_i htoggle
    have hcommands : tag.resolve isCommand = tag.tag := by
      rw [UsageTag.resolve, Bool.eq_false_iff.mpr htoggle]
      rfl
    rw [Answer.eval, ← hcommands, husage isCommand]

section Bodies

variable {schema : Schema} {table : CodeTable} (h : allocate schema = .ok table)
include h

/-- The flags stand for their codes. -/
theorem code?_of_flag (name : String) (code : Code) (hflag : ⟨name, code⟩ ∈ Symbol.flags) :
    (Artifacts.ofTable table).scope.code? name = some code :=
  code?_of_declares h (CodeTable.declares_of_flag hflag)

/-- The body of `getTypeLabel` gives back the label of every code. -/
theorem exec_labelFunction (c : Code) :
    execBlock (Artifacts.ofTable table).scope [("type", .code c)]
        (labelFunction (Artifacts.ofTable table).labels).body =
      some (.returned (labelResult ((Artifacts.ofTable table).label? c))) := by
  have hmask := code?_of_flag h typeMaskName .typeMask (by decide)
  have hparameter : Frame.code? [("type", .code c)] "type" = some c := by
    simp [Frame.code?]
  have hbody : (labelFunction table.labels).body =
      declareType "t" "type" :: .blank :: decisionBody labelAnswer table.labels := rfl
  have htype : ∀ o, Operand.type = o →
      Frame.code? [("t", .code c.typeCode), ("type", .code c)] (operandVariable o) =
        some ((Operands.ofType c).get o) := by
    rintro _ rfl
    simp [Frame.code?, operandVariable, Operands.get, Operands.ofType]
  have hdecision := exec_decisionBody labelAnswer (fun s => code?_of_declares h) htype table.labels
    (madeOf_table_labels h)
  rw [eval_labelAnswer] at hdecision
  show execBlock _ _ (labelFunction table.labels).body = _
  rw [hbody, declareType, execBlock_declareCode (eval_declareType hmask hparameter),
    execBlock_blank, hdecision]
  rfl

/-- The body of `getUsage` gives back the usage of every code, as its command flag says. -/
theorem exec_usageFunction (c : Code) :
    execBlock (Artifacts.ofTable table).scope [("type", .code c)]
        (usageFunction (Artifacts.ofTable table).usage).body =
      some (.returned (.usage ((Artifacts.ofTable table).usageOf c c.isCommand))) := by
  have hcommandMask := code?_of_flag h commandName .command (by decide)
  have htypeMask := code?_of_flag h typeMaskName .typeMask (by decide)
  have hbody : (usageFunction table.usage).body =
      declareCommand "cmd" "type" :: declareType "t" "type" :: .blank ::
        decisionBody usageAnswer table.usage := rfl
  have hparameter : Frame.code? [("type", .code c)] "type" = some c := by
    simp [Frame.code?]
  have hbehind : Frame.code? [("cmd", .truth c.isCommand), ("type", .code c)] "type" = some c := by
    simp [Frame.code?]
  have hcommand : Frame.truth? [("t", .code c.typeCode), ("cmd", .truth c.isCommand),
      ("type", .code c)] "cmd" = some c.isCommand := by
    simp [Frame.truth?]
  have htype : ∀ o, Operand.type = o →
      Frame.code? [("t", .code c.typeCode), ("cmd", .truth c.isCommand), ("type", .code c)]
        (operandVariable o) = some ((Operands.ofType c).get o) := by
    rintro _ rfl
    simp [Frame.code?, operandVariable, Operands.get, Operands.ofType]
  have hdecision := exec_decisionBody usageAnswer (fun s => code?_of_declares h) htype table.usage
    (madeOf_table_usage h)
  rw [eval_usageAnswer (Decision.evaluate_mem_values _ _) hcommand] at hdecision
  show execBlock _ _ (usageFunction table.usage).body = _
  rw [hbody, declareCommand, execBlock_declareTruth (eval_declareCommand hcommandMask hparameter),
    declareType, execBlock_declareCode (eval_declareType htypeMask hbehind), execBlock_blank,
    hdecision]
  rfl

end Bodies

/-! ### Compatibility -/

section Rules

variable {scope : Scope} {frame : Frame}

/-- A variable is compared with a declared constant. -/
theorem eval_equal_constant {name : String} {c : Code} {s : Symbol}
    (hname : frame.code? name = some c) (hs : scope.code? s.name = some s.code) :
    (Condition.equal (.var name) (.constant s.name)).eval scope frame = some (s.code == c) := by
  have hvariable : (Term.var name).eval scope frame = some c := hname
  have hconstant : (Term.constant s.name).eval scope frame = some s.code := hs
  rw [Condition.eval_equal hvariable hconstant, decide_eq_decide.mpr eq_comm]
  rfl

/-- A variable that holds one of some codes, as a condition and as a fact. -/
theorem eval_anyOf {name : String} {c : Code} {symbols : List Symbol}
    (hname : frame.code? name = some c)
    (hsymbols : ∀ s ∈ symbols, scope.code? s.name = some s.code) :
    (anyOf name symbols).eval scope frame = some (symbols.any (·.code == c)) := by
  revert hsymbols
  refine anyOf_induction
    (motive := fun (symbols : List Symbol) condition =>
      (∀ s ∈ symbols, scope.code? s.name = some s.code) →
        condition.eval scope frame = some (symbols.any (·.code == c)))
    (fun _ => rfl) (fun s hs => ?_) (fun before condition s ih hall => ?_) symbols
  · rw [eval_equal_constant hname (hs s (List.mem_singleton_self s)), List.any_cons, List.any_nil,
      Bool.or_false]
  · obtain ⟨hbefore, hs⟩ := List.forall_mem_append.mp hall
    rw [Condition.eval_either (ih hbefore)
        (eval_equal_constant hname (hs s (List.mem_singleton_self s))),
      List.any_append, List.any_cons, List.any_nil, Bool.or_false]

/-- The rule on encoders, which is left out if there is no such type. -/
def encoderRule : Option Symbol → List Statement
  | none => []
  | some symbol =>
    ruleGuard .encoderDrivesCommand
      (.both (.both (.equal (.var "srcCategory") (.constant symbol.name)) (.var "dstCommand"))
        (.negated (.var "dstSwitch"))) true

theorem execBlock_encoderRule {encoder : Option Symbol} {category : Code}
    {isCommand isSwitch : Bool} {statements : List Statement} {verdict : Verdict}
    (hcategory : frame.code? "srcCategory" = some category)
    (hcommand : frame.truth? "dstCommand" = some isCommand)
    (hswitch : frame.truth? "dstSwitch" = some isSwitch)
    (hencoder : ∀ s ∈ encoder, scope.code? s.name = some s.code)
    (hrest : execBlock scope frame statements = some (.returned (.truth verdict.compatible))) :
    execBlock scope frame (encoderRule encoder ++ statements) =
      some (.returned (.truth
        (if encoder.any (·.code == category) && isCommand && !isSwitch then
          ⟨true, .encoderDrivesCommand⟩ else verdict : Verdict).compatible)) := by
  cases encoder with
  | none => exact hrest
  | some symbol =>
    have hequal := eval_equal_constant hcategory (hencoder symbol rfl)
    exact execBlock_ruleGuard_of_eval hrest
      (Condition.eval_both (Condition.eval_both hequal hcommand) (Condition.eval_negated hswitch))

end Rules

/-- The parts of both codes, as they are declared behind the rule on directions. -/
def partsFrame (rules : Compatibility) (dst src : Code) : Frame :=
  [("dstCategory", .code (dst.typeCode.masked rules.category.code)),
    ("srcCategory", .code (src.typeCode.masked rules.category.code)),
    ("dst", .code dst.typeCode), ("src", .code src.typeCode),
    ("dstCommand", .truth dst.isCommand), ("srcCommand", .truth src.isCommand),
    ("dstType", .code dst), ("srcType", .code src)]

/-- All that is known of both codes behind the rule on exact matches. -/
def rulesFrame (rules : Compatibility) (dst src : Code) : Frame :=
  ("dstSwitch", .truth (rules.isSwitch (dst.typeCode.masked rules.category.code))) ::
    ("srcSwitch", .truth (rules.isSwitch (src.typeCode.masked rules.category.code))) ::
    partsFrame rules dst src

section Compatible

variable {symbol : Symbol → Prop} {value : Bool → Prop} {scope : Scope} {rules : Compatibility}
  (hsymbol : ∀ s, symbol s → scope.code? s.name = some s.code)
  (hflags : ∀ s ∈ Symbol.flags, symbol s)
include hsymbol hflags

/-- The rule on directions looks at both codes as they are. -/
theorem eval_direction (dst src : Code) :
    (Condition.either (.differ (.masked (.var "srcType") "DIRECTION_MASK") (.constant "OUT"))
        (.differ (.masked (.var "dstType") "DIRECTION_MASK") (.constant "IN"))).eval scope
      [("dstType", .code dst), ("srcType", .code src)] =
        some (!src.isOutput || !dst.isInput) := by
  have hmask := hsymbol _ (hflags ⟨"DIRECTION_MASK", .directionMask⟩ (by decide))
  have hin := hsymbol _ (hflags ⟨"IN", .input⟩ (by decide))
  have hout := hsymbol _ (hflags ⟨"OUT", .output⟩ (by decide))
  have hsrc : Frame.code? [("dstType", .code dst), ("srcType", .code src)] "srcType" =
      some src := by simp [Frame.code?]
  have hdst : Frame.code? [("dstType", .code dst), ("srcType", .code src)] "dstType" =
      some dst := by simp [Frame.code?]
  have houtput : (!src.isOutput) = decide (src.masked .directionMask ≠ .output) := by
    rw [Bool.eq_iff_iff, Bool.not_eq_true', Bool.eq_false_iff, Ne, Code.isOutput_iff,
      decide_eq_true_iff]
  have hinput : (!dst.isInput) = decide (dst.masked .directionMask ≠ .input) := by
    rw [Bool.eq_iff_iff, Bool.not_eq_true', Bool.eq_false_iff, Ne, Code.isInput_iff,
      decide_eq_true_iff]
  rw [houtput, hinput]
  exact Condition.eval_either (Condition.eval_differ (eval_masked hsrc hmask) hout)
    (Condition.eval_differ (eval_masked hdst hmask) hin)

/-- Behind the rule on directions the parts of both codes are declared. -/
theorem execBlock_parts (hcategory : symbol rules.category) (dst src : Code)
    (statements : List Statement) :
    execBlock scope [("dstType", .code dst), ("srcType", .code src)]
        (declareCommand "srcCommand" "srcType" :: declareCommand "dstCommand" "dstType" ::
          declareType "src" "srcType" :: declareType "dst" "dstType" ::
          .declareCode "srcCategory" (.masked (.var "src") rules.category.name) ::
          .declareCode "dstCategory" (.masked (.var "dst") rules.category.name) :: statements) =
      execBlock scope (partsFrame rules dst src) statements := by
  have hcommand := hsymbol _ (hflags ⟨commandName, .command⟩ (by decide))
  have htype := hsymbol _ (hflags ⟨typeMaskName, .typeMask⟩ (by decide))
  have hmask := hsymbol _ hcategory
  rw [declareCommand, execBlock_declareTruth (eval_declareCommand hcommand (c := src)
      (by simp [Frame.code?])),
    declareCommand, execBlock_declareTruth (eval_declareCommand hcommand (c := dst)
      (by simp [Frame.code?])),
    declareType, execBlock_declareCode (eval_declareType htype (c := src) (by simp [Frame.code?])),
    declareType, execBlock_declareCode (eval_declareType htype (c := dst) (by simp [Frame.code?])),
    execBlock_declareCode (eval_masked (c := src.typeCode) (by simp [Frame.code?]) hmask),
    execBlock_declareCode (eval_masked (c := dst.typeCode) (by simp [Frame.code?]) hmask)]
  rfl

/-- The body of `isCompatible` gives back the verdict on every consumer and every producer, if the
constants that the rules look at are declared. -/
theorem exec_compatibilityFunction (hcategory : symbol rules.category)
    (hswitches : ∀ s ∈ rules.switchCategories, symbol s)
    (hencoder : ∀ s ∈ rules.encoderCategory, symbol s)
    (hdescent : rules.descent.MadeOf symbol (· ≠ .type) value) (dst src : Code) :
    execBlock scope [("dstType", .code dst), ("srcType", .code src)]
        (compatibilityFunction rules).body =
      some (.returned (.truth (rules.check dst src).compatible)) := by
  have hbody : (compatibilityFunction rules).body =
    compatibilityRules rules ++ .blank :: decisionBody .truth rules.descent := rfl
  have hswitchCodes : ∀ s ∈ rules.switchCategories, scope.code? s.name = some s.code :=
    fun s hs => hsymbol s (hswitches s hs)
  have hencoderCode : ∀ s ∈ rules.encoderCategory, scope.code? s.name = some s.code :=
    fun s hs => hsymbol s (hencoder s hs)
  have hsrcPart : (Term.var "srcCategory").eval scope (partsFrame rules dst src) =
      some (src.typeCode.masked rules.category.code) := by
    simp [Term.eval, Frame.code?, partsFrame]
  have hdstPart : (Term.var "dst").eval scope (partsFrame rules dst src) = some dst.typeCode := by
    simp [Term.eval, Frame.code?, partsFrame]
  have hsrcSwitch : (rulesFrame rules dst src).truth? "srcSwitch" =
      some (rules.isSwitch (src.typeCode.masked rules.category.code)) := by
    simp [Frame.truth?, rulesFrame]
  have hdstSwitch : (rulesFrame rules dst src).truth? "dstSwitch" =
      some (rules.isSwitch (dst.typeCode.masked rules.category.code)) := by
    simp [Frame.truth?, rulesFrame]
  have hsrcCommand : (rulesFrame rules dst src).truth? "srcCommand" = some src.isCommand := by
    simp [Frame.truth?, rulesFrame, partsFrame]
  have hdstCommand : (rulesFrame rules dst src).truth? "dstCommand" = some dst.isCommand := by
    simp [Frame.truth?, rulesFrame, partsFrame]
  have hsrcCategory : (rulesFrame rules dst src).code? "srcCategory" =
      some (src.typeCode.masked rules.category.code) := by
    simp [Frame.code?, rulesFrame, partsFrame]
  have hoperands : ∀ o, o ≠ .type → (rulesFrame rules dst src).code? (operandVariable o) =
      some ((Operands.pair dst src).get o) := by
    intro o ho
    cases o with
    | type => exact absurd rfl ho
    | dst => simp [Frame.code?, rulesFrame, partsFrame, operandVariable, Operands.get, Operands.pair]
    | src => simp [Frame.code?, rulesFrame, partsFrame, operandVariable, Operands.get, Operands.pair]
  rw [hbody, compatibilityRules, Compatibility.check]
  simp only [List.append_assoc, List.cons_append, List.nil_append]
  refine execBlock_ruleGuard_of_eval ?_ (eval_direction hsymbol hflags dst src)
  rw [execBlock_parts hsymbol hflags hcategory]
  refine execBlock_ruleGuard ?_ (Condition.eval_equal hsrcPart hdstPart)
  rw [execBlock_declareTruth (eval_anyOf (c := src.typeCode.masked rules.category.code)
      (by simp [Frame.code?, partsFrame]) hswitchCodes),
    execBlock_declareTruth (eval_anyOf (c := dst.typeCode.masked rules.category.code)
      (by simp [Frame.code?, partsFrame]) hswitchCodes)]
  show execBlock scope (rulesFrame rules dst src) _ = _
  refine execBlock_ruleGuard_of_eval ?_ (Condition.eval_both hsrcSwitch hdstSwitch)
  refine execBlock_ruleGuard_of_eval ?_ (Condition.eval_both hsrcSwitch hdstCommand)
  refine execBlock_ruleGuard_of_eval ?_
    (Condition.eval_both (Condition.eval_negated hsrcCommand) hdstSwitch)
  refine execBlock_encoderRule hsrcCategory hdstCommand hdstSwitch hencoderCode ?_
  refine execBlock_ruleGuard_of_eval ?_
    (Condition.eval_both hsrcCommand (Condition.eval_negated hdstCommand))
  rw [execBlock_blank, exec_decisionBody .truth hsymbol hoperands rules.descent hdescent]
  rfl

end Compatible

end Cpp

end PlugTaxonomy
