import PlugTaxonomy.Cpp.Files
import PlugTaxonomy.Output.Basic
import PlugTaxonomy.Proofs.Cpp.Functions
import PlugTaxonomy.Proofs.Cpp.Legible
import PlugTaxonomy.Proofs.Cpp.ReadBack

/-!
# The generated source does what the artifacts say

The text of the generated functions is read and executed.  Under the enumerations of an accepted
schema each call ends in a `return`, with the answer that the artifacts give.

* `call` — a call of a function by its name;
* `readSource_functionsSource` — the functions of the generated source;
* `call_getTypeLabel`, `call_getUsage`, `call_isCompatible` — what each of them gives back;
* `generated_label_and_usage`, `generated_compatibility` — the generated source as a whole.
-/

namespace PlugTaxonomy.Cpp

/-! ### Calls -/

/-- The type of what a function gives back. -/
def Result.type : Result → String
  | .empty => "String"
  | .text _ => "String"
  | .truth _ => "bool"
  | .usage _ => usageName

/-- What a function gives back for some arguments.  It must end in a `return` of its type. -/
def Definition.call (scope : Scope) (function : Definition) (arguments : List Code) :
    Option Result :=
  if arguments.length = function.parameters.length then
    match execBlock scope (function.parameters.zip (arguments.map .code)) function.body with
    | some (.returned result) => if result.type = function.result then some result else none
    | _ => none
  else none

/-- A call of the function with a name. -/
def call (scope : Scope) (functions : List Definition) (name : String) (arguments : List Code) :
    Option Result := do
  let function ← functions.find? (·.name = name)
  function.call scope arguments

/-- A function gives back what its body returns. -/
theorem call_eq_some {scope : Scope} {functions : List Definition} {name : String}
    {function : Definition} {arguments : List Code} {result : Result}
    (hfunction : functions.find? (·.name = name) = some function)
    (hlength : arguments.length = function.parameters.length)
    (hbody : execBlock scope (function.parameters.zip (arguments.map .code)) function.body =
      some (.returned result)) (htype : result.type = function.result) :
    call scope functions name arguments = some result := by
  rw [call, hfunction, Option.bind_eq_bind, Option.bind_some, Definition.call, if_pos hlength, hbody]
  exact if_pos htype

/-! ### The generated source -/

def labelDefinition (table : CodeTable) : Definition :=
  ⟨"String", "getTypeLabel", ["type"], Statement.plainBlock (labelFunction table.labels).body⟩

def usageDefinition (table : CodeTable) : Definition :=
  ⟨usageName, "getUsage", ["type"], Statement.plainBlock (usageFunction table.usage).body⟩

def compatibilityDefinition (table : CodeTable) : Definition :=
  ⟨"bool", "isCompatible", ["dstType", "srcType"],
    Statement.plainBlock (compatibilityFunction table.compatibility).body⟩

section Allocated

variable {schema : Schema} {table : CodeTable} (h : allocate schema = .ok table)
include h

/-- The constants of an accepted schema are names. -/
theorem isName_of_declares {symbol : Symbol} (hsymbol : table.Declares symbol) :
    isName symbol.name = true :=
  isName_of_identifier (identifier_of_declares h hsymbol)

/-- The source of the generated functions is read as three functions with their bodies. -/
theorem readSource_functionsSource :
    readSource (functionsSource (.ofTable table)) =
      some [labelDefinition table, usageDefinition table, compatibilityDefinition table] := by
  have hsymbol : ∀ s, table.Declares s → isName s.name = true := fun s => isName_of_declares h
  have hlabels : Statement.BlockLegible (labelFunction table.labels).body :=
    ⟨legible_declareType (by decide) (by decide), trivial, legible_decisionBody labelAnswer hsymbol
      (fun label _ => legible_labelAnswer label) table.labels (madeOf_table_labels h)⟩
  have husage : Statement.BlockLegible (usageFunction table.usage).body :=
    ⟨legible_declareCommand (by decide) (by decide), legible_declareType (by decide) (by decide),
      trivial, legible_decisionBody usageAnswer hsymbol (fun tag htag => legible_usageAnswer htag)
        table.usage (madeOf_table_usage h)⟩
  have hrules : Statement.BlockLegible (compatibilityFunction table.compatibility).body := by
    refine blockLegible_append.mpr ⟨?_, trivial, legible_decisionBody .truth hsymbol
      (fun _ _ => trivial) table.compatibility.descent (madeOf_table_descent h)⟩
    refine legible_compatibilityRules (hsymbol _ CodeTable.declares_root) ?_ ?_
    · intro s hs
      obtain ⟨name, -, hname⟩ := List.mem_filterMap.mp hs
      exact hsymbol s (CodeTable.declares_categorySymbol hname)
    · exact fun s hs => hsymbol s (CodeTable.declares_categorySymbol hs)
  have hnotice : Yields [notice, ""] [] := yields_nothing rfl
  have hblank : Yields [""] [] := yields_nothing rfl
  have hlabelHead : Lexes ("String getTypeLabel(" ++ enumName ++ " type)")
      [.word "String", .word "getTypeLabel", .mark .openParen, .word enumName, .word "type",
        .mark .closeParen] := rfl
  have husageHead : Lexes (usageName ++ " getUsage(" ++ enumName ++ " type)")
      [.word usageName, .word "getUsage", .mark .openParen, .word enumName, .word "type",
        .mark .closeParen] := rfl
  have hrulesHead : Lexes ("bool isCompatible(" ++ enumName ++ " dstType, " ++ enumName ++
        " srcType)")
      [.word "bool", .word "isCompatible", .mark .openParen, .word enumName, .word "dstType",
        .mark .comma, .word enumName, .word "srcType", .mark .closeParen] := rfl
  have hlabelLines : Yields (labelFunction table.labels).lines _ :=
    yields_function hlabelHead (by decide) rfl hlabels
  have husageLines : Yields (usageFunction table.usage).lines _ :=
    yields_function husageHead (by decide) rfl husage
  have hrulesLines : Yields (compatibilityFunction table.compatibility).lines _ :=
    yields_function hrulesHead (by decide) rfl hrules
  exact readSource_of_yields (((((hnotice.append hlabelLines).append hblank).append
    husageLines).append hblank).append hrulesLines)

/-- A call of `getTypeLabel` gives back the label of a code. -/
theorem call_getTypeLabel (c : Code) :
    call (Artifacts.ofTable table).scope
        [labelDefinition table, usageDefinition table, compatibilityDefinition table]
        "getTypeLabel" [c] = some (labelResult ((Artifacts.ofTable table).label? c)) := by
  have hfunction : [labelDefinition table, usageDefinition table,
      compatibilityDefinition table].find? (·.name = "getTypeLabel") =
        some (labelDefinition table) := rfl
  have hbody : execBlock (Artifacts.ofTable table).scope [("type", .code c)]
      (labelDefinition table).body =
        some (.returned (labelResult ((Artifacts.ofTable table).label? c))) := by
    rw [labelDefinition, execBlock_plain]
    exact exec_labelFunction h c
  refine call_eq_some hfunction rfl hbody ?_
  cases (Artifacts.ofTable table).label? c <;> rfl

/-- A call of `getUsage` gives back the usage of a code, as its command flag says. -/
theorem call_getUsage (c : Code) :
    call (Artifacts.ofTable table).scope
        [labelDefinition table, usageDefinition table, compatibilityDefinition table]
        "getUsage" [c] = some (.usage ((Artifacts.ofTable table).usageOf c c.isCommand)) := by
  have hfunction : [labelDefinition table, usageDefinition table,
      compatibilityDefinition table].find? (·.name = "getUsage") =
        some (usageDefinition table) := rfl
  have hbody : execBlock (Artifacts.ofTable table).scope [("type", .code c)]
      (usageDefinition table).body =
        some (.returned (.usage ((Artifacts.ofTable table).usageOf c c.isCommand))) := by
    rw [usageDefinition, execBlock_plain]
    exact exec_usageFunction h c
  exact call_eq_some hfunction rfl hbody rfl

/-- A call of `isCompatible` gives back the verdict on a consumer and a producer. -/
theorem call_isCompatible (dst src : Code) :
    call (Artifacts.ofTable table).scope
        [labelDefinition table, usageDefinition table, compatibilityDefinition table]
        "isCompatible" [dst, src] =
      some (.truth ((Artifacts.ofTable table).check dst src).compatible) := by
  have hfunction : [labelDefinition table, usageDefinition table,
      compatibilityDefinition table].find? (·.name = "isCompatible") =
        some (compatibilityDefinition table) := rfl
  have hswitches : ∀ s ∈ table.compatibility.switchCategories, table.Declares s := by
    intro s hs
    obtain ⟨name, -, hname⟩ := List.mem_filterMap.mp hs
    exact CodeTable.declares_categorySymbol hname
  have hencoder : ∀ s ∈ table.compatibility.encoderCategory, table.Declares s :=
    fun s hs => CodeTable.declares_categorySymbol hs
  have hbody : execBlock (Artifacts.ofTable table).scope
      [("dstType", .code dst), ("srcType", .code src)] (compatibilityDefinition table).body =
        some (.returned (.truth ((Artifacts.ofTable table).check dst src).compatible)) := by
    rw [compatibilityDefinition, execBlock_plain]
    exact exec_compatibilityFunction (fun s => code?_of_declares h)
      (fun s => CodeTable.declares_of_flag) CodeTable.declares_root hswitches hencoder
      (madeOf_table_descent h) dst src
  exact call_eq_some hfunction rfl hbody rfl

end Allocated

/-- The source of the functions is one of the C++ files. -/
theorem mem_cppFiles {artifacts : Artifacts} {files : List OutputFile}
    (h : artifacts.render .cpp = .ok files) :
    ⟨"functions.generated.cpp", functionsSource artifacts⟩ ∈ files := by
  rw [Artifacts.render, Artifacts.cppFiles] at h
  split at h
  · cases h
  · obtain rfl := Except.ok.inj h
    simp

/-- **The generated label and usage functions answer what the artifacts answer.**  Where a schema is
accepted and rendered, the source of the functions can be read, and with the enumerations of the
taxonomy the calls for every code end in a `return`: of the code's label, or of an empty text if
there is none, and of the usage that its command flag selects. -/
theorem generated_label_and_usage {schema : Schema} {table : CodeTable} {files : List OutputFile}
    (h : allocate schema = .ok table) (hfiles : (Artifacts.ofTable table).render .cpp = .ok files) :
    ∃ source functions, ⟨"functions.generated.cpp", source⟩ ∈ files ∧
      readSource source = some functions ∧ ∀ c,
        call (Artifacts.ofTable table).scope functions "getTypeLabel" [c] =
            some (labelResult ((Artifacts.ofTable table).label? c)) ∧
          call (Artifacts.ofTable table).scope functions "getUsage" [c] =
            some (.usage ((Artifacts.ofTable table).usageOf c c.isCommand)) := by
  refine ⟨_, _, mem_cppFiles hfiles, readSource_functionsSource h, fun c => ?_⟩
  exact ⟨call_getTypeLabel h c, call_getUsage h c⟩

/-- A command of the fan, and one of the light, whose usage is a toggle. -/
theorem generated_sample_label_and_usage : allocate Schema.sample = .ok Schema.sample.table ∧
    ∃ source functions, readSource source = some functions ∧
      call (Artifacts.ofTable Schema.sample.table).scope functions "getTypeLabel" [⟨0x20a9⟩] =
        some (.text "Fan") ∧
      call (Artifacts.ofTable Schema.sample.table).scope functions "getUsage" [⟨0x20a5⟩] =
        some (.usage "OFF_ON_TOGGLE") := by
  have hfew : ¬maxUsages < (Artifacts.ofTable Schema.sample.table).usages.length := by
    decide +kernel
  obtain ⟨files, hrender⟩ :
      ∃ files, (Artifacts.ofTable Schema.sample.table).render .cpp = .ok files := by
    rw [Artifacts.render, Artifacts.cppFiles, if_neg hfew]
    exact ⟨_, rfl⟩
  obtain ⟨source, functions, -, hread, hcalls⟩ := generated_label_and_usage allocate_sample hrender
  have hlabel : (Artifacts.ofTable Schema.sample.table).label? ⟨0x20a9⟩ = some "Fan" := by decide
  have husage : (Artifacts.ofTable Schema.sample.table).usageOf ⟨0x20a5⟩ true = "OFF_ON_TOGGLE" := by
    decide
  refine ⟨allocate_sample, source, functions, hread, ?_, ?_⟩
  · rw [(hcalls ⟨0x20a9⟩).1, hlabel]
    rfl
  · rw [(hcalls ⟨0x20a5⟩).2]
    exact congrArg (fun usage => some (Result.usage usage)) husage

/-- **The generated wiring function gives the verdict of the rules.**  Where a schema is accepted,
the source of the functions, which is one of the C++ files, can be read, and with the enumerations
of the taxonomy a call for every consumer and every producer ends in a `return` of whether they are
compatible. -/
theorem generated_compatibility {schema : Schema} {table : CodeTable}
    (h : allocate schema = .ok table) :
    (∀ files, (Artifacts.ofTable table).render .cpp = .ok files →
        ⟨"functions.generated.cpp", functionsSource (.ofTable table)⟩ ∈ files) ∧
      ∃ functions, readSource (functionsSource (.ofTable table)) = some functions ∧
        ∀ dst src, call (Artifacts.ofTable table).scope functions "isCompatible" [dst, src] =
          some (.truth ((Artifacts.ofTable table).check dst src).compatible) :=
  ⟨fun _ => mem_cppFiles, _, readSource_functionsSource h, call_isCompatible h⟩

/-- A rotary encoder drives a consumer of its own type, and a producer without a direction drives
nothing. -/
theorem generated_sample_compatibility : allocate Schema.sample = .ok Schema.sample.table ∧
    ∃ functions, readSource (functionsSource (.ofTable Schema.sample.table)) = some functions ∧
      call (Artifacts.ofTable Schema.sample.table).scope functions "isCompatible"
        [⟨0x8140⟩, ⟨0x4140⟩] = some (.truth true) ∧
      call (Artifacts.ofTable Schema.sample.table).scope functions "isCompatible"
        [⟨0x8140⟩, ⟨0x0140⟩] = some (.truth false) := by
  obtain ⟨-, functions, hread, hcalls⟩ := generated_compatibility allocate_sample
  have haccepts : ((Artifacts.ofTable Schema.sample.table).check ⟨0x8140⟩ ⟨0x4140⟩).compatible =
      true := by decide
  have hrefuses : ((Artifacts.ofTable Schema.sample.table).check ⟨0x8140⟩ ⟨0x0140⟩).compatible =
      false := by decide
  refine ⟨allocate_sample, functions, hread, ?_, ?_⟩
  · rw [hcalls, haccepts]
  · rw [hcalls, hrefuses]

end PlugTaxonomy.Cpp
