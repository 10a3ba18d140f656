import PlugTaxonomy.Proofs.Code.Numeral
import PlugTaxonomy.Proofs.CommandLine.Generate
import PlugTaxonomy.Proofs.Declared
import PlugTaxonomy.Proofs.Schema.RoundTrip

/-!
# Arguments that denote codes

An argument is the name of a constant or a numeral, and nothing on the command line says which.  No
text is both: a numeral begins with a digit or a plus sign, and no identifier does.

* `Identifier.read_eq` — identifiers are not read as codes;
* `columns`, `columns_codeLine` — the columns of the lines that list the constants;
* `Artifacts.resolveNumeralFirst` — numerals are looked at before names;
* `resolve_columns` — both columns of every listed constant denote its code, and the order of the
  two ways to understand an argument is no matter.
-/

namespace PlugTaxonomy

/-! ### Names are not read as codes -/

theorem isBlank_of_continuesIdentifier {c : Char} (h : continuesIdentifier c = true) :
    Text.isBlank c = false := by
  have hrange : 48 ≤ c.toNat ∧ c.toNat ≤ 95 := by
    have hbounds : ∀ low high : Char, low ≤ c ∧ c ≤ high →
        low.toNat ≤ c.toNat ∧ c.toNat ≤ high.toNat := fun low high h =>
      ⟨UInt32.le_iff_toNat_le.mp h.1, UInt32.le_iff_toNat_le.mp h.2⟩
    rcases (continuesIdentifier_iff c).mp h with hletter | hdigit | rfl
    · have hletter : 65 ≤ c.toNat ∧ c.toNat ≤ 90 := hbounds 'A' 'Z' hletter
      omega
    · have hdigit : 48 ≤ c.toNat ∧ c.toNat ≤ 57 := hbounds '0' '9' hdigit
      omega
    · decide
  rw [Text.isBlank, List.any_eq_false]
  intro range hmem
  have hapart : ∀ range ∈ Text.blankRanges, range.2 < 48 ∨ 95 < range.1 := by decide
  have hrangeApart := hapart range hmem
  simp only [Bool.and_eq_true, decide_eq_true_eq]
  omega

theorem Identifier.isSolid {name : String} (h : Identifier name) : Text.IsSolid name.toList := by
  have hcontinues := List.all_eq_true.mp h.continues
  obtain ⟨c, cs, hlist, -⟩ := h
  exact ⟨hlist ▸ List.cons_ne_nil c cs,
    fun d hd => isBlank_of_continuesIdentifier (hcontinues d hd)⟩

/-- A numeral begins with a plus sign or a decimal digit. -/
theorem Code.IsNumeral.head {c : Char} {cs : List Char} {n : Nat}
    (h : Code.IsNumeral (c :: cs) n) : c = '+' ∨ '0' ≤ c ∧ c ≤ '9' := by
  have hzero : '0' ≤ '0' ∧ '0' ≤ '9' := by decide
  obtain ⟨front, base, rest, hprefix, hunsigned, hcs⟩ := h
  cases hprefix with
  | lower =>
    rw [(List.cons.inj hcs).1]
    exact Or.inr hzero
  | upper =>
    rw [(List.cons.inj hcs).1]
    exact Or.inr hzero
  | decimal =>
    obtain ⟨sign, digits, rfl | rfl, hne, ⟨values, hvalues, -⟩, rfl⟩ := hunsigned
    · cases hvalues with
      | nil => exact absurd rfl hne
      | @cons _ digit _ _ hdigit _ =>
        have hall : ∀ d < 10, '0' ≤ Nat.digitChar d ∧ Nat.digitChar d ≤ '9' ∧
            (Nat.digitChar d).toUpper = Nat.digitChar d := by
          decide
        obtain ⟨hlow, hhigh, hupper⟩ := hall digit hdigit.1
        have hc : c = Nat.digitChar digit := by
          rw [(List.cons.inj hcs).1]
          rcases hdigit.2 with hdigit | hdigit
          · exact hdigit
          · exact hdigit.trans hupper
        rw [hc]
        exact Or.inr ⟨hlow, hhigh⟩
    · exact Or.inl (List.cons.inj hcs).1

/-- Identifiers are no numerals. -/
theorem Identifier.not_isNumeral {name : String} (h : Identifier name) (n : Nat) :
    ¬Code.IsNumeral name.toList n := by
  intro hnumeral
  obtain ⟨c, cs, hlist, hc, -⟩ := h
  rw [hlist] at hnumeral
  rcases hnumeral.head with rfl | hdigit
  · revert hc
    decide
  · rcases hc with hletter | rfl
    · have hbetween : 'A' ≤ '9' := Char.le_trans hletter.1 hdigit.2
      exact absurd hbetween (by decide)
    · exact absurd hdigit.2 (by decide)

/-- **Identifiers are not read as codes**, and the error quotes them in full. -/
theorem Identifier.read_eq {name : String} (h : Identifier name) :
    Code.read name = .error (.invalid name) := by
  have hnone : Code.readNumeral? name.toList = none := by
    rw [Option.eq_none_iff_forall_ne_some]
    intro n hread
    exact h.not_isNumeral n (Code.readNumeral?_eq_some_iff.mp hread).2
  rw [Code.read, h.isSolid.trim_eq, hnone]
  simp only [String.ofList_toList]

/-! ### Listed constants -/

/-- The columns of a line, which stand between blanks. -/
def columns (line : String) : List String :=
  (Text.fields ' ' line.toList).map String.ofList

theorem Text.IsSolid.not_mem_space {cs : List Char} (h : Text.IsSolid cs) : ' ' ∉ cs := by
  intro hmem
  exact absurd (h.not_blank ' ' hmem) (by decide)

/-- The line of a constant has its name in the first column and its code in the last. -/
theorem columns_codeLine {name numeral : String} (hname : Text.IsSolid name.toList)
    (hnumeral : Text.IsSolid numeral.toList) :
    columns (name ++ " = " ++ numeral) = [name, "=", numeral] := by
  have hequals : " = ".toList = [' ', '=', ' '] := rfl
  rw [columns, String.toList_append, String.toList_append, hequals, List.append_assoc,
    List.cons_append, Text.fields_append_cons, Text.fields_of_not_mem hname.not_mem_space]
  show List.map String.ofList (_ ++ Text.fields ' ' (['='] ++ ' ' :: numeral.toList)) = _
  rw [Text.fields_append_cons, Text.fields_of_not_mem hnumeral.not_mem_space]
  show [String.ofList name.toList, "=", String.ofList numeral.toList] = _
  rw [String.ofList_toList, String.ofList_toList]

/-- On a volume, the command that lists the constants writes the lines of the schema that is
selected, and does not fail. -/
theorem perform_codes {volume : Volume} {environment : Environment} {path : Option String}
    {schema : Schema} {table : CodeTable} (h : allocate schema = .ok table)
    (hschema : Schema.selected volume (path <|> environment.schemaFile?) = .ok schema) :
    let report := ((Command.codes path).perform Volume.disk environment volume).1
    report.failure = none ∧ report.output = (Artifacts.ofTable table).codeLines := by
  obtain ⟨log, hload⟩ := Artifacts.load_disk (path <|> environment.schemaFile?) volume
  have hartifacts : Artifacts.selected volume (path <|> environment.schemaFile?) =
      .ok (Artifacts.ofTable table) := by
    rw [Artifacts.selected, hschema]
    show (compile schema).mapError LoadError.allocation = _
    rw [compile, h]
    rfl
  rw [hartifacts] at hload
  rw [Command.perform, Command.inspect, Transaction.run_bind, hload]
  exact ⟨rfl, rfl⟩

/-! ### Names and numerals -/

namespace Artifacts

/-- The code that an argument denotes, numerals being looked at before names. -/
def resolveNumeralFirst (artifacts : Artifacts) (argument : String) : Except Failure Code :=
  match Code.read argument with
  | .ok code => .ok code
  | .error error =>
    match artifacts.lookup? argument with
    | some code => .ok code
    | none =>
      .error ⟨"'" ++ argument ++ "' is neither a plug type name nor a code: " ++ error.message,
        none⟩

theorem resolve_of_lookup? {artifacts : Artifacts} {argument : String} {code : Code}
    (h : artifacts.lookup? argument = some code) : artifacts.resolve argument = .ok code := by
  rw [resolve, h]

theorem resolve_of_read {artifacts : Artifacts} {argument : String} {code : Code}
    (hnone : artifacts.lookup? argument = none) (h : Code.read argument = .ok code) :
    artifacts.resolve argument = .ok code := by
  rw [resolve, hnone, h]
  rfl

/-- Where no text is both a name and a numeral, the order of the two is no matter. -/
theorem resolveNumeralFirst_eq {artifacts : Artifacts}
    (h : ∀ argument code, Code.read argument = .ok code → artifacts.lookup? argument = none)
    (argument : String) : artifacts.resolveNumeralFirst argument = artifacts.resolve argument := by
  rw [resolveNumeralFirst, resolve]
  cases hread : Code.read argument with
  | ok code =>
    rw [h argument code hread]
    rfl
  | error error =>
    cases artifacts.lookup? argument with
    | some code => rfl
    | none => rfl

end Artifacts

section Allocated

variable {schema : Schema} {table : CodeTable} (h : allocate schema = .ok table)
include h

theorem identifier_of_mem_table_enumeration {constant : Constant}
    (hconstant : constant ∈ table.enumeration) : Identifier constant.name :=
  identifier_of_mem_enumeration (levelPlaced_of_allocate h) _ (List.mem_map_of_mem hconstant)

/-- What is read as a code is the name of no constant. -/
theorem lookup?_of_read {argument : String} {code : Code} (hread : Code.read argument = .ok code) :
    (Artifacts.ofTable table).lookup? argument = none := by
  rw [Artifacts.lookup?, Option.map_eq_none_iff, List.find?_eq_none]
  intro constant hconstant hname
  rw [← of_decide_eq_true hname, (identifier_of_mem_table_enumeration h hconstant).read_eq] at hread
  cases hread

/-- **An argument is a name or a numeral, and never both.**  No constant of an accepted schema has a
name that is read as a code.  The lines that list the constants have the name of the constant and
its code as their columns, and both columns denote the code of the constant.  So it is no matter for
any argument whether names or numerals are looked at first. -/
theorem resolve_columns :
    (∀ constant ∈ table.enumeration,
      Code.read constant.name = .error (.invalid constant.name) ∧
        (Artifacts.ofTable table).resolve constant.name = .ok constant.code ∧
        (Artifacts.ofTable table).resolve constant.code.text = .ok constant.code) ∧
      (∀ volume environment path,
        Schema.selected volume (path <|> environment.schemaFile?) = .ok schema →
          let report := ((Command.codes path).perform Volume.disk environment volume).1
          report.failure = none ∧ report.output.map columns =
            table.enumeration.map fun constant => [constant.name, "=", constant.code.text]) ∧
      ∀ argument, (Artifacts.ofTable table).resolveNumeralFirst argument =
        (Artifacts.ofTable table).resolve argument := by
  refine ⟨fun constant hconstant => ⟨?_, ?_, ?_⟩, fun volume environment path hschema => ?_, ?_⟩
  · exact (identifier_of_mem_table_enumeration h hconstant).read_eq
  · exact Artifacts.resolve_of_lookup? (lookup?_eq_of_nodup (nodup_enumeration h) hconstant)
  · have hread := constant.code.read_text
    exact Artifacts.resolve_of_read (lookup?_of_read h hread) hread
  · obtain ⟨hfailure, houtput⟩ := perform_codes h hschema
    refine ⟨hfailure, ?_⟩
    rw [houtput, Artifacts.codeLines, List.map_map]
    refine List.map_congr_left fun constant hconstant => ?_
    exact columns_codeLine (identifier_of_mem_table_enumeration h hconstant).isSolid
      constant.code.isSolid_text
  · exact Artifacts.resolveNumeralFirst_eq fun _ _ hread => lookup?_of_read h hread

end Allocated

/-- A file with the text of the sample. -/
def sampleTypes : Volume where
  entries := [(["types.json"], .file Schema.sample.text.toUTF8)]
  current := []

theorem selected_sampleTypes :
    Schema.selected sampleTypes (some "types.json") = .ok Schema.sample := by
  have hresolve : sampleTypes.resolve "types.json" = .ok ["types.json"] := by decide +kernel
  have hentry : sampleTypes.entry? ["types.json"] = some (.file Schema.sample.text.toUTF8) := by rfl
  refine Schema.selected_of_readFile ?_ (Schema.read_text (by decide))
  rw [Volume.readFile, Volume.status, hresolve]
  simp only [bind, Except.bind, hentry]
  rfl

/-- A command of a type on the third level and the mask of that level have names that are joined
along the path, and both columns of their lines denote their codes. -/
theorem codes_sample : allocate Schema.sample = .ok Schema.sample.table ∧
    Schema.selected sampleTypes (some "types.json") = .ok Schema.sample ∧
    (∀ line ∈ [["BINARY_POWER_FAN_CMD_IN", "=", "0xa0a8"],
        ["BINARY_POWER_CATEGORY", "=", "0x01fc"]],
      line ∈ ((Command.codes (some "types.json")).perform Volume.disk []
        sampleTypes).1.output.map columns) ∧
    (Artifacts.ofTable Schema.sample.table).resolve "BINARY_POWER_FAN_CMD_IN" = .ok ⟨0xa0a8⟩ ∧
    (Artifacts.ofTable Schema.sample.table).resolve "0xa0a8" = .ok ⟨0xa0a8⟩ ∧
    (Artifacts.ofTable Schema.sample.table).resolve "BINARY_POWER_CATEGORY" = .ok ⟨0x01fc⟩ ∧
    (Artifacts.ofTable Schema.sample.table).resolve "0x01fc" = .ok ⟨0x01fc⟩ ∧
    (Artifacts.ofTable Schema.sample.table).resolveNumeralFirst " 0X+a0a8" =
      (Artifacts.ofTable Schema.sample.table).resolve " 0X+a0a8" := by
  have hfan : ⟨"BINARY_POWER_FAN_CMD_IN", ⟨0xa0a8⟩, none, 2⟩ ∈ Schema.sample.table.enumeration := by
    decide
  have hmask : ⟨"BINARY_POWER_CATEGORY", ⟨0x01fc⟩, none, 2⟩ ∈ Schema.sample.table.enumeration := by
    decide
  obtain ⟨hconstants, hlines, hargument⟩ := resolve_columns allocate_sample
  obtain ⟨-, hname, hnumeral⟩ := hconstants _ hfan
  obtain ⟨-, hname', hnumeral'⟩ := hconstants _ hmask
  refine ⟨allocate_sample, selected_sampleTypes, ?_, hname, hnumeral, hname', hnumeral',
    hargument _⟩
  rw [(hlines sampleTypes [] (some "types.json") selected_sampleTypes).2]
  have hcolumns : ∀ constant ∈ Schema.sample.table.enumeration,
      [constant.name, "=", constant.code.text] ∈
        Schema.sample.table.enumeration.map fun constant =>
          [constant.name, "=", constant.code.text] :=
    fun constant hconstant => List.mem_map_of_mem hconstant
  exact List.forall_mem_cons.mpr ⟨hcolumns _ hfan, List.forall_mem_singleton.mpr (hcolumns _ hmask)⟩

end PlugTaxonomy
