import PlugTaxonomy.Proofs.Json.Grammar
import PlugTaxonomy.Proofs.Json.Object
import PlugTaxonomy.Proofs.Schema.RoundTrip
import Mathlib.Data.List.Nodup

/-!
# The texts that are schemas

A text is read as a schema just if it is a JSON object with the fields of a schema, each once.

* `typeShape`, `levelShape`, `schemaShape` — the fields of types, levels and schemas;
* `typeOf_object_eq_ok_iff`, `childrenOf_object_eq_ok_iff` — the objects that are types and levels;
* `Schema.run_object_iff` — the width of the type field is looked at as it is met, and comes once;
* `Schema.read_eq_ok_iff` — the texts that are schemas.
-/

namespace PlugTaxonomy

open JsonValue (valuesAt memberTokens moreMemberTokens memberDepths)
open ObjectShape (nothing)

/-! ### Types -/

/-- What is read for a field of a type. -/
def TypeField.Content : TypeField → Type
  | .name | .label | .description => String
  | .flags => Flags
  | .usage => Option String
  | .children => Option DeclaredLevel

/-- How the value of a field of a type is read. -/
def TypeField.contentOf : (field : TypeField) → JsonValue → Except Mismatch field.Content
  | .name => Shape.text
  | .flags => TypeFields.flagsOf
  | .label => Shape.text
  | .usage => Shape.optionalText
  | .description => Shape.text
  | .children => childrenOf

theorem TypeField.mem_all (field : TypeField) : field ∈ all := by
  cases field <;> decide

theorem TypeField.key_injective : Function.Injective key :=
  fun _ _ => List.inj_on_of_nodup_map (by decide : (all.map key).Nodup) (mem_all _) (mem_all _)

/-- The fields of a type.  A type has no other members. -/
@[reducible] def typeShape : ObjectShape where
  Field := TypeField
  Content := TypeField.Content
  key := TypeField.key
  key_injective := TypeField.key_injective
  read := TypeField.contentOf
  isOpen := False

namespace TypeFields

/-- What has been read of a type, field by field. -/
def found : TypeFields ≃ typeShape.Found where
  toFun fields
    | .name => fields.name
    | .flags => fields.flags
    | .label => fields.label
    | .usage => fields.usage
    | .description => fields.description
    | .children => fields.children
  invFun found :=
    ⟨found .name, found .flags, found .label, found .usage, found .description, found .children⟩
  left_inv _ := rfl
  right_inv found := by
    funext field
    cases field <;> rfl

theorem found_empty : found .empty = nothing := by
  funext field
  cases field <;> rfl

/-- A field is filled with what its value is read as. -/
theorem read_eq_map (fields : TypeFields) (field : TypeField) (value : JsonValue) :
    fields.read value field = (field.contentOf value).map fun content =>
      found.symm (Function.update (found fields) field (some content)) := by
  cases field with
  | name | label | description =>
    show (Shape.text value >>= fun _ => _) = (Shape.text value).map _
    cases Shape.text value <;> rfl
  | flags =>
    show (flagsOf value >>= fun _ => _) = (flagsOf value).map _
    cases flagsOf value <;> rfl
  | usage =>
    show (Shape.optionalText value >>= fun _ => _) = (Shape.optionalText value).map _
    cases Shape.optionalText value <;> rfl
  | children =>
    show (childrenOf value >>= fun _ => _) = (childrenOf value).map _
    cases childrenOf value <;> rfl

/-- Types are read member by member. -/
def reader : ObjectReader typeShape TypeFields where
  found := found
  step := readMember
  step_field fields field value := by
    rw [← read_eq_map]
    cases field <;> rfl
  step_other fields member next hkeys := by
    have hnone : TypeField.all.find? (·.key = member.1) = none :=
      List.find?_eq_none.mpr fun field _ hfield => hkeys field (of_decide_eq_true hfield)
    simp [readMember, TypeField.named, hnone, bind, Except.bind]

end TypeFields

theorem fieldsOf_eq_ok_iff {members : List (String × JsonValue)} {fields : TypeFields} :
    fieldsOf .empty members = .ok fields ↔ typeShape.Adds nothing members fields.found := by
  rw [fieldsOf_eq_foldlM, ← TypeFields.found_empty]
  exact TypeFields.reader.foldlM_eq_ok_iff

/-- **The objects that are types** have the fields of a type, each at most once, and nothing
else. -/
theorem typeOf_object_eq_ok_iff {members : List (String × JsonValue)} {type : TypeNode} :
    typeOf (.object members) = .ok type ↔
      ∃ found, typeShape.Adds nothing members found ∧
        (TypeFields.found.symm found).ofObject = .ok type := by
  rw [typeOf]
  constructor
  · intro h
    obtain ⟨fields, hfields, h⟩ := ok_of_bind h
    exact ⟨fields.found, fieldsOf_eq_ok_iff.mp hfields, h⟩
  · rintro ⟨found, hfound, h⟩
    obtain ⟨fields, rfl⟩ := TypeFields.found.surjective found
    rw [fieldsOf_eq_ok_iff.mpr hfound]
    exact h

/-! ### Levels -/

/-- The fields of a level. -/
inductive LevelField where
  | bitCount
  | types
  deriving DecidableEq, Repr

namespace LevelField

/-- All fields. -/
def all : List LevelField := [bitCount, types]

/-- The key of a field. -/
def key : LevelField → String
  | bitCount => "bit_count"
  | types => "types"

/-- What is read for a field of a level. -/
def Content : LevelField → Type
  | bitCount => UInt32
  | types => List TypeNode

/-- How the value of a field of a level is read. -/
def contentOf : (field : LevelField) → JsonValue → Except Mismatch field.Content
  | bitCount => Shape.word
  | types => typesOf

theorem mem_all (field : LevelField) : field ∈ all := by
  cases field <;> decide

theorem key_injective : Function.Injective key :=
  fun _ _ => List.inj_on_of_nodup_map (by decide : (all.map key).Nodup) (mem_all _) (mem_all _)

end LevelField

/-- The fields of a level.  Other members are left aside. -/
@[reducible] def levelShape : ObjectShape where
  Field := LevelField
  Content := LevelField.Content
  key := LevelField.key
  key_injective := LevelField.key_injective
  read := LevelField.contentOf
  isOpen := True

namespace LevelFields

/-- What has been read of a level, field by field. -/
def found : LevelFields ≃ levelShape.Found where
  toFun fields
    | .bitCount => fields.bitCount
    | .types => fields.types
  invFun found := ⟨found .bitCount, found .types⟩
  left_inv _ := rfl
  right_inv found := by
    funext field
    cases field <;> rfl

theorem found_empty : found .empty = nothing := by
  funext field
  cases field <;> rfl

/-- Levels are read member by member. -/
def reader : ObjectReader levelShape LevelFields where
  found := found
  step := readMember
  step_field fields field value := by
    obtain ⟨bitCount, types⟩ := fields
    cases field with
    | bitCount =>
      show (if bitCount.isSome = true then _ else _) = ite _ _ ((Shape.word value).map _)
      cases bitCount <;> cases Shape.word value <;> rfl
    | types =>
      show (if types.isSome = true then _ else _) = ite _ _ ((typesOf value).map _)
      cases types <;> cases typesOf value <;> rfl
  step_other fields member next hkeys := by
    have hbits : member.1 ≠ "bit_count" := fun h => hkeys .bitCount h.symm
    have htypes : member.1 ≠ "types" := fun h => hkeys .types h.symm
    rw [readMember, if_neg hbits, if_neg htypes]
    exact ⟨fun h => ⟨trivial, (Except.ok.inj h).symm⟩, fun h => congrArg Except.ok h.2.symm⟩

end LevelFields

/-- A level of which everything has been read. -/
def DeclaredLevel.fields (level : DeclaredLevel) : LevelFields :=
  ⟨level.1, level.2⟩

theorem LevelFields.ofObject_eq_ok_iff {fields : LevelFields} {level : DeclaredLevel} :
    fields.ofObject = .ok level ↔ fields = level.fields := by
  obtain ⟨bitCount, types⟩ := fields
  obtain ⟨bits, others⟩ := level
  cases bitCount <;> cases types <;> simp [ofObject, DeclaredLevel.fields]

/-- The members of a level have each of its fields once. -/
theorem levelFieldsOf_eq_ok_iff {members : List (String × JsonValue)} {level : DeclaredLevel} :
    (do (← levelFieldsOf .empty members).ofObject) = .ok level ↔
      levelShape.Adds nothing members level.fields.found := by
  have hread {fields : LevelFields} : levelFieldsOf .empty members = .ok fields ↔
      levelShape.Adds nothing members fields.found := by
    rw [levelFieldsOf_eq_foldlM, ← LevelFields.found_empty]
    exact LevelFields.reader.foldlM_eq_ok_iff
  constructor
  · intro h
    obtain ⟨fields, hfields, h⟩ := ok_of_bind h
    rw [← LevelFields.ofObject_eq_ok_iff.mp h]
    exact hread.mp hfields
  · intro h
    rw [hread.mpr h]
    exact LevelFields.ofObject_eq_ok_iff.mpr rfl

/-- **The objects that are levels** have the fields of a level, each once. -/
theorem childrenOf_object_eq_ok_iff {members : List (String × JsonValue)}
    {found : Option DeclaredLevel} :
    childrenOf (.object members) = .ok found ↔
      ∃ level, found = some level ∧ levelShape.Adds nothing members level.fields.found := by
  have hchildren : childrenOf (.object members) =
      (do (← levelFieldsOf .empty members).ofObject).map some := by
    rw [childrenOf]
    cases levelFieldsOf .empty members with
    | error error => rfl
    | ok fields =>
      show (fields.ofObject >>= fun level => pure (some level)) = (fields.ofObject).map some
      cases fields.ofObject <;> rfl
  rw [hchildren]
  cases h : (do (← levelFieldsOf .empty members).ofObject) with
  | error error =>
    refine ⟨nofun, ?_⟩
    rintro ⟨level, -, hlevel⟩
    rw [levelFieldsOf_eq_ok_iff.mpr hlevel] at h
    cases h
  | ok level =>
    constructor
    · intro hfound
      exact ⟨level, (Except.ok.inj hfound).symm, levelFieldsOf_eq_ok_iff.mp h⟩
    · rintro ⟨other, rfl, hother⟩
      rw [levelFieldsOf_eq_ok_iff.mpr hother] at h
      rw [Except.ok.inj h]
      rfl

/-! ### Schemas -/

namespace Schema

/-- All fields of a schema: the width of the type field, and those of the root level. -/
def allFields : List (Option LevelField) := none :: LevelField.all.map some

/-- The key of a field. -/
def fieldKey : Option LevelField → String
  | none => typeBitsKey
  | some field => field.key

theorem mem_allFields (field : Option LevelField) : field ∈ allFields := by
  rcases field with _ | field
  · exact List.mem_cons_self
  · exact List.mem_cons_of_mem _ (List.mem_map_of_mem field.mem_all)

theorem fieldKey_injective : Function.Injective fieldKey :=
  fun _ _ => List.inj_on_of_nodup_map (by decide : (allFields.map fieldKey).Nodup)
    (mem_allFields _) (mem_allFields _)

/-- The fields of a schema.  Other members are left aside. -/
@[reducible] def shape : ObjectShape where
  Field := Option LevelField
  Content
    | none => UInt32
    | some field => field.Content
  key := fieldKey
  key_injective := fieldKey_injective
  read
    | none => Shape.word
    | some field => field.contentOf
  isOpen := True

/-- The root level of a schema. -/
def root (schema : Schema) : DeclaredLevel :=
  (schema.bitCount, schema.types)

/-- A schema of which everything has been read. -/
def found (schema : Schema) : shape.Found
  | none => some schema.typeBits
  | some field => schema.root.fields.found field

theorem adds_found_iff {members : List (String × JsonValue)} {schema : Schema} :
    shape.Adds nothing members schema.found ↔
      (∃ width, valuesAt typeBitsKey members = [width] ∧
        Shape.word width = .ok schema.typeBits) ∧
      levelShape.Adds nothing members schema.root.fields.found := by
  constructor
  · rintro ⟨-, hfields⟩
    exact ⟨ReadOnce.some_iff.mp (hfields none), Or.inl trivial, fun field => hfields (some field)⟩
  · rintro ⟨hwidth, -, hfields⟩
    refine ⟨Or.inl trivial, fun field => ?_⟩
    cases field with
    | none => exact ReadOnce.some_iff.mpr hwidth
    | some field => exact hfields field

/-- A value that declares a schema is an object.  Only the first width of the type field counts. -/
theorem ofValue_eq_ok_iff {value : JsonValue} {schema : Schema} :
    ofValue value = .ok schema ↔
      ∃ members, value = .object members ∧
        (∃ width, (valuesAt typeBitsKey members).head? = some width ∧
          Shape.word width = .ok schema.typeBits) ∧
        levelShape.Adds nothing members schema.root.fields.found := by
  constructor
  · intro h
    match value with
    | .object members =>
      rw [ofValue, JsonValue.lookup_eq_head?_valuesAt] at h
      split at h
      · cases h
      · rename_i width hwidth
        obtain ⟨typeBits, hword, h⟩ := ok_of_bind h
        obtain ⟨fields, hfields, h⟩ := ok_of_bind h
        obtain ⟨level, hlevel, h⟩ := ok_of_bind h
        obtain rfl := Except.ok.inj h
        have hroot : (do (← levelFieldsOf .empty members).ofObject) = .ok level := by
          rw [hfields]
          exact hlevel
        exact ⟨members, rfl, ⟨width, hwidth, hword⟩, levelFieldsOf_eq_ok_iff.mp hroot⟩
    | .null | .boolean _ | .number _ | .string _ | .array _ => cases h
  · rintro ⟨members, rfl, ⟨width, hwidth, hword⟩, hlevel⟩
    obtain ⟨fields, hfields, hread⟩ := ok_of_bind (levelFieldsOf_eq_ok_iff.mpr hlevel)
    rw [ofValue, JsonValue.lookup_eq_head?_valuesAt, hwidth]
    simp only [hword, hfields, hread, bind, Except.bind, pure, Except.pure]
    rfl

/-! ### Objections -/

section Run

variable {read members : List (String × JsonValue)} {key : String} {value : JsonValue}
  {next : Reader}

theorem guard_onKey_eq_none_iff :
    guard.onKey [] read key = none ↔ (key = typeBitsKey → valuesAt typeBitsKey read = []) := by
  rw [JsonValue.valuesAt_eq_nil_iff]
  simp only [guard]
  grind

/-- Just the numbers that are no numbers of 32 bits are objected to. -/
theorem unsignedGuard_eq_none_iff {number : JsonNumber} :
    Shape.unsignedGuard UInt32.size "u32" (.number number) = none ↔
      ∃ width, Shape.word (.number number) = .ok width := by
  rw [Shape.word, Shape.unsigned, Found.ofValue, Shape.unsignedGuard, Token.found?,
    Option.bind_some]
  cases Shape.unsignedOf UInt32.size "u32" (.number number) with
  | error error =>
    constructor
    · intro h
      cases h
    · rintro ⟨width, hwidth⟩
      cases hwidth
  | ok width => exact ⟨fun _ => ⟨_, rfl⟩, fun _ => rfl⟩

/-- The width of the type field is looked at as soon as it is met. -/
theorem run_width (hdepth : 1 + value.depth ≤ Reader.maxDepth) :
    value.tokens.foldlM (Reader.step guard) ⟨[.object read typeBitsKey], .value⟩ = .ok next ↔
      (∃ width, Shape.word value = .ok width) ∧
        next = Reader.complete [.object read typeBitsKey] value := by
  have hguard (token : Token) : guard.onValue [.object read typeBitsKey] token =
      Shape.unsignedGuard UInt32.size "u32" token := by
    simp only [guard, if_true]
  constructor
  · intro h
    refine ⟨?_, Reader.eq_complete_of_run (by simpa using hdepth) h⟩
    rw [JsonValue.tokens.eq_def] at h
    cases value with
    | number number =>
      obtain ⟨middle, hstep, -⟩ := ok_of_bind h
      change Reader.beginValue guard _ (.number number) = _ at hstep
      rw [Reader.beginValue.eq_def, hguard] at hstep
      rw [← unsignedGuard_eq_none_iff]
      split at hstep
      · cases hstep
      · assumption
    | null | boolean _ | string _ | array _ | object _ => cases h
  · rintro ⟨hwidth, rfl⟩
    cases value with
    | number number =>
      rw [JsonValue.tokens, List.foldlM_cons]
      show (Reader.beginValue guard _ (.number number)).bind _ = _
      rw [Reader.beginValue.eq_def, hguard, unsignedGuard_eq_none_iff.mpr hwidth]
      rfl
    | null | boolean _ | string _ | array _ | object _ =>
      obtain ⟨width, hwidth⟩ := hwidth
      cases hwidth

/-- At the outermost level, a member is read if it is not a second width of the type field, nor a
width that is no number of 32 bits. -/
theorem run_member (hdepth : 1 + value.depth ≤ Reader.maxDepth) (tokens : List Token) :
    (Token.string key :: .colon :: (value.tokens ++ tokens)).foldlM (Reader.step guard)
        ⟨[], .nextKey read⟩ = .ok next ↔
      (key = typeBitsKey →
        valuesAt typeBitsKey read = [] ∧ ∃ width, Shape.word value = .ok width) ∧
      tokens.foldlM (Reader.step guard) ⟨[], .afterMember ((key, value) :: read)⟩ = .ok next := by
  cases honKey : guard.onKey [] read key with
  | some error =>
    have hrepeated : ¬(key = typeBitsKey → valuesAt typeBitsKey read = []) := by
      rw [← guard_onKey_eq_none_iff, honKey]
      exact Option.some_ne_none error
    have hstep : Reader.step guard ⟨[], .nextKey read⟩ (.string key) = .error error := by
      simp only [Reader.step, Reader.readKey, honKey, reduceCtorEq, if_false]
    rw [List.foldlM_cons, hstep]
    refine ⟨fun h => ?_, fun h => absurd (fun hkey => (h.1 hkey).1) hrepeated⟩
    cases h
  | none =>
    have hfresh := guard_onKey_eq_none_iff.mp honKey
    rw [Reader.run_key honKey, List.foldlM_append]
    by_cases hkey : key = typeBitsKey
    · subst hkey
      constructor
      · intro h
        obtain ⟨middle, hvalue, h⟩ := ok_of_bind h
        obtain ⟨hwidth, rfl⟩ := (run_width hdepth).mp hvalue
        exact ⟨fun _ => ⟨hfresh rfl, hwidth⟩, h⟩
      · rintro ⟨hwidth, h⟩
        rw [(run_width hdepth).mpr ⟨(hwidth rfl).2, rfl⟩]
        exact h
    · rw [Reader.run_tokens value (guard_isQuiet hkey read) (by simpa using hdepth)]
      exact ⟨fun h => ⟨fun heq => absurd heq hkey, h⟩, fun h => h.2⟩

/-- What the reader of schemas admits: one width of the type field at most, a number of 32 bits. -/
def Admits (read members : List (String × JsonValue)) : Prop :=
  valuesAt typeBitsKey members = [] ∨
    valuesAt typeBitsKey read = [] ∧
      ∃ value width, valuesAt typeBitsKey members = [value] ∧ Shape.word value = .ok width

theorem admits_cons :
    Admits read ((key, value) :: members) ↔
      (key = typeBitsKey →
        valuesAt typeBitsKey read = [] ∧ ∃ width, Shape.word value = .ok width) ∧
      Admits ((key, value) :: read) members := by
  simp only [Admits, JsonValue.valuesAt_cons]
  by_cases hkey : key = typeBitsKey
  · simp [hkey]
    grind
  · simp [hkey]

theorem run_moreMemberTokens_iff (hdepth : 1 + memberDepths members ≤ Reader.maxDepth) :
    (moreMemberTokens members).foldlM (Reader.step guard) ⟨[], .afterMember read⟩ = .ok next ↔
      Admits read members ∧ next = Reader.complete [] (.object (read.reverse ++ members)) := by
  induction members generalizing read with
  | nil =>
    rw [List.append_nil]
    show Except.ok _ = Except.ok next ↔ _
    exact ⟨fun h => ⟨Or.inl rfl, (Except.ok.inj h).symm⟩, fun h => congrArg Except.ok h.2.symm⟩
  | cons member members ih =>
    obtain ⟨key, value⟩ := member
    rw [memberDepths] at hdepth
    rw [moreMemberTokens, List.foldlM_cons]
    show (Token.string key :: .colon :: (value.tokens ++ moreMemberTokens members)).foldlM
      (Reader.step guard) ⟨[], .nextKey read⟩ = .ok next ↔ _
    rw [run_member (by omega), ih (by omega), admits_cons, and_assoc, List.reverse_cons,
      List.append_assoc, List.singleton_append]

theorem run_object_iff (hdepth : (JsonValue.object members).depth ≤ Reader.maxDepth) :
    (JsonValue.object members).tokens.foldlM (Reader.step guard) Reader.start = .ok next ↔
      Admits [] members ∧ next = Reader.complete [] (.object members) := by
  -- The members behind the brace are read like members behind others.
  have hmore : (JsonValue.object members).tokens.foldlM (Reader.step guard) Reader.start =
      (moreMemberTokens members).foldlM (Reader.step guard) ⟨[], .afterMember []⟩ := by
    rw [JsonValue.tokens, List.foldlM_cons]
    cases members <;> rfl
  rw [hmore]
  exact run_moreMemberTokens_iff hdepth

end Run

/-! ### Texts -/

/-- **The texts that are schemas** are those of a JSON object with the width of the type field and
the fields of the root level, each once. -/
theorem read_eq_ok_iff {text : String} {schema : Schema} :
    Schema.read text = .ok schema ↔
      ∃ members, JsonValue.read text = .ok (.object members) ∧
        shape.Adds nothing members schema.found := by
  rw [read, JsonValue.readAs_eq_ok_iff]
  constructor
  · rintro ⟨value, hscan, hvalue⟩
    obtain ⟨members, rfl, ⟨width, hhead, hword⟩, hlevel⟩ := ofValue_eq_ok_iff.mp hvalue
    have hdepth := Reader.depth_of_scan hscan
    obtain ⟨hall, hrun⟩ := JsonValue.scan_eq_ok_iff.mp hscan
    obtain ⟨hadmits, -⟩ := (run_object_iff hdepth).mp hrun
    refine ⟨members, JsonValue.read_eq_ok_iff.mpr ⟨hall, hdepth⟩,
      adds_found_iff.mpr ⟨⟨width, ?_, hword⟩, hlevel⟩⟩
    rcases hadmits with hnil | ⟨-, value, -, hvalues, -⟩
    · rw [hnil] at hhead
      cases hhead
    · rw [hvalues] at hhead ⊢
      rw [Option.some.inj hhead]
  · rintro ⟨members, hread, hadds⟩
    obtain ⟨hall, hdepth⟩ := JsonValue.read_eq_ok_iff.mp hread
    obtain ⟨⟨width, hvalues, hword⟩, hlevel⟩ := adds_found_iff.mp hadds
    have hrun := (run_object_iff hdepth).mpr ⟨Or.inr ⟨rfl, width, _, hvalues, hword⟩, rfl⟩
    refine ⟨.object members, JsonValue.scan_eq_ok_iff.mpr ⟨hall, hrun⟩,
      ofValue_eq_ok_iff.mpr ⟨members, rfl, ⟨width, ?_, hword⟩, hlevel⟩⟩
    rw [hvalues]
    rfl

end Schema

end PlugTaxonomy
