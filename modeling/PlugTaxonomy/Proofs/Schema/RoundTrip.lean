import PlugTaxonomy.Schema.Reader
import PlugTaxonomy.Schema.Writer
import PlugTaxonomy.Proofs.Json.RoundTrip
import PlugTaxonomy.Proofs.Outcome
import PlugTaxonomy.Proofs.Schema.Flags

/-!
# Written schemas are read again

* `fieldsOf_eq_foldlM`, `levelFieldsOf_eq_foldlM` — objects are read member by member;
* `typeOf_toJson`, `Schema.ofValue_toJson` — the value that is written for a schema declares that
  schema;
* `depth_le_of_typeOf`, `Schema.depth_le_of_ofValue` — whatever spelling a schema was read from, it
  is not written nested deeper;
* `Schema.run_tokens` — the reader of schemas objects to nothing in what is written;
* `Schema.read_text` — what is written for a schema is read as the schema;
* `Schema.read_text_of_read` — the text of a schema that was read is read as the same schema.
-/

namespace PlugTaxonomy

open JsonValue (depths memberDepths)

/-! ### Objects member by member -/

/-- The fields of a type with one more, the level below the type included. -/
def TypeFields.read (fields : TypeFields) (value : JsonValue) :
    TypeField → Except Mismatch TypeFields
  | .children => do return fields.putChildren (← childrenOf value)
  | field => fields.put value field

/-- The fields of a type with those of one more member. -/
def TypeFields.readMember (fields : TypeFields) (member : String × JsonValue) :
    Except Mismatch TypeFields := do
  let field ← TypeField.named member.1
  if fields.has field then throw (.duplicateField member.1)
  fields.read member.2 field

/-- What has been read of a level, with one more member. -/
def LevelFields.readMember (fields : LevelFields) (member : String × JsonValue) :
    Except Mismatch LevelFields := do
  if member.1 = "bit_count" then
    if fields.bitCount.isSome then throw (.duplicateField member.1)
    return { fields with bitCount := some (← Shape.word member.2) }
  else if member.1 = "types" then
    if fields.types.isSome then throw (.duplicateField member.1)
    return { fields with types := some (← typesOf member.2) }
  else return fields

theorem fieldsOf_eq_foldlM (fields : TypeFields) (members : List (String × JsonValue)) :
    fieldsOf fields members = members.foldlM TypeFields.readMember fields := by
  induction members generalizing fields with
  | nil =>
    rw [fieldsOf]
    rfl
  | cons member members ih =>
    obtain ⟨key, value⟩ := member
    rw [fieldsOf, List.foldlM_cons, TypeFields.readMember]
    simp only [ih]
    cases TypeField.named key with
    | error error => rfl
    | ok field =>
      simp only [bind, Except.bind]
      cases fields.has field with
      | true => rfl
      | false =>
        cases field with
        | children =>
          rw [TypeFields.read]
          cases childrenOf value <;> rfl
        | _ => rfl

theorem levelFieldsOf_eq_foldlM (fields : LevelFields) (members : List (String × JsonValue)) :
    levelFieldsOf fields members = members.foldlM LevelFields.readMember fields := by
  induction members generalizing fields with
  | nil =>
    rw [levelFieldsOf]
    rfl
  | cons member members ih =>
    obtain ⟨key, value⟩ := member
    rw [levelFieldsOf, List.foldlM_cons, LevelFields.readMember]
    simp only [ih]
    by_cases hbits : key = "bit_count"
    · simp only [if_pos hbits]
      cases fields.bitCount.isSome with
      | true => rfl
      | false => cases Shape.word value <;> rfl
    · by_cases htypes : key = "types"
      · simp only [if_neg hbits, if_pos htypes]
        cases fields.types.isSome with
        | true => rfl
        | false => cases typesOf value <;> rfl
      · simp only [if_neg hbits, if_neg htypes]
        rfl

/-! ### Written values are read -/

theorem unsignedOf_nat {limit n : Nat} (h : n < limit) (wanted : String) :
    Shape.unsignedOf limit wanted (.number (.integer n)) = .ok n := by
  have hfits : (0 : Int) ≤ n ∧ (n : Int) < limit := ⟨Int.natCast_nonneg n, Int.ofNat_lt.mpr h⟩
  rw [Shape.unsignedOf, if_pos hfits, Int.toNat_natCast]

theorem unsignedGuard_nat {limit n : Nat} (h : n < limit) (wanted : String) :
    Shape.unsignedGuard limit wanted (.number (.integer n)) = none := by
  simp only [Shape.unsignedGuard, Token.found?, Option.bind_some, unsignedOf_nat h]

theorem word_nat (n : UInt32) : Shape.word (.nat n.toNat) = .ok n := by
  rw [Shape.word, Shape.unsigned, JsonValue.nat, Found.ofValue, unsignedOf_nat n.toNat_lt]
  show Except.ok (UInt32.ofNat n.toNat) = _
  rw [UInt32.ofNat_toNat]

/-- The fields that are read from the members that a type has of its own. -/
def TypeInfo.fields (info : TypeInfo) : TypeFields where
  name := info.name
  flags := info.flags
  label := info.label
  usage := info.usage.map some
  description := if info.description.isEmpty then none else info.description
  children := none

theorem fieldsOf_members (info : TypeInfo) :
    fieldsOf .empty (TypeInfo.members info) = .ok info.fields := by
  obtain ⟨name, flags, label, usage, description⟩ := info
  have hname : TypeFields.readMember .empty ("name", .string name) =
      .ok ⟨name, none, none, none, none, none⟩ := rfl
  have hflags : TypeFields.readMember ⟨name, none, none, none, none, none⟩
      ("flags", .string flags.text) = .ok ⟨name, flags, none, none, none, none⟩ := by
    show ((Flags.read flags.text).mapError Mismatch.flags).bind _ = _
    rw [Flags.read_text]
    rfl
  have hlabel : TypeFields.readMember ⟨name, flags, none, none, none, none⟩
      ("label", .string label) = .ok ⟨name, flags, label, none, none, none⟩ := rfl
  have husage : ∀ usage : String, TypeFields.readMember ⟨name, flags, label, none, none, none⟩
      ("usage", .string usage) = .ok ⟨name, flags, label, some usage, none, none⟩ :=
    fun _ => rfl
  have hdescription : ∀ usage, TypeFields.readMember ⟨name, flags, label, usage, none, none⟩
      ("description", .string description) =
        .ok ⟨name, flags, label, usage, description, none⟩ :=
    fun _ => rfl
  rw [fieldsOf_eq_foldlM, TypeInfo.members, TypeInfo.fields]
  simp only [List.foldlM_append, List.foldlM_cons, hname, hflags, hlabel, bind, Except.bind]
  cases usage <;> cases hempty : description.isEmpty <;>
    simp [husage, hdescription, bind, Except.bind, pure, Except.pure]

/-- The fields of a type lead back to the type, whatever level stands below it. -/
theorem ofObject_fields (info : TypeInfo) (level : Option DeclaredLevel) :
    (info.fields.putChildren level).ofObject =
      .ok (match level with
        | none => .leaf info
        | some (bitCount, types) => .branch info bitCount types) := by
  obtain ⟨name, flags, label, usage, description⟩ := info
  have husage : (usage.map some).getD none = usage := by cases usage <;> rfl
  have hdescription : (if description.isEmpty = true then none else some description).getD "" =
      description := by
    split
    · rename_i hempty
      exact (String.isEmpty_iff.mp hempty).symm
    · rfl
  cases level with
  | none =>
    simp only [TypeFields.ofObject, TypeFields.putChildren, TypeInfo.fields, TypeFields.toType,
      husage, hdescription, Option.getD_some]
  | some found =>
    simp only [TypeFields.ofObject, TypeFields.putChildren, TypeInfo.fields, TypeFields.toType,
      husage, hdescription, Option.getD_some]

/-- The two members of a level are read one after the other. -/
theorem levelFieldsOf_members {width items : JsonValue} {bitCount : UInt32}
    {types : List TypeNode} (hwidth : Shape.word width = .ok bitCount)
    (hitems : typesOf items = .ok types) :
    levelFieldsOf .empty [("bit_count", width), ("types", items)] = .ok ⟨bitCount, types⟩ := by
  have hbits : LevelFields.readMember .empty ("bit_count", width) = .ok ⟨bitCount, none⟩ := by
    simp [LevelFields.readMember, LevelFields.empty, hwidth, bind, Except.bind, pure, Except.pure]
  have htypes : LevelFields.readMember ⟨bitCount, none⟩ ("types", items) =
      .ok ⟨bitCount, types⟩ := by
    simp [LevelFields.readMember, hitems, bind, Except.bind, pure, Except.pure]
  simp only [levelFieldsOf_eq_foldlM, List.foldlM_cons, List.foldlM_nil, hbits, htypes, bind,
    Except.bind, pure, Except.pure]

/-- A type with a level below it is read from the members of its own and that level. -/
theorem typeOf_members (info : TypeInfo) {below : JsonValue} {level : Option DeclaredLevel}
    (hlevel : childrenOf below = .ok level) :
    typeOf (.object (TypeInfo.members info ++ [("children", below)])) =
      (info.fields.putChildren level).ofObject := by
  have hchildren : info.fields.readMember ("children", below) =
      .ok (info.fields.putChildren level) := by
    have hnamed : TypeField.named "children" = .ok .children := rfl
    have hfree : info.fields.has .children = false := rfl
    simp only [TypeFields.readMember, hnamed, hfree, TypeFields.read, hlevel, bind, Except.bind,
      pure, Except.pure, Bool.false_eq_true, if_false]
  rw [typeOf, fieldsOf_eq_foldlM, List.foldlM_append, ← fieldsOf_eq_foldlM, fieldsOf_members]
  simp only [List.foldlM_cons, List.foldlM_nil, hchildren, bind, Except.bind, pure, Except.pure]

mutual

/-- **Written types are read.**  The value that is written for a type declares that type. -/
theorem typeOf_toJson (type : TypeNode) : typeOf type.toJson = .ok type := by
  cases type with
  | leaf info =>
    rw [TypeNode.toJson, typeOf, fieldsOf_members]
    exact ofObject_fields info none
  | branch info bitCount types =>
    have htypes : typesOf (.array (TypeNode.toJsons types)) = .ok types := by
      rw [typesOf]
      exact typesIn_toJsons types
    have hlevel : childrenOf (.object [("bit_count", .nat bitCount.toNat),
        ("types", .array (TypeNode.toJsons types))]) = .ok (some (bitCount, types)) := by
      rw [childrenOf, levelFieldsOf_members (word_nat bitCount) htypes]
      rfl
    rw [TypeNode.toJson, typeOf_members info hlevel]
    exact ofObject_fields info (some (bitCount, types))

/-- The values that are written for some types declare those types. -/
theorem typesIn_toJsons (types : List TypeNode) : typesIn (TypeNode.toJsons types) = .ok types := by
  cases types with
  | nil =>
    rw [TypeNode.toJsons, typesIn]
  | cons type types =>
    rw [TypeNode.toJsons, typesIn, typeOf_toJson type, typesIn_toJsons types]
    rfl

end

/-- The members of a schema are read, the width of the type field apart from its root level. -/
theorem Schema.ofValue_members {first width items : JsonValue} {schema : Schema}
    (hfirst : Shape.word first = .ok schema.typeBits)
    (hwidth : Shape.word width = .ok schema.bitCount) (hitems : typesOf items = .ok schema.types) :
    Schema.ofValue (.object [("type_bits", first), ("bit_count", width), ("types", items)]) =
      .ok schema := by
  have hlookup : List.lookup typeBitsKey
      [("type_bits", first), ("bit_count", width), ("types", items)] = some first := by
    rw [List.lookup_cons, show (typeBitsKey == "type_bits") = true from rfl]
  have hlevel : levelFieldsOf .empty
      [("type_bits", first), ("bit_count", width), ("types", items)] =
        .ok ⟨schema.bitCount, schema.types⟩ := by
    rw [levelFieldsOf, if_neg (by decide), if_neg (by decide)]
    exact levelFieldsOf_members hwidth hitems
  rw [ofValue, hlookup, hlevel]
  simp only [hfirst, LevelFields.ofObject, bind, Except.bind, pure, Except.pure]

/-- **Written schemas are read.**  The value that is written for a schema declares that schema. -/
theorem Schema.ofValue_toJson (schema : Schema) : Schema.ofValue schema.toJson = .ok schema := by
  have htypes : typesOf (.array (TypeNode.toJsons schema.types)) = .ok schema.types := by
    rw [typesOf]
    exact typesIn_toJsons schema.types
  exact ofValue_members (word_nat _) (word_nat _) htypes

/-! ### Depth of what is written -/

/-- How deep the containers of a level are nested when it is written. -/
def levelDepth : Option DeclaredLevel → Nat
  | none => 0
  | some (_, types) => 2 + depths (TypeNode.toJsons types)

/-- The level that has been read, if any. -/
def TypeFields.level (fields : TypeFields) : Option DeclaredLevel :=
  fields.children.getD none

theorem memberDepths_append (members others : List (String × JsonValue)) :
    memberDepths (members ++ others) = max (memberDepths members) (memberDepths others) := by
  induction members with
  | nil => rw [List.nil_append, memberDepths, Nat.zero_max]
  | cons member members ih => rw [List.cons_append, memberDepths, memberDepths, ih, Nat.max_assoc]

theorem memberDepths_members (info : TypeInfo) : memberDepths (TypeInfo.members info) = 0 := by
  rw [TypeInfo.members, memberDepths_append, memberDepths_append]
  cases info.usage <;> cases info.description.isEmpty <;> rfl

/-- A type is written one container deeper than the level below it. -/
theorem TypeFields.depth_toType (fields : TypeFields) (name label : String) :
    (fields.toType name label).toJson.depth = 1 + levelDepth fields.level := by
  rw [toType, level]
  cases fields.children.getD none with
  | none => simp [TypeNode.toJson, JsonValue.depth, memberDepths_members, levelDepth]
  | some level =>
    obtain ⟨bitCount, types⟩ := level
    simp only [TypeNode.toJson, JsonValue.depth, memberDepths_append, memberDepths_members,
      memberDepths, JsonValue.nat, levelDepth]
    omega

theorem TypeFields.level_putChildren (fields : TypeFields) (level : Option DeclaredLevel) :
    (fields.putChildren level).level = level :=
  rfl

/-- No field but the level below the type changes that level. -/
theorem TypeFields.level_put {fields next : TypeFields} {value : JsonValue} {field : TypeField}
    (h : fields.put value field = .ok next) : next.level = fields.level := by
  cases field <;> simp only [put] at h
  case children => rw [← Except.ok.inj h]
  all_goals
    obtain ⟨text, -, h⟩ := ok_of_bind h
    rw [← Except.ok.inj h]
    rfl

/-- One more field does not nest the type deeper than its value, if no level below it is nested
deeper than the value that declares it. -/
theorem TypeFields.levelDepth_read {fields next : TypeFields} {value : JsonValue}
    {field : TypeField}
    (hbelow : ∀ level, childrenOf value = .ok level → levelDepth level ≤ value.depth)
    (h : fields.read value field = .ok next) :
    levelDepth next.level ≤ max (levelDepth fields.level) value.depth := by
  have hput : fields.put value field = .ok next →
      levelDepth next.level ≤ max (levelDepth fields.level) value.depth := by
    intro hput
    rw [level_put hput]
    exact Nat.le_max_left _ _
  cases field
  case children =>
    obtain ⟨level, hlevel, h⟩ := ok_of_bind h
    rw [← Except.ok.inj h, level_putChildren]
    exact Nat.le_trans (hbelow level hlevel) (Nat.le_max_right _ _)
  all_goals exact hput h

theorem TypeFields.depth_of_ofObject {fields : TypeFields} {type : TypeNode}
    (h : fields.ofObject = .ok type) : type.toJson.depth = 1 + levelDepth fields.level := by
  rw [ofObject] at h
  split at h
  · cases h
  · cases h
  · rw [← Except.ok.inj h, depth_toType]

theorem TypeFields.depth_of_ofArray {fields : TypeFields} {type : TypeNode}
    (h : fields.ofArray = .ok type) : type.toJson.depth = 1 + levelDepth fields.level := by
  rw [ofArray] at h
  split at h
  · cases h
  · cases h
  · rw [← Except.ok.inj h, depth_toType]

/-- A member that is read is read as one of the fields. -/
theorem TypeFields.exists_read_of_readMember {fields next : TypeFields}
    {member : String × JsonValue} (h : fields.readMember member = .ok next) :
    ∃ field, fields.read member.2 field = .ok next := by
  obtain ⟨field, -, h⟩ := ok_of_bind h
  refine ⟨field, ?_⟩
  split at h
  · cases h
  · exact h

theorem fieldsAt_cons (fields : TypeFields) (field : TypeField) (missing : List TypeField)
    (value : JsonValue) (values : List JsonValue) :
    fieldsAt fields (field :: missing) (value :: values) =
      (fields.read value field >>= fun next => fieldsAt next missing values) := by
  cases field <;> simp only [fieldsAt, TypeFields.read]
  case children => cases childrenOf value <;> rfl

/-- How deep the containers of some types are nested when they are written as an array. -/
def typesDepth : Option (List TypeNode) → Nat
  | none => 0
  | some types => 1 + depths (TypeNode.toJsons types)

theorem LevelFields.typesDepth_readMember {fields next : LevelFields}
    {member : String × JsonValue}
    (hbelow : ∀ types, typesOf member.2 = .ok types → typesDepth types ≤ member.2.depth)
    (h : fields.readMember member = .ok next) :
    typesDepth next.types ≤ max (typesDepth fields.types) member.2.depth := by
  rw [readMember] at h
  split at h
  · split at h
    · cases h
    · obtain ⟨bitCount, -, h⟩ := ok_of_bind h
      rw [← Except.ok.inj h]
      exact Nat.le_max_left _ _
  · split at h
    · split at h
      · cases h
      · obtain ⟨types, htypes, h⟩ := ok_of_bind h
        rw [← Except.ok.inj h]
        exact Nat.le_trans (hbelow types htypes) (Nat.le_max_right _ _)
    · rw [← Except.ok.inj h]
      exact Nat.le_max_left _ _

/-- A level is written one container deeper than its types. -/
theorem LevelFields.levelDepth_of_ofObject {fields : LevelFields} {level : DeclaredLevel}
    (h : fields.ofObject = .ok level) : levelDepth level = 1 + typesDepth fields.types := by
  obtain ⟨bitCount, types⟩ := fields
  cases bitCount with
  | none => cases h
  | some bitCount =>
    cases types with
    | none => cases h
    | some types =>
      rw [← Except.ok.inj h, levelDepth, typesDepth]
      omega

mutual

/-- **No type is written deeper than it was read.** -/
theorem depth_le_of_typeOf (value : JsonValue) (type : TypeNode) (h : typeOf value = .ok type) :
    type.toJson.depth ≤ value.depth := by
  match value with
  | .object members =>
    rw [typeOf] at h
    obtain ⟨fields, hfields, h⟩ := ok_of_bind h
    have hlevel := levelDepth_le_of_fieldsOf members .empty fields hfields
    rw [TypeFields.depth_of_ofObject h, JsonValue.depth]
    simpa [TypeFields.level, TypeFields.empty, levelDepth] using hlevel
  | .array items =>
    rw [typeOf] at h
    obtain ⟨fields, hfields, h⟩ := ok_of_bind h
    have hlevel := levelDepth_le_of_fieldsAt items .empty fields TypeField.all hfields
    rw [TypeFields.depth_of_ofArray h, JsonValue.depth]
    simpa [TypeFields.level, TypeFields.empty, levelDepth] using hlevel
  | .null | .boolean _ | .number _ | .string _ => cases h

theorem levelDepth_le_of_fieldsOf (members : List (String × JsonValue)) (fields next : TypeFields)
    (h : fieldsOf fields members = .ok next) :
    levelDepth next.level ≤ max (levelDepth fields.level) (memberDepths members) := by
  match members with
  | [] =>
    rw [fieldsOf] at h
    rw [← Except.ok.inj h]
    exact Nat.le_max_left _ _
  | (key, value) :: members =>
    rw [fieldsOf_eq_foldlM, List.foldlM_cons] at h
    obtain ⟨middle, hread, h⟩ := ok_of_bind h
    rw [← fieldsOf_eq_foldlM] at h
    obtain ⟨field, hread⟩ := TypeFields.exists_read_of_readMember hread
    have hmiddle := TypeFields.levelDepth_read (levelDepth_le_of_childrenOf value) hread
    have hrest := levelDepth_le_of_fieldsOf members middle next h
    rw [memberDepths]
    omega

theorem levelDepth_le_of_fieldsAt (values : List JsonValue) (fields next : TypeFields)
    (missing : List TypeField) (h : fieldsAt fields missing values = .ok next) :
    levelDepth next.level ≤ max (levelDepth fields.level) (depths values) := by
  match values, missing with
  | [], _ =>
    rw [fieldsAt] at h
    rw [← Except.ok.inj h]
    exact Nat.le_max_left _ _
  | value :: values, [] => cases h
  | value :: values, field :: missing =>
    rw [fieldsAt_cons] at h
    obtain ⟨middle, hread, h⟩ := ok_of_bind h
    have hmiddle := TypeFields.levelDepth_read (levelDepth_le_of_childrenOf value) hread
    have hrest := levelDepth_le_of_fieldsAt values middle next missing h
    rw [depths]
    omega

theorem levelDepth_le_of_childrenOf (value : JsonValue) (level : Option DeclaredLevel)
    (h : childrenOf value = .ok level) : levelDepth level ≤ value.depth := by
  match value with
  | .null =>
    rw [childrenOf] at h
    rw [← Except.ok.inj h]
    exact Nat.le_refl _
  | .object members =>
    rw [childrenOf] at h
    obtain ⟨fields, hfields, h⟩ := ok_of_bind h
    obtain ⟨read, hread, h⟩ := ok_of_bind h
    have htypes := typesDepth_le_of_levelFieldsOf members .empty fields hfields
    rw [← Except.ok.inj h, LevelFields.levelDepth_of_ofObject hread, JsonValue.depth]
    simpa [LevelFields.empty, typesDepth] using htypes
  | .array items =>
    rw [childrenOf] at h
    obtain ⟨read, hread, h⟩ := ok_of_bind h
    rw [← Except.ok.inj h]
    exact levelDepth_le_of_levelAt items read hread
  | .boolean _ | .number _ | .string _ => cases h

theorem typesDepth_le_of_levelFieldsOf (members : List (String × JsonValue))
    (fields next : LevelFields) (h : levelFieldsOf fields members = .ok next) :
    typesDepth next.types ≤ max (typesDepth fields.types) (memberDepths members) := by
  match members with
  | [] =>
    rw [levelFieldsOf] at h
    rw [← Except.ok.inj h]
    exact Nat.le_max_left _ _
  | (key, value) :: members =>
    rw [levelFieldsOf_eq_foldlM, List.foldlM_cons] at h
    obtain ⟨middle, hread, h⟩ := ok_of_bind h
    rw [← levelFieldsOf_eq_foldlM] at h
    have hmiddle : typesDepth middle.types ≤ max (typesDepth fields.types) value.depth :=
      LevelFields.typesDepth_readMember (typesDepth_le_of_typesOf value) hread
    have hrest := typesDepth_le_of_levelFieldsOf members middle next h
    rw [memberDepths]
    omega

theorem levelDepth_le_of_levelAt (items : List JsonValue) (level : DeclaredLevel)
    (h : levelAt items = .ok level) : levelDepth level ≤ 1 + depths items := by
  match items with
  | [] => cases h
  | [bitCount] =>
    rw [levelAt] at h
    obtain ⟨_, -, h⟩ := ok_of_bind h
    cases h
  | bitCount :: types :: others =>
    rw [levelAt] at h
    obtain ⟨bits, -, h⟩ := ok_of_bind h
    obtain ⟨read, hread, h⟩ := ok_of_bind h
    have htypes := typesDepth_le_of_typesOf types read hread
    split at h
    · rw [typesDepth] at htypes
      rw [← Except.ok.inj h, levelDepth, depths, depths]
      omega
    · cases h

theorem typesDepth_le_of_typesOf (value : JsonValue) (types : List TypeNode)
    (h : typesOf value = .ok types) : typesDepth types ≤ value.depth := by
  match value with
  | .array items =>
    rw [typesOf] at h
    have hdepths := depths_le_of_typesIn items types h
    rw [typesDepth, JsonValue.depth]
    omega
  | .null | .boolean _ | .number _ | .string _ | .object _ => cases h

theorem depths_le_of_typesIn (values : List JsonValue) (types : List TypeNode)
    (h : typesIn values = .ok types) : depths (TypeNode.toJsons types) ≤ depths values := by
  match values with
  | [] =>
    rw [typesIn] at h
    rw [← Except.ok.inj h]
    exact Nat.le_refl _
  | value :: values =>
    rw [typesIn] at h
    obtain ⟨type, htype, h⟩ := ok_of_bind h
    obtain ⟨others, hothers, h⟩ := ok_of_bind h
    have hfirst := depth_le_of_typeOf value type htype
    have hrest := depths_le_of_typesIn values others hothers
    rw [← Except.ok.inj h, TypeNode.toJsons, depths, depths]
    omega

end

/-! ### Numbers of what is written -/

theorem isUnsigned_nat (n : UInt32) : (JsonValue.nat n.toNat).IsUnsigned :=
  ⟨n.toNat, Nat.lt_trans n.toNat_lt (by decide), rfl⟩

theorem membersUnsigned_append {members others : List (String × JsonValue)}
    (hmembers : JsonValue.MembersUnsigned members) (hothers : JsonValue.MembersUnsigned others) :
    JsonValue.MembersUnsigned (members ++ others) := by
  induction members with
  | nil => exact hothers
  | cons member members ih => exact ⟨hmembers.1, ih hmembers.2⟩

theorem membersUnsigned_members (info : TypeInfo) :
    JsonValue.MembersUnsigned (TypeInfo.members info) := by
  refine membersUnsigned_append (membersUnsigned_append ⟨trivial, trivial, trivial, trivial⟩ ?_) ?_
  · cases info.usage with
    | none => trivial
    | some usage => exact ⟨trivial, trivial⟩
  · cases info.description.isEmpty with
    | true => trivial
    | false => exact ⟨trivial, trivial⟩

mutual

theorem isUnsigned_toJson (type : TypeNode) : type.toJson.IsUnsigned := by
  cases type with
  | leaf info => exact membersUnsigned_members info
  | branch info bitCount types =>
    exact membersUnsigned_append (membersUnsigned_members info)
      ⟨⟨isUnsigned_nat _, areUnsigned_toJsons types, trivial⟩, trivial⟩

theorem areUnsigned_toJsons (types : List TypeNode) :
    JsonValue.AreUnsigned (TypeNode.toJsons types) := by
  cases types with
  | nil => trivial
  | cons type types => exact ⟨isUnsigned_toJson type, areUnsigned_toJsons types⟩

end

namespace Schema

theorem depth_toJson (schema : Schema) :
    schema.toJson.depth = 1 + typesDepth (some schema.types) := by
  simp only [toJson, JsonValue.depth, memberDepths, JsonValue.nat, typesDepth]
  omega

/-- **No schema is written deeper than it was read.** -/
theorem depth_le_of_ofValue {value : JsonValue} {schema : Schema}
    (h : ofValue value = .ok schema) : schema.toJson.depth ≤ value.depth := by
  match value with
  | .object members =>
    rw [ofValue] at h
    split at h
    · cases h
    · obtain ⟨typeBits, -, h⟩ := ok_of_bind h
      obtain ⟨fields, hfields, h⟩ := ok_of_bind h
      obtain ⟨⟨bitCount, types⟩, hlevel, h⟩ := ok_of_bind h
      have htypes := typesDepth_le_of_levelFieldsOf members .empty fields hfields
      have hread := LevelFields.levelDepth_of_ofObject hlevel
      simp only [LevelFields.empty, typesDepth, levelDepth] at htypes hread
      rw [← Except.ok.inj h, depth_toJson, JsonValue.depth]
      show 1 + (1 + depths (TypeNode.toJsons types)) ≤ _
      omega
  | .null | .boolean _ | .number _ | .string _ | .array _ => cases h

/-! ### Texts -/

theorem isUnsigned_toJson (schema : Schema) : schema.toJson.IsUnsigned :=
  ⟨isUnsigned_nat _, isUnsigned_nat _, areUnsigned_toJsons schema.types, trivial⟩

/-- Nothing is objected to within a member of a schema, the width of the type field apart. -/
theorem guard_isQuiet {key : String} (hkey : key ≠ typeBitsKey)
    (read : List (String × JsonValue)) : guard.IsQuiet [.object read key] := by
  intro inner
  refine ⟨fun token => ?_, fun members key => ?_⟩
  · match inner with
    | [] => exact if_neg hkey
    | [.array _] | [.object _ _] | .array _ :: _ :: _ | .object _ _ :: _ :: _ => rfl
  · cases inner <;> rfl

/-- The reader of schemas goes through the tokens of an object whose first member is the width of
the type field, and none of the others is. -/
theorem run_members {number : JsonNumber} {members : List (String × JsonValue)}
    (hnumber : Shape.unsignedGuard UInt32.size "u32" (.number number) = none)
    (hkeys : ∀ member ∈ members, member.1 ≠ typeBitsKey)
    (hdepth : 1 + memberDepths members ≤ Reader.maxDepth) :
    (JsonValue.object ((typeBitsKey, .number number) :: members)).tokens.foldlM
        (Reader.step guard) Reader.start =
      .ok (Reader.complete [] (.object ((typeBitsKey, .number number) :: members))) := by
  have hopen : Reader.step guard Reader.start .openBrace = .ok ⟨[], .firstKey⟩ := rfl
  have hkey : guard.onKey [] [] typeBitsKey = none := rfl
  have hvalue : Reader.step guard ⟨[.object [] typeBitsKey], .value⟩ (.number number) =
      .ok ⟨[], .afterMember [(typeBitsKey, .number number)]⟩ := by
    have hnone : guard.onValue [.object [] typeBitsKey] (.number number) = none := by
      show (if typeBitsKey = typeBitsKey then
        Shape.unsignedGuard UInt32.size "u32" (.number number) else none) = none
      rw [if_pos rfl, hnumber]
    show Reader.beginValue guard [.object [] typeBitsKey] (.number number) = _
    rw [Reader.beginValue.eq_def, hnone]
    rfl
  have hquiet : guard.IsQuietOn [] members := fun member hmember read =>
    ⟨by simp [guard, hkeys member hmember], guard_isQuiet (hkeys member hmember) read⟩
  rw [JsonValue.tokens, List.foldlM_cons, hopen]
  show (JsonValue.memberTokens ((typeBitsKey, .number number) :: members)).foldlM
    (Reader.step guard) ⟨[], .firstKey⟩ = _
  rw [JsonValue.memberTokens, List.foldlM_cons, Reader.step_firstKey, ← List.foldlM_cons,
    Reader.run_key hkey, List.foldlM_append, JsonValue.tokens, List.foldlM_cons, hvalue]
  exact Reader.run_moreMemberTokens members [(typeBitsKey, .number number)] hquiet
    (by rw [List.length_nil]; omega)

/-- The reader of schemas objects to nothing in what is written. -/
theorem run_tokens (schema : Schema) (h : schema.toJson.depth ≤ Reader.maxDepth) :
    schema.toJson.tokens.foldlM (Reader.step guard) Reader.start =
      .ok (Reader.complete [] schema.toJson) := by
  have hkeys : ∀ member ∈ [("bit_count", .nat schema.bitCount.toNat),
      ("types", JsonValue.array (TypeNode.toJsons schema.types))], member.1 ≠ typeBitsKey := by
    intro member hmember
    rcases List.mem_cons.mp hmember with rfl | hmember
    · exact (by decide : "bit_count" ≠ typeBitsKey)
    · rw [List.mem_singleton.mp hmember]
      exact (by decide : "types" ≠ typeBitsKey)
  refine run_members (unsignedGuard_nat schema.typeBits.toNat_lt "u32") hkeys ?_
  rw [depth_toJson, typesDepth] at h
  simp only [memberDepths, JsonValue.nat, JsonValue.depth]
  omega

/-- The text of a schema is read as the schema, unless it is nested too deep. -/
theorem read_text {schema : Schema} (h : schema.toJson.depth ≤ Reader.maxDepth) :
    Schema.read schema.text = .ok schema := by
  have hscan := Reader.scan_compact schema.isUnsigned_toJson (schema.run_tokens h)
  exact JsonValue.readAs_eq_ok_iff.mpr ⟨schema.toJson, hscan, schema.ofValue_toJson⟩

/-- **Schemas survive being written.**  The text of a schema that was read from some text, however
that one was spelled, is read as the same schema, and so is written the same way once more. -/
theorem read_text_of_read {text : String} {schema : Schema} (h : Schema.read text = .ok schema) :
    Schema.read schema.text = .ok schema ∧
      (Schema.read schema.text).map Schema.text = .ok schema.text := by
  have hread : Schema.read schema.text = .ok schema := by
    obtain ⟨value, hscan, hvalue⟩ := JsonValue.readAs_eq_ok_iff.mp h
    exact read_text (Nat.le_trans (depth_le_of_ofValue hvalue) (Reader.depth_of_scan hscan))
  refine ⟨hread, ?_⟩
  rw [hread]
  rfl

/-- A text with a type and a level as arrays, with escapes, blanks, a repeated flag, bits in
hexadecimal, null for what is left out, and a member that is left aside. -/
def spelledOddly : String :=
  "\x7b\"types\": [[\"\\u0041\\/\", \" CMD |0x41| CMD \", \"a\", null, \"\", [1,\n [" ++
    "\x7b\"label\": \"b\", \"children\": null, \"name\": \"B\"\x7d]]]], " ++
    "\"note\": [1.5], \"bit_count\": 1, \"type_bits\": 13\x7d"

/-- The schema of that text. -/
def oddSchema : Schema where
  typeBits := 13
  bitCount := 1
  types := [.branch ⟨"A/", ⟨0x41⟩, "a", none, ""⟩ 1 [.leaf ⟨"B", .none, "b", none, ""⟩]]

theorem read_text_spelledOddly :
    Schema.read spelledOddly = .ok oddSchema ∧ Schema.read oddSchema.text = .ok oddSchema ∧
      (Schema.read oddSchema.text).map Schema.text = .ok oddSchema.text := by
  have h : Schema.read spelledOddly = .ok oddSchema := by decide +kernel
  exact ⟨h, read_text_of_read h⟩

end Schema

end PlugTaxonomy
