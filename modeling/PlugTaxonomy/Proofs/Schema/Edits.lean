import PlugTaxonomy.Proofs.Schema.Accepted
import Mathlib.Logic.Relation

/-!
# Edited schemas

Which changes of a schema text leave the schema, and which ones are errors, depends on the place of
the change: types know all their members, while schemas and levels leave others aside.

* `Part`, `Part.Reads` — what a value stands for within a schema, and what it is read as;
* `EditedAt` — a value with the members of one of its objects changed, anywhere in the value;
* `Part.reads_member`, `Part.reads_item` — a value within another one counts for what it is read as;
* `EditedAt.reads_of_harmless`, `EditedAt.not_reads_of_harmful` — the changes that leave what is
  read, and those after which nothing is read;
* `Schema.read_of_edited` — the texts of edited schemas.
-/

namespace PlugTaxonomy

open ObjectShape (nothing)

/-! ### Parts -/

/-- What a value stands for within a schema. -/
inductive Part where
  | schema
  /-- What stands below a type. -/
  | level
  | types
  | type
  /-- A scalar, or what is left aside. -/
  | other
  deriving DecidableEq, Repr

namespace Part

/-- The keys that are known in an object. -/
def keys : Part → List String
  | schema => ["type_bits", "bit_count", "types"]
  | level => ["bit_count", "types"]
  | type => ["name", "flags", "label", "usage", "description", "children"]
  | types | other => []

/-- What the value at a key stands for. -/
def ofMember (part : Part) (key : String) : Part :=
  match part with
  | schema | level => if key = "types" then types else other
  | type => if key = "children" then level else other
  | types | other => other

/-- What an item of an array stands for, where types and levels are arrays of their fields. -/
def ofItem : Part → Nat → Part
  | types, _ => type
  | level, 1 => types
  | type, 5 => level
  | _, _ => other

/-- What a value is read as.  Of what is no part of a schema only the kind may be told. -/
def Content : Part → Type
  | schema => Schema
  | level => Option DeclaredLevel
  | types => List TypeNode
  | type => TypeNode
  | other => Found

/-- What a value is read as. -/
def Reads : (part : Part) → JsonValue → part.Content → Prop
  | schema, value, content =>
    ∃ members, value = .object members ∧ Schema.shape.Adds nothing members content.found
  | level, value, content => childrenOf value = .ok content
  | types, value, content => typesOf value = .ok content
  | type, value, content => typeOf value = .ok content
  | other, value, content => Found.ofValue value = content

/-! ### Objects -/

/-- No fields.  All members are left aside. -/
@[reducible] def noShape : ObjectShape where
  Field := Empty
  Content := nofun
  key := nofun
  key_injective := nofun
  read := nofun
  isOpen := True

/-- The fields of an object. -/
@[reducible] def shape : Part → ObjectShape
  | schema => Schema.shape
  | level => levelShape
  | type => typeShape
  | types | other => noShape

/-- What the fields of an object make. -/
def Makes : (part : Part) → part.shape.Found → part.Content → Prop
  | schema, found, content => found = content.found
  | level, found, content => ∃ level, content = some level ∧ found = level.fields.found
  | type, found, content => (TypeFields.found.symm found).ofObject = .ok content
  | types, _, _ => False
  | other, _, content => content = .map

/-- **Objects are read field by field**, whatever they stand for. -/
theorem reads_object_iff {part : Part} {members : List (String × JsonValue)}
    {content : part.Content} :
    part.Reads (.object members) content ↔
      ∃ found, part.shape.Adds nothing members found ∧ part.Makes found content := by
  cases part with
  | schema =>
    constructor
    · rintro ⟨_, hmembers, hadds⟩
      obtain rfl := JsonValue.object.inj hmembers
      exact ⟨_, hadds, rfl⟩
    · rintro ⟨_, hadds, rfl⟩
      exact ⟨members, rfl, hadds⟩
  | level =>
    refine childrenOf_object_eq_ok_iff.trans ?_
    constructor
    · rintro ⟨level, hlevel, hadds⟩
      exact ⟨_, hadds, level, hlevel, rfl⟩
    · rintro ⟨_, hadds, level, hlevel, rfl⟩
      exact ⟨level, hlevel, hadds⟩
  | type => exact typeOf_object_eq_ok_iff
  | types =>
    constructor
    · intro h
      cases h
    · rintro ⟨_, _, h⟩
      exact h.elim
  | other =>
    constructor
    · intro h
      exact ⟨nothing, ⟨Or.inl trivial, nofun⟩, h.symm⟩
    · rintro ⟨_, _, h⟩
      exact h.symm

theorem mem_keys_iff {part : Part} {key : String} :
    key ∈ part.keys ↔ ∃ field, part.shape.key field = key := by
  have hmap {α : Type} {all : List α} (keyOf : α → String) (hall : ∀ field, field ∈ all) :
      key ∈ all.map keyOf ↔ ∃ field, keyOf field = key :=
    List.mem_map.trans (exists_congr fun field => and_iff_right (hall field))
  cases part with
  | schema => exact hmap Schema.fieldKey Schema.mem_allFields
  | level => exact hmap LevelField.key LevelField.mem_all
  | type => exact hmap TypeField.key TypeField.mem_all
  | types | other => exact ⟨fun h => absurd h List.not_mem_nil, fun ⟨field, _⟩ => field.elim⟩

/-! ### Values within values -/

/-- A value that is read, and that is no container, is known by the way in which a message names
it. -/
theorem exists_reads_other {α : Type} {read : JsonValue → Except Mismatch α} {value : JsonValue}
    {content : α} (h : read value = .ok content)
    (harray : ∀ items, read (.array items) ≠ .ok content)
    (hobject : ∀ members, read (.object members) ≠ .ok content) :
    ∃ inner, other.Reads value inner ∧
      ∀ value', other.Reads value' inner → read value' = .ok content := by
  refine ⟨Found.ofValue value, rfl, fun value' hvalue' => ?_⟩
  change Found.ofValue value' = Found.ofValue value at hvalue'
  suffices heq : value' = value by rw [heq, h]
  cases value with
  | array items => exact absurd h (harray items)
  | object members => exact absurd h (hobject members)
  | null | boolean _ | number _ | string _ =>
    cases value' <;> cases hvalue'
    rfl

/-- **A field counts for what its value is read as**: as a scalar, as types or as a level. -/
theorem exists_reads_of_field {part : Part} {field : part.shape.Field} {value : JsonValue}
    {content : part.shape.Content field} (h : part.shape.read field value = .ok content) :
    ∃ inner, (part.ofMember (part.shape.key field)).Reads value inner ∧
      ∀ value', (part.ofMember (part.shape.key field)).Reads value' inner →
        part.shape.read field value' = .ok content := by
  cases part with
  | schema =>
    rcases field with _ | (_ | _)
    · exact exists_reads_other h nofun nofun
    · exact exists_reads_other h nofun nofun
    · exact ⟨content, h, fun _ => id⟩
  | level =>
    cases field with
    | bitCount => exact exists_reads_other h nofun nofun
    | types => exact ⟨content, h, fun _ => id⟩
  | type =>
    cases field with
    | children => exact ⟨content, h, fun _ => id⟩
    | _ => exact exists_reads_other h nofun nofun
  | types | other => exact field.elim

theorem ofMember_of_not_key {part : Part} {key : String}
    (h : ∀ field, part.shape.key field ≠ key) : part.ofMember key = other := by
  cases part with
  | schema => exact if_neg fun hkey => h (some .types) hkey.symm
  | level => exact if_neg fun hkey => h .types hkey.symm
  | type => exact if_neg fun hkey => h .children hkey.symm
  | types | other => rfl

theorem reads_member {part : Part} {content : part.Content}
    {front back : List (String × JsonValue)} {key : String} {value : JsonValue}
    (h : part.Reads (.object (front ++ (key, value) :: back)) content) :
    ∃ inner, (part.ofMember key).Reads value inner ∧
      ∀ value', (part.ofMember key).Reads value' inner →
        part.Reads (.object (front ++ (key, value') :: back)) content := by
  obtain ⟨found, hadds, hmakes⟩ := reads_object_iff.mp h
  by_cases hkey : ∃ field, part.shape.key field = key
  · obtain ⟨field, rfl⟩ := hkey
    obtain ⟨read, hread, hothers⟩ := hadds.member
    obtain ⟨inner, hinner, hvalues⟩ := exists_reads_of_field hread
    exact ⟨inner, hinner, fun value' hvalue' =>
      reads_object_iff.mpr ⟨found, hothers value' (hvalues value' hvalue'), hmakes⟩⟩
  · have hkeys := not_exists.mp hkey
    rw [ofMember_of_not_key hkeys]
    exact ⟨Found.ofValue value, rfl, fun value' _ =>
      reads_object_iff.mpr ⟨found, hadds.aside hkeys value', hmakes⟩⟩

/-! ### Items -/

variable {front back : List JsonValue} {value : JsonValue}

/-- A type among others counts for what it is read as. -/
theorem typesIn_item {types : List TypeNode} (h : typesIn (front ++ value :: back) = .ok types) :
    ∃ type, typeOf value = .ok type ∧
      ∀ value', typeOf value' = .ok type → typesIn (front ++ value' :: back) = .ok types := by
  induction front generalizing types with
  | nil =>
    rw [List.nil_append, typesIn] at h
    obtain ⟨type, htype, h⟩ := ok_of_bind h
    refine ⟨type, htype, fun value' hvalue' => ?_⟩
    rw [List.nil_append, typesIn, hvalue']
    exact h
  | cons first front ih =>
    rw [List.cons_append, typesIn] at h
    obtain ⟨type, htype, h⟩ := ok_of_bind h
    obtain ⟨others, hothers, h⟩ := ok_of_bind h
    obtain ⟨inner, hinner, hvalues⟩ := ih hothers
    refine ⟨inner, hinner, fun value' hvalue' => ?_⟩
    rw [List.cons_append, typesIn, htype, hvalues value' hvalue']
    exact h

/-- A field in its place counts for what it is read as. -/
theorem fieldsAt_item {fields last : TypeFields} {missing : List TypeField}
    (h : fieldsAt fields missing (front ++ value :: back) = .ok last) :
    ∃ field content, missing[front.length]? = some field ∧ field.contentOf value = .ok content ∧
      ∀ value', field.contentOf value' = .ok content →
        fieldsAt fields missing (front ++ value' :: back) = .ok last := by
  induction front generalizing fields missing with
  | nil =>
    cases missing with
    | nil => cases h
    | cons field missing =>
      rw [List.nil_append, fieldsAt_cons, TypeFields.read_eq_map] at h
      cases hcontent : field.contentOf value with
      | error error =>
        rw [hcontent] at h
        cases h
      | ok content =>
        refine ⟨field, content, rfl, hcontent, fun value' hvalue' => ?_⟩
        rw [List.nil_append, fieldsAt_cons, TypeFields.read_eq_map, hvalue', ← hcontent]
        exact h
  | cons first front ih =>
    cases missing with
    | nil => cases h
    | cons field missing =>
      rw [List.cons_append, fieldsAt_cons] at h
      obtain ⟨middle, hfirst, h⟩ := ok_of_bind h
      obtain ⟨inner, content, hinner, hcontent, hvalues⟩ := ih h
      refine ⟨inner, content, hinner, hcontent, fun value' hvalue' => ?_⟩
      rw [List.cons_append, fieldsAt_cons, hfirst]
      exact hvalues value' hvalue'

/-- A type as an array has its fields in order. -/
theorem ofItem_type {index : Nat} {field : TypeField} (h : TypeField.all[index]? = some field) :
    type.ofItem index = type.ofMember field.key := by
  match index, h with
  | 0, h | 1, h | 2, h | 3, h | 4, h | 5, h =>
    obtain rfl := Option.some.inj h
    rfl

theorem levelAt_item {content : DeclaredLevel}
    (h : levelAt (front ++ value :: back) = .ok content) :
    ∃ inner, (level.ofItem front.length).Reads value inner ∧
      ∀ value', (level.ofItem front.length).Reads value' inner →
        levelAt (front ++ value' :: back) = .ok content := by
  match front, back with
  | [], [] =>
    rw [List.nil_append, levelAt] at h
    obtain ⟨_, _, h⟩ := ok_of_bind h
    cases h
  | [], second :: others =>
    rw [List.nil_append, levelAt] at h
    obtain ⟨bits, hbits, h⟩ := ok_of_bind h
    obtain ⟨inner, hinner, hvalues⟩ := exists_reads_other hbits nofun nofun
    refine ⟨inner, hinner, fun value' hvalue' => ?_⟩
    rw [List.nil_append, levelAt, hvalues value' hvalue']
    exact h
  | [first], back =>
    rw [List.singleton_append, levelAt] at h
    obtain ⟨bits, hbits, h⟩ := ok_of_bind h
    obtain ⟨types, htypes, h⟩ := ok_of_bind h
    refine ⟨types, htypes, fun value' hvalue' => ?_⟩
    change typesOf value' = .ok types at hvalue'
    rw [List.singleton_append, levelAt, hbits, hvalue']
    exact h
  | first :: second :: front, back =>
    rw [List.cons_append, List.cons_append, levelAt] at h
    obtain ⟨bits, _, h⟩ := ok_of_bind h
    obtain ⟨types, _, h⟩ := ok_of_bind h
    rw [if_neg (by simp)] at h
    cases h

theorem reads_item {part : Part} {content : part.Content}
    (h : part.Reads (.array (front ++ value :: back)) content) :
    ∃ inner, (part.ofItem front.length).Reads value inner ∧
      ∀ value', (part.ofItem front.length).Reads value' inner →
        part.Reads (.array (front ++ value' :: back)) content := by
  cases part with
  | schema =>
    obtain ⟨_, hmembers, _⟩ := h
    cases hmembers
  | level =>
    obtain ⟨found, hfound, h⟩ := ok_of_bind h
    obtain ⟨inner, hinner, hvalues⟩ := levelAt_item hfound
    refine ⟨inner, hinner, fun value' hvalue' => ?_⟩
    show childrenOf _ = _
    rw [childrenOf, hvalues value' hvalue']
    exact h
  | types => exact typesIn_item h
  | type =>
    change typeOf _ = _ at h
    rw [typeOf] at h
    obtain ⟨fields, hfields, h⟩ := ok_of_bind h
    obtain ⟨field, read, hfield, hread, hvalues⟩ := fieldsAt_item hfields
    rw [ofItem_type hfield]
    change type.shape.read field value = .ok read at hread
    obtain ⟨inner, hinner, hothers⟩ := exists_reads_of_field hread
    refine ⟨inner, hinner, fun value' hvalue' => ?_⟩
    show typeOf _ = _
    rw [typeOf, hvalues value' (hothers value' hvalue')]
    exact h
  | other => exact ⟨Found.ofValue value, rfl, fun _ _ => h⟩

end Part

/-! ### Edits -/

/-- A change of members, given what their object stands for. -/
abbrev Edit : Type :=
  Part → List (String × JsonValue) → List (String × JsonValue) → Prop

/-- A value with the members of one of its objects changed, which may stand anywhere in it. -/
inductive EditedAt (edit : Edit) : Part → JsonValue → JsonValue → Prop where
  | here {part : Part} {members members' : List (String × JsonValue)}
      (h : edit part members members') : EditedAt edit part (.object members) (.object members')
  | member {part : Part} (front back : List (String × JsonValue)) (key : String)
      {value value' : JsonValue} (h : EditedAt edit (part.ofMember key) value value') :
      EditedAt edit part (.object (front ++ (key, value) :: back))
        (.object (front ++ (key, value') :: back))
  | item {part : Part} (front back : List JsonValue) {value value' : JsonValue}
      (h : EditedAt edit (part.ofItem front.length) value value') :
      EditedAt edit part (.array (front ++ value :: back)) (.array (front ++ value' :: back))

namespace Edit

/-- The members change their order. -/
def permuted : Edit :=
  fun _ members members' => members.Perm members'

/-- The members change their order, or one with an unknown key is added to a schema or a level. -/
inductive Harmless : Edit
  | permuted {part : Part} {members members' : List (String × JsonValue)}
      (h : members.Perm members') : Harmless part members members'
  | inserted {part : Part} (front back : List (String × JsonValue)) {key : String}
      (hpart : part = .schema ∨ part = .level) (hkey : key ∉ part.keys) (value : JsonValue) :
      Harmless part (front ++ back) (front ++ (key, value) :: back)

/-- One with an unknown key is added to a type, or one with a known key that is there already. -/
inductive Harmful : Edit
  | unknown (front back : List (String × JsonValue)) {key : String} (hkey : key ∉ Part.type.keys)
      (value : JsonValue) : Harmful .type (front ++ back) (front ++ (key, value) :: back)
  | repeated {part : Part} (front back : List (String × JsonValue)) {key : String}
      (hkey : key ∈ part.keys) (hthere : key ∈ (front ++ back).map (·.1)) (value : JsonValue) :
      Harmful part (front ++ back) (front ++ (key, value) :: back)

end Edit

namespace EditedAt

variable {part : Part} {value value' : JsonValue}

theorem mono {edit edit' : Edit}
    (hedit : ∀ part members members', edit part members members' → edit' part members members')
    (h : EditedAt edit part value value') : EditedAt edit' part value value' := by
  induction h with
  | here h => exact .here (hedit _ _ _ h)
  | member front back key _ ih => exact .member front back key ih
  | item front back _ ih => exact .item front back ih

/-- **Harmless changes leave what is read.** -/
theorem reads_of_harmless (h : EditedAt Edit.Harmless part value value') {content : part.Content}
    (hreads : part.Reads value content) : part.Reads value' content := by
  induction h with
  | @here part _ _ hedit =>
    obtain ⟨found, hadds, hmakes⟩ := Part.reads_object_iff.mp hreads
    refine Part.reads_object_iff.mpr ⟨found, ?_, hmakes⟩
    cases hedit with
    | permuted hperm => exact hadds.perm hperm
    | inserted front back hpart hkey value =>
      have hopen : part.shape.isOpen := by
        rcases hpart with rfl | rfl <;> exact trivial
      rw [Part.mem_keys_iff, not_exists] at hkey
      exact hadds.insert hopen hkey value
  | member front back key _ ih =>
    obtain ⟨inner, hinner, hvalues⟩ := Part.reads_member hreads
    exact hvalues _ (ih hinner)
  | item front back _ ih =>
    obtain ⟨inner, hinner, hvalues⟩ := Part.reads_item hreads
    exact hvalues _ (ih hinner)

/-- However many harmless changes leave what is read. -/
theorem reads_of_harmless_run
    (h : Relation.ReflTransGen (EditedAt Edit.Harmless part) value value') {content : part.Content}
    (hreads : part.Reads value content) : part.Reads value' content := by
  induction h with
  | refl => exact hreads
  | tail _ hedit ih => exact hedit.reads_of_harmless ih

/-- **Nothing is read after a harmful change.** -/
theorem not_reads_of_harmful (h : EditedAt Edit.Harmful part value value')
    (content : part.Content) : ¬part.Reads value' content := by
  induction h with
  | here hedit =>
    intro hreads
    obtain ⟨found, hadds, -⟩ := Part.reads_object_iff.mp hreads
    cases hedit with
    | unknown front back hkey value =>
      rw [Part.mem_keys_iff, not_exists] at hkey
      exact ObjectShape.not_adds_unknown id hkey hadds
    | repeated front back hkey hthere value =>
      obtain ⟨field, rfl⟩ := Part.mem_keys_iff.mp hkey
      exact ObjectShape.not_adds_repeated field hthere hadds
  | member front back key _ ih =>
    intro hreads
    obtain ⟨inner, hinner, -⟩ := Part.reads_member hreads
    exact ih inner hinner
  | item front back _ ih =>
    intro hreads
    obtain ⟨inner, hinner, -⟩ := Part.reads_item hreads
    exact ih inner hinner

end EditedAt

/-! ### Depth -/

namespace JsonValue

theorem memberDepths_perm {members members' : List (String × JsonValue)}
    (h : members.Perm members') : memberDepths members = memberDepths members' := by
  have hle {members members' : List (String × JsonValue)} (h : members.Perm members') :
      memberDepths members ≤ memberDepths members' :=
    memberDepths_le_iff.mpr fun member hmember =>
      memberDepths_le_iff.mp (Nat.le_refl _) member (h.mem_iff.mp hmember)
  exact Nat.le_antisymm (hle h) (hle h.symm)

theorem depths_append (values others : List JsonValue) :
    depths (values ++ others) = max (depths values) (depths others) := by
  induction values with
  | nil => rw [List.nil_append, depths, Nat.zero_max]
  | cons value values ih => rw [List.cons_append, depths, depths, ih, Nat.max_assoc]

end JsonValue

namespace EditedAt

variable {part : Part} {value value' : JsonValue}

/-- Members that change their order are nested as deep as before. -/
theorem depth_of_permuted (h : EditedAt Edit.permuted part value value') :
    value'.depth = value.depth := by
  induction h with
  | here h => rw [JsonValue.depth, JsonValue.depth, JsonValue.memberDepths_perm h]
  | member front back key _ ih =>
    simp only [JsonValue.depth, memberDepths_append, JsonValue.memberDepths, ih]
  | item front back _ ih =>
    simp only [JsonValue.depth, JsonValue.depths_append, JsonValue.depths, ih]

theorem depth_of_permuted_run
    (h : Relation.ReflTransGen (EditedAt Edit.permuted part) value value') :
    value'.depth = value.depth := by
  induction h with
  | refl => rfl
  | tail _ hedit ih => exact hedit.depth_of_permuted.trans ih

end EditedAt

/-! ### Texts -/

namespace Schema

open Relation (ReflTransGen)

/-- A text is a schema if it is JSON that stands for one. -/
theorem read_eq_ok_iff_reads {text : String} {schema : Schema} :
    Schema.read text = .ok schema ↔
      ∃ value, JsonValue.read text = .ok value ∧ Part.schema.Reads value schema := by
  rw [read_eq_ok_iff]
  constructor
  · rintro ⟨members, hread, hadds⟩
    exact ⟨_, hread, members, rfl, hadds⟩
  · rintro ⟨_, hread, members, rfl, hadds⟩
    exact ⟨members, hread, hadds⟩

/-- **Which edits of a schema text matter.**  In a text that is read as a schema, the members of
any objects may change their order, and members with unknown keys may be added to the schema and to
the levels below types, as long as the text is JSON that can be read: the schema stays the same.  A
text that could only be read as that value with an unknown key added to a type, or with a known key
repeated in the schema, in a type or in a level, is not read. -/
theorem read_of_edited {text : String} {schema : Schema} (h : Schema.read text = .ok schema) :
    ∃ value, JsonValue.read text = .ok value ∧
      (∀ value' text', ReflTransGen (EditedAt Edit.permuted .schema) value value' →
        Token.all text'.toList = value'.tokens → Schema.read text' = .ok schema) ∧
      (∀ value' text', ReflTransGen (EditedAt Edit.Harmless .schema) value value' →
        JsonValue.read text' = .ok value' → Schema.read text' = .ok schema) ∧
      (∀ text', (∀ value', JsonValue.read text' = .ok value' →
          EditedAt Edit.Harmful .schema value value') →
        ∃ error, Schema.read text' = .error error) := by
  obtain ⟨value, hvalue, hreads⟩ := read_eq_ok_iff_reads.mp h
  have hdepth := (JsonValue.read_eq_ok_iff.mp hvalue).2
  have hharmless : ∀ value' text', ReflTransGen (EditedAt Edit.Harmless .schema) value value' →
      JsonValue.read text' = .ok value' → Schema.read text' = .ok schema :=
    fun value' _ hedits hread =>
      read_eq_ok_iff_reads.mpr ⟨value', hread, EditedAt.reads_of_harmless_run hedits hreads⟩
  refine ⟨value, hvalue, fun value' text' hedits htokens => ?_, hharmless, fun text' hharmful => ?_⟩
  · rw [← EditedAt.depth_of_permuted_run hedits] at hdepth
    have hmono : ReflTransGen (EditedAt Edit.Harmless .schema) value value' :=
      hedits.lift id fun _ _ hedit => hedit.mono fun _ _ _ => .permuted
    exact hharmless value' text' hmono (JsonValue.read_eq_ok_iff.mpr ⟨htokens, hdepth⟩)
  · cases hread : Schema.read text' with
    | error error => exact ⟨error, rfl⟩
    | ok schema' =>
      obtain ⟨value', hvalue', hreads'⟩ := read_eq_ok_iff_reads.mp hread
      exact absurd hreads' ((hharmful value' hvalue').not_reads_of_harmful schema')

/-- The members of a schema with one type and an empty level below it, and more members in these
two. -/
def nestedMembers (inType inLevel : List (String × JsonValue)) : List (String × JsonValue) :=
  [("type_bits", .nat 4), ("bit_count", .nat 2),
    ("types", .array [.object (("name", .string "A") :: ("label", .string "a") ::
      ("children", .object (("bit_count", .nat 0) :: ("types", .array []) :: inLevel)) ::
        inType)])]

/-- The value with these members. -/
def nested (inType inLevel : List (String × JsonValue)) : JsonValue :=
  .object (nestedMembers inType inLevel)

/-- The schema of that value. -/
def nestedSchema : Schema where
  typeBits := 4
  bitCount := 2
  types := [.branch ⟨"A", .none, "a", none, ""⟩ 0 []]

/-- The members of the level change, if they change as those of a level may. -/
theorem editedAt_nested_level {edit : Edit} {inLevel : List (String × JsonValue)}
    (h : edit .level [("bit_count", .nat 0), ("types", .array [])]
      (("bit_count", .nat 0) :: ("types", .array []) :: inLevel)) :
    EditedAt edit .schema (nested [] []) (nested [] inLevel) :=
  .member [("type_bits", .nat 4), ("bit_count", .nat 2)] [] "types"
    (.item [] [] (.member [("name", .string "A"), ("label", .string "a")] [] "children" (.here h)))

theorem read_nested (inType inLevel : List (String × JsonValue))
    (htype : JsonValue.MembersUnsigned inType) (hlevel : JsonValue.MembersUnsigned inLevel)
    (hdepth : (nested inType inLevel).depth ≤ Reader.maxDepth) :
    JsonValue.read (nested inType inLevel).compact = .ok (nested inType inLevel) := by
  have hunsigned : (nested inType inLevel).IsUnsigned :=
    ⟨isUnsigned_nat 4, isUnsigned_nat 2,
      ⟨⟨trivial, trivial, ⟨isUnsigned_nat 0, trivial, hlevel⟩, htype⟩, trivial⟩, trivial⟩
  exact JsonValue.read_compact hunsigned hdepth

theorem read_of_edited_nested :
    Schema.read (nested [] []).compact = .ok nestedSchema ∧
      Schema.read (JsonValue.object (nestedMembers [] []).reverse).compact = .ok nestedSchema ∧
      Schema.read (nested [] [("note", .null)]).compact = .ok nestedSchema ∧
      (∃ error, Schema.read (nested [("note", .null)] []).compact = .error error) ∧
      ∃ error, Schema.read (nested [] [("types", .array [])]).compact = .error error := by
  have h : Schema.read (nested [] []).compact = .ok nestedSchema := by decide +kernel
  obtain ⟨value, hvalue, hpermuted, hharmless, hharmful⟩ := read_of_edited h
  rw [read_nested [] [] trivial trivial (by decide)] at hvalue
  obtain rfl := Except.ok.inj hvalue
  refine ⟨h, ?_, ?_, ?_, ?_⟩
  · refine hpermuted _ _ (.single (.here (List.reverse_perm _).symm)) ?_
    decide +kernel
  · refine hharmless _ _ (.single (editedAt_nested_level ?_))
      (read_nested [] _ trivial ⟨trivial, trivial⟩ (by decide))
    exact .inserted [("bit_count", .nat 0), ("types", .array [])] [] (Or.inr rfl) (by decide) _
  · refine hharmful _ fun value' hvalue' => ?_
    rw [read_nested [("note", .null)] [] ⟨trivial, trivial⟩ trivial (by decide)] at hvalue'
    rw [← Except.ok.inj hvalue']
    exact .member [("type_bits", .nat 4), ("bit_count", .nat 2)] [] "types" (.item [] [] (.here
      (.unknown [("name", .string "A"), ("label", .string "a"),
        ("children", .object [("bit_count", .nat 0), ("types", .array [])])] [] (by decide) .null)))
  · refine hharmful _ fun value' hvalue' => ?_
    rw [read_nested [] [("types", .array [])] trivial ⟨trivial, trivial⟩ (by decide)] at hvalue'
    rw [← Except.ok.inj hvalue']
    exact editedAt_nested_level
      (.repeated [("bit_count", .nat 0), ("types", .array [])] [] (by decide) (by decide) _)

end Schema

end PlugTaxonomy
