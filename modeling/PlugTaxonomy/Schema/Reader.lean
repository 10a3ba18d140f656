import PlugTaxonomy.Json.Shape
import PlugTaxonomy.Schema.Basic

/-!
# Reading schemas

A schema file is a JSON object with the width of the type field and the members of the root
level.  Types and levels are objects, or arrays of their fields in order.

* `TypeField`, `TypeFields` — the fields of a type, and those that have been read;
* `typeOf`, `levelOf` — the type and the level that a value declares;
* `Schema.ofValue` — the schema that a value declares;
* `Schema.read` — the schema of a text.

The width of the type field is looked at as soon as it is met, so an error in it comes before
any error in the rest of the text.  All else has to be JSON first.
-/

namespace PlugTaxonomy

/-! ### Fields of a type -/

/-- The fields of a type, in the order in which they are declared. -/
inductive TypeField where
  | name
  | flags
  | label
  | usage
  | description
  | children
  deriving DecidableEq, Repr

namespace TypeField

/-- All fields in order. -/
def all : List TypeField := [name, flags, label, usage, description, children]

/-- The key of a field. -/
def key : TypeField → String
  | name => "name"
  | flags => "flags"
  | label => "label"
  | usage => "usage"
  | description => "description"
  | children => "children"

/-- The field with a key. -/
def named (key : String) : Except Mismatch TypeField :=
  match all.find? (·.key = key) with
  | some field => .ok field
  | none => .error (.unknownField key (all.map TypeField.key))

end TypeField

/-- A level: the width of its selector, and its types. -/
abbrev DeclaredLevel := UInt32 × List TypeNode

/-- The fields of a type that have been read. -/
structure TypeFields where
  name : Option String
  flags : Option Flags
  label : Option String
  usage : Option (Option String)
  description : Option String
  children : Option (Option DeclaredLevel)

namespace TypeFields

/-- No field has been read. -/
def empty : TypeFields := ⟨none, none, none, none, none, none⟩

/-- Whether a field has been read. -/
def has (fields : TypeFields) : TypeField → Bool
  | .name => fields.name.isSome
  | .flags => fields.flags.isSome
  | .label => fields.label.isSome
  | .usage => fields.usage.isSome
  | .description => fields.description.isSome
  | .children => fields.children.isSome

/-- The set of flags that a value denotes. -/
def flagsOf : JsonValue → Except Mismatch Flags
  | .string text => (Flags.read text).mapError .flags
  | value => .error (.invalidType (.ofValue value) "a string value of `|` separated flags")

/-- The fields with one more, read from a value.  The level below a type is read by itself. -/
def put (fields : TypeFields) (value : JsonValue) : TypeField → Except Mismatch TypeFields
  | .name => return { fields with name := some (← Shape.text value) }
  | .flags => return { fields with flags := some (← flagsOf value) }
  | .label => return { fields with label := some (← Shape.text value) }
  | .usage => return { fields with usage := some (← Shape.optionalText value) }
  | .description => return { fields with description := some (← Shape.text value) }
  | .children => return fields

/-- The fields with the level below the type, if it has one. -/
def putChildren (fields : TypeFields) (level : Option DeclaredLevel) : TypeFields :=
  { fields with children := some level }

/-- A type with a given name and label. -/
def toType (fields : TypeFields) (name label : String) : TypeNode :=
  let info : TypeInfo :=
    { name
      flags := fields.flags.getD .none
      label
      usage := fields.usage.getD none
      description := fields.description.getD "" }
  match fields.children.getD none with
  | none => .leaf info
  | some (bitCount, types) => .branch info bitCount types

/-- The type of an object with these fields. -/
def ofObject (fields : TypeFields) : Except Mismatch TypeNode :=
  match fields.name, fields.label with
  | none, _ => .error (.missingField "name")
  | some _, none => .error (.missingField "label")
  | some name, some label => .ok (fields.toType name label)

/-- The type of an array with these fields. -/
def ofArray (fields : TypeFields) : Except Mismatch TypeNode :=
  let wanted := "struct TypeNode with 6 elements"
  match fields.name, fields.label with
  | none, _ => .error (.invalidLength 0 wanted)
  | some _, none => .error (.invalidLength 2 wanted)
  | some name, some label => .ok (fields.toType name label)

end TypeFields

/-! ### Levels -/

/-- What has been read of a level. -/
structure LevelFields where
  bitCount : Option UInt32
  types : Option (List TypeNode)

namespace LevelFields

/-- Nothing has been read. -/
def empty : LevelFields := ⟨none, none⟩

/-- The level of an object with these fields. -/
def ofObject (fields : LevelFields) : Except Mismatch DeclaredLevel :=
  match fields.bitCount, fields.types with
  | none, _ => .error (.missingField "bit_count")
  | some _, none => .error (.missingField "types")
  | some bitCount, some types => .ok (bitCount, types)

end LevelFields

/-! ### Types and levels of a value -/

mutual

/-- The type that a value declares. -/
def typeOf : JsonValue → Except Mismatch TypeNode
  | .object members => do (← fieldsOf .empty members).ofObject
  | .array items => do (← fieldsAt .empty TypeField.all items).ofArray
  | value => .error (.invalidType (.ofValue value) "struct TypeNode")

/-- The fields of an object, added to those that have been read. -/
def fieldsOf (fields : TypeFields) : List (String × JsonValue) → Except Mismatch TypeFields
  | [] => .ok fields
  | (key, value) :: members => do
    let field ← TypeField.named key
    if fields.has field then throw (.duplicateField key)
    match field with
    | .children => fieldsOf (fields.putChildren (← childrenOf value)) members
    | field => fieldsOf (← fields.put value field) members

/-- The fields of an array, added to those that have been read. -/
def fieldsAt (fields : TypeFields) (missing : List TypeField) :
    List JsonValue → Except Mismatch TypeFields
  | [] => .ok fields
  | value :: values =>
    match missing with
    | [] => .error (.invalidLength (7 + values.length) "6 elements in sequence")
    | .children :: missing => do
      fieldsAt (fields.putChildren (← childrenOf value)) missing values
    | field :: missing => do fieldsAt (← fields.put value field) missing values

/-- The level below a type, or none. -/
def childrenOf : JsonValue → Except Mismatch (Option DeclaredLevel)
  | .null => .ok none
  | .object members => do return some (← (← levelFieldsOf .empty members).ofObject)
  | .array items => do return some (← levelAt items)
  | value => .error (.invalidType (.ofValue value) "struct Level")

/-- The fields of a level, added to those that have been read.  Other members are left
aside. -/
def levelFieldsOf (fields : LevelFields) :
    List (String × JsonValue) → Except Mismatch LevelFields
  | [] => .ok fields
  | (key, value) :: members => do
    if key = "bit_count" then
      if fields.bitCount.isSome then throw (.duplicateField key)
      levelFieldsOf { fields with bitCount := some (← Shape.word value) } members
    else if key = "types" then
      if fields.types.isSome then throw (.duplicateField key)
      levelFieldsOf { fields with types := some (← typesOf value) } members
    else levelFieldsOf fields members

/-- The level of an array. -/
def levelAt : List JsonValue → Except Mismatch DeclaredLevel
  | [] => .error (.invalidLength 0 "struct Level with 2 elements")
  | [bitCount] => do
    let _ ← Shape.word bitCount
    .error (.invalidLength 1 "struct Level with 2 elements")
  | bitCount :: types :: others => do
    let bitCount ← Shape.word bitCount
    let types ← typesOf types
    if others.isEmpty then .ok (bitCount, types)
    else .error (.invalidLength (2 + others.length) "2 elements in sequence")

/-- The types of a level. -/
def typesOf : JsonValue → Except Mismatch (List TypeNode)
  | .array items => typesIn items
  | value => .error (.invalidType (.ofValue value) "a sequence")

/-- The types of a list of values. -/
def typesIn : List JsonValue → Except Mismatch (List TypeNode)
  | [] => .ok []
  | value :: values => do
    let type ← typeOf value
    let types ← typesIn values
    return type :: types

end

/-! ### Schemas -/

namespace Schema

/-- The key of the width of the type field. -/
def typeBitsKey : String := "type_bits"

/-- Objects to a text that does not begin as an object, and to a width of the type field that
is no number or comes twice. -/
def guard : Guard where
  onValue frames token :=
    match frames with
    | [] =>
      token.found?.bind fun found =>
        if found = .map then none else some (.mismatch (.invalidType found "struct Schema"))
    | [.object _ key] =>
      if key = typeBitsKey then Shape.unsignedGuard UInt32.size "u32" token else none
    | _ => none
  onKey frames members key :=
    if frames.isEmpty && key == typeBitsKey && members.any (·.1 == typeBitsKey) then
      some (.mismatch (.duplicateField key))
    else none

/-- The schema that a value declares. -/
def ofValue : JsonValue → Except Mismatch Schema
  | .object members =>
    match members.lookup typeBitsKey with
    | none => .error (.missingField typeBitsKey)
    | some width => do
      let typeBits ← Shape.word width
      let (bitCount, types) ← (← levelFieldsOf .empty members).ofObject
      return { typeBits, bitCount, types }
  | value => .error (.invalidType (.ofValue value) "struct Schema")

/-- The schema that is the whole of a text. -/
def read (text : String) : Except JsonError Schema :=
  JsonValue.readAs guard ofValue text

end Schema

end PlugTaxonomy
