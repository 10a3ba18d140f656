import PlugTaxonomy.Json.Quoted

/-!
# Writing JSON

* `JsonValue.compact` — a value without any blanks;
* `JsonValue.pretty` — one item or member a line, two blanks for each container around it.
-/

namespace PlugTaxonomy

/-- The written form of a number. -/
def JsonNumber.text : JsonNumber → List Char
  | integer value => (toString value).toList
  | real value => value.text.toList

/-- The written form of a truth value. -/
def booleanText (value : Bool) : List Char :=
  if value then ['t', 'r', 'u', 'e'] else ['f', 'a', 'l', 's', 'e']

namespace JsonValue

/-! ### Without blanks -/

mutual

/-- A value without blanks. -/
def compactText : JsonValue → List Char
  | null => ['n', 'u', 'l', 'l']
  | boolean value => booleanText value
  | number value => value.text
  | string value => Quoted.encode value
  | array items => '[' :: compactItems items
  | object members => '\x7b' :: compactMembers members

/-- The items of an array up to its end. -/
def compactItems : List JsonValue → List Char
  | [] => [']']
  | item :: items => item.compactText ++ compactMoreItems items

/-- The items behind the first one up to the end. -/
def compactMoreItems : List JsonValue → List Char
  | [] => [']']
  | item :: items => ',' :: item.compactText ++ compactMoreItems items

/-- The members of an object up to its end. -/
def compactMembers : List (String × JsonValue) → List Char
  | [] => ['\x7d']
  | (key, value) :: members =>
    Quoted.encode key ++ ':' :: value.compactText ++ compactMoreMembers members

/-- The members behind the first one up to the end. -/
def compactMoreMembers : List (String × JsonValue) → List Char
  | [] => ['\x7d']
  | (key, value) :: members =>
    ',' :: Quoted.encode key ++ ':' :: value.compactText ++ compactMoreMembers members

end

/-- A value without blanks. -/
def compact (value : JsonValue) : String :=
  String.ofList value.compactText

/-! ### One item a line -/

/-- A line break and the blanks of the containers around the next line. -/
def lineBreak (depth : Nat) : List Char :=
  '\n' :: List.replicate (2 * depth) ' '

mutual

/-- A value with one item or member a line. -/
def prettyText (depth : Nat) : JsonValue → List Char
  | null => ['n', 'u', 'l', 'l']
  | boolean value => booleanText value
  | number value => value.text
  | string value => Quoted.encode value
  | array items => '[' :: prettyItems depth items
  | object members => '\x7b' :: prettyMembers depth members

/-- The items of an array up to its end. -/
def prettyItems (depth : Nat) : List JsonValue → List Char
  | [] => [']']
  | item :: items =>
    lineBreak (depth + 1) ++ item.prettyText (depth + 1) ++ prettyMoreItems depth items

/-- The items behind the first one up to the end. -/
def prettyMoreItems (depth : Nat) : List JsonValue → List Char
  | [] => lineBreak depth ++ [']']
  | item :: items =>
    ',' :: lineBreak (depth + 1) ++ item.prettyText (depth + 1) ++ prettyMoreItems depth items

/-- The members of an object up to its end. -/
def prettyMembers (depth : Nat) : List (String × JsonValue) → List Char
  | [] => ['\x7d']
  | (key, value) :: members =>
    lineBreak (depth + 1) ++ Quoted.encode key ++ ':' :: ' ' ::
      value.prettyText (depth + 1) ++ prettyMoreMembers depth members

/-- The members behind the first one up to the end. -/
def prettyMoreMembers (depth : Nat) : List (String × JsonValue) → List Char
  | [] => lineBreak depth ++ ['\x7d']
  | (key, value) :: members =>
    ',' :: lineBreak (depth + 1) ++ Quoted.encode key ++ ':' :: ' ' ::
      value.prettyText (depth + 1) ++ prettyMoreMembers depth members

end

/-- A value with one item or member a line. -/
def pretty (value : JsonValue) : String :=
  String.ofList (value.prettyText 0)

end JsonValue

end PlugTaxonomy
