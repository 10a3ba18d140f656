import PlugTaxonomy.Json.Token

/-!
# Reading JSON

The reader is a machine over tokens.  It keeps the containers that are still open, the innermost
one first, and what may come next.

* `Frame`, `Reader` — an open container around the next value, and a state of the machine;
* `Guard` — objections against values and keys at the moment at which they are met, for readers
  that know the shape they want;
* `Reader.step` — the state after one more token;
* `JsonValue.scan` — the first value of a text, and whether anything follows it;
* `JsonValue.read` — the value that is the whole of a text.

At most `maxDepth` containers may be open at a time.
-/

namespace PlugTaxonomy

/-- An open container around a value that is being read.  Items and members read already come
in reverse order. -/
inductive Frame where
  | array (items : List JsonValue)
  | object (members : List (String × JsonValue)) (key : String)

/-- What may come next, given the containers around it. -/
inductive Phase where
  /-- A value. -/
  | value
  /-- The first item of an array, or its end. -/
  | firstItem
  /-- The item behind a comma. -/
  | nextItem (items : List JsonValue)
  /-- A comma, or the end of an array. -/
  | afterItem (items : List JsonValue)
  /-- The first key of an object, or its end. -/
  | firstKey
  /-- The key behind a comma. -/
  | nextKey (members : List (String × JsonValue))
  /-- The colon behind a key. -/
  | colon (members : List (String × JsonValue)) (key : String)
  /-- A comma, or the end of an object. -/
  | afterMember (members : List (String × JsonValue))
  /-- Nothing: the value is complete, and possibly followed by something. -/
  | done (value : JsonValue) (followed : Bool)

/-- A state of the reader. -/
structure Reader where
  frames : List Frame
  phase : Phase

/-- Objections against a value, which is known by its first token, and against a key. -/
structure Guard where
  onValue : List Frame → Token → Option JsonError
  onKey : List Frame → List (String × JsonValue) → String → Option JsonError

/-- Objects to nothing. -/
def Guard.none : Guard :=
  ⟨fun _ _ => .none, fun _ _ _ => .none⟩

namespace Reader

/-- The number of containers that may be open at a time. -/
def maxDepth : Nat := 127

/-- The state before the first token. -/
def start : Reader :=
  ⟨[], .value⟩

/-- The state behind a complete value. -/
def complete (frames : List Frame) (value : JsonValue) : Reader :=
  match frames with
  | [] => ⟨[], .done value false⟩
  | .array items :: frames => ⟨frames, .afterItem (value :: items)⟩
  | .object members key :: frames => ⟨frames, .afterMember ((key, value) :: members)⟩

/-- The state within a container that has just been opened. -/
def enter (frames : List Frame) (phase : Phase) : Except JsonError Reader :=
  if frames.length < maxDepth then .ok ⟨frames, phase⟩ else .error (.malformed .tooDeep)

/-- The state behind the first token of a value. -/
def beginValue (guard : Guard) (frames : List Frame) (token : Token) : Except JsonError Reader :=
  match guard.onValue frames token with
  | some error => .error error
  | none =>
    match token with
    | .null => .ok (complete frames .null)
    | .boolean value => .ok (complete frames (.boolean value))
    | .number value => .ok (complete frames (.number value))
    | .string value => .ok (complete frames (.string value))
    | .openBracket => enter frames .firstItem
    | .openBrace => enter frames .firstKey
    | .broken error => .error (.malformed error)
    | .brokenString error => .error (.malformed error)
    | .closeBrace | .closeBracket | .colon | .comma => .error (.malformed .expectedValue)

/-- The state behind the token of a key. -/
def readKey (guard : Guard) (frames : List Frame) (members : List (String × JsonValue))
    (token : Token) : Except JsonError Reader :=
  match token with
  | .string key =>
    match guard.onKey frames members key with
    | some error => .error error
    | none => .ok ⟨frames, .colon members key⟩
  | .brokenString error => .error (.malformed error)
  | _ => .error (.malformed .keyMustBeString)

/-- The state after one more token. -/
def step (guard : Guard) (reader : Reader) (token : Token) : Except JsonError Reader :=
  let frames := reader.frames
  match reader.phase with
  | .value => beginValue guard frames token
  | .firstItem =>
    if token = .closeBracket then .ok (complete frames (.array []))
    else beginValue guard (.array [] :: frames) token
  | .nextItem items =>
    if token = .closeBracket then .error (.malformed .trailingComma)
    else beginValue guard (.array items :: frames) token
  | .afterItem items =>
    match token with
    | .comma => .ok ⟨frames, .nextItem items⟩
    | .closeBracket => .ok (complete frames (.array items.reverse))
    | _ => .error (.malformed .expectedListCommaOrEnd)
  | .firstKey =>
    if token = .closeBrace then .ok (complete frames (.object []))
    else readKey guard frames [] token
  | .nextKey members =>
    if token = .closeBrace then .error (.malformed .trailingComma)
    else readKey guard frames members token
  | .colon members key =>
    if token = .colon then .ok ⟨.object members key :: frames, .value⟩
    else .error (.malformed .expectedColon)
  | .afterMember members =>
    match token with
    | .comma => .ok ⟨frames, .nextKey members⟩
    | .closeBrace => .ok (complete frames (.object members.reverse))
    | _ => .error (.malformed .expectedObjectCommaOrEnd)
  | .done value _ => .ok ⟨frames, .done value true⟩

/-- The value that has been read when the text ends, and whether anything followed it. -/
def finish (reader : Reader) : Except JsonError (JsonValue × Bool) :=
  match reader.phase with
  | .done value followed => .ok (value, followed)
  | .value | .nextItem _ | .nextKey _ => .error (.malformed .endInValue)
  | .firstItem | .afterItem _ => .error (.malformed .endInList)
  | .firstKey | .colon _ _ | .afterMember _ => .error (.malformed .endInObject)

end Reader

namespace JsonValue

/-- The first value of a text, and whether anything follows it. -/
def scan (guard : Guard) (text : String) : Except JsonError (JsonValue × Bool) := do
  let reader ← Token.fold (Reader.step guard) Reader.start text.toList
  reader.finish

/-- The value that is the whole of a text, in the shape that a conversion wants.  That a value
has the wrong shape is reported before what follows it. -/
def readAs {α : Type} (guard : Guard) (convert : JsonValue → Except Mismatch α) (text : String) :
    Except JsonError α := do
  let (value, followed) ← scan guard text
  let converted ← (convert value).mapError .mismatch
  if followed then .error (.malformed .trailingCharacters) else .ok converted

/-- The value that is the whole of a text. -/
def read (text : String) : Except JsonError JsonValue :=
  readAs .none .ok text

end JsonValue

end PlugTaxonomy
