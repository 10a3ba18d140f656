import PlugTaxonomy.Json.Error
import PlugTaxonomy.Text.Numeral

/-!
# Quoted texts in JSON

* `encode` — a text between quotes: short escapes where there are any, other control characters
  by their number, all else as it is;
* `decode` — the text that follows an opening quote, with what stands behind the closing one.

Characters beyond 16 bits may be written as two escapes, a leading and a trailing surrogate.
-/

namespace PlugTaxonomy.Quoted

/-- A character as it stands between quotes. -/
def encodeChar (c : Char) : List Char :=
  match c with
  | '"' => ['\\', '"']
  | '\\' => ['\\', '\\']
  | '\x08' => ['\\', 'b']
  | '\x0c' => ['\\', 'f']
  | '\n' => ['\\', 'n']
  | '\r' => ['\\', 'r']
  | '\t' => ['\\', 't']
  | c => if c.toNat < 0x20 then '\\' :: 'u' :: Text.hexPadded 4 c.toNat else [c]

/-- A text between quotes. -/
def encode (text : String) : List Char :=
  '"' :: text.toList.flatMap encodeChar ++ ['"']

/-- The character that a letter stands for behind a backslash. -/
def shortEscape? : Char → Option Char
  | '"' => some '"'
  | '\\' => some '\\'
  | '/' => some '/'
  | 'b' => some '\x08'
  | 'f' => some '\x0c'
  | 'n' => some '\n'
  | 'r' => some '\r'
  | 't' => some '\t'
  | _ => none

/-- Where decoding stands within an escape. -/
inductive Position where
  /-- Outside of escapes. -/
  | plain
  /-- Behind a backslash. -/
  | escape
  /-- Within the four digits of a number, possibly behind a leading surrogate. -/
  | digits (leading : Option Nat) (value missing : Nat)
  /-- Behind a leading surrogate, before the backslash of the trailing one. -/
  | surrogate (leading : Nat)
  /-- Behind the backslash of a trailing surrogate. -/
  | surrogateEscape (leading : Nat)
  deriving DecidableEq, Repr

def isLeading (value : Nat) : Bool :=
  0xd800 ≤ value && value ≤ 0xdbff

def isTrailing (value : Nat) : Bool :=
  0xdc00 ≤ value && value ≤ 0xdfff

/-- The character of two surrogates. -/
def ofSurrogates (leading trailing : Nat) : Char :=
  Char.ofNat ((leading - 0xd800) * 0x400 + (trailing - 0xdc00) + 0x10000)

/-- Whether fewer than four bytes are left of a text. -/
def isShort (cs : List Char) : Bool :=
  (String.ofList (cs.take 4)).utf8ByteSize < 4

/-- The text up to the closing quote, with what stands behind that quote.  What has been
decoded already comes in reverse order. -/
def decodeFrom : Position → List Char → List Char → Except Malformed (List Char × List Char)
  | _, _, [] => .error .endInString
  | .plain, decoded, c :: cs =>
    if c = '"' then .ok (decoded.reverse, cs)
    else if c = '\\' then decodeFrom .escape decoded cs
    else if c.toNat < 0x20 then .error .controlCharacter
    else decodeFrom .plain (c :: decoded) cs
  | .escape, decoded, c :: cs =>
    match shortEscape? c with
    | some meant => decodeFrom .plain (meant :: decoded) cs
    | none =>
      if c ≠ 'u' then .error .invalidEscape
      else if isShort cs then .error .endInString
      else decodeFrom (.digits none 0 3) decoded cs
  | .digits leading value missing, decoded, c :: cs =>
    match Text.digitValue? 16 c with
    | none => .error .invalidEscape
    | some digit =>
      let value := value * 16 + digit
      match missing, leading with
      | missing + 1, _ => decodeFrom (.digits leading value missing) decoded cs
      | 0, none =>
        if isTrailing value then .error .loneSurrogate
        else if isLeading value then decodeFrom (.surrogate value) decoded cs
        else decodeFrom .plain (Char.ofNat value :: decoded) cs
      | 0, some first =>
        if isTrailing value then decodeFrom .plain (ofSurrogates first value :: decoded) cs
        else .error .loneSurrogate
  | .surrogate leading, decoded, c :: cs =>
    if c = '\\' then decodeFrom (.surrogateEscape leading) decoded cs
    else .error .unfinishedSurrogate
  | .surrogateEscape leading, decoded, c :: cs =>
    if c ≠ 'u' then .error .unfinishedSurrogate
    else if isShort cs then .error .endInString
    else decodeFrom (.digits (some leading) 0 3) decoded cs

/-- The text that follows an opening quote, with what stands behind the closing one. -/
def decode (cs : List Char) : Except Malformed (String × List Char) := do
  let (text, rest) ← decodeFrom .plain [] cs
  return (String.ofList text, rest)

/-- Decoding uses up at least the closing quote. -/
theorem length_rest_lt {position : Position} {decoded cs text rest : List Char}
    (h : decodeFrom position decoded cs = .ok (text, rest)) : rest.length < cs.length := by
  induction cs generalizing position decoded with
  | nil => simp [decodeFrom] at h
  | cons c cs ih =>
    have step : ∀ {position decoded}, decodeFrom position decoded cs = .ok (text, rest) →
        rest.length < (c :: cs).length := fun h => by
      have := ih h
      simp only [List.length_cons]
      omega
    cases position <;> simp only [decodeFrom] at h
    all_goals
      repeat' split at h
      all_goals first
        | exact step h
        | simp_all

end PlugTaxonomy.Quoted
