import PlugTaxonomy.Json.Numeral
import PlugTaxonomy.Json.Quoted

/-!
# Tokens of a JSON text

* `Token` — a mark of punctuation or a value without parts; texts that begin like a value but
  are none are tokens too, so that the reader decides whether a value was wanted at all;
* `Token.scan` — the token that begins with a character;
* `Token.fold` — runs a machine over the tokens of a text, up to the first error.
-/

namespace PlugTaxonomy

/-- A token of a JSON text. -/
inductive Token where
  | openBrace
  | closeBrace
  | openBracket
  | closeBracket
  | colon
  | comma
  | null
  | boolean (value : Bool)
  | number (value : JsonNumber)
  | string (value : String)
  /-- What begins like a value, or like nothing at all. -/
  | broken (error : Malformed)
  /-- What begins like a string. -/
  | brokenString (error : Malformed)
  deriving DecidableEq, Repr

namespace Token

/-- Whether a character may stand between tokens. -/
def isSeparator (c : Char) : Bool :=
  c == ' ' || c == '\n' || c == '\t' || c == '\r'

/-- The rest of a word of which the first letter has been read. -/
def scanWord (token : Token) : List Char → List Char → Token × List Char
  | [], cs => (token, cs)
  | _ :: _, [] => (broken .endInValue, [])
  | w :: word, c :: cs =>
    if c = w then scanWord token word cs else (broken .expectedIdent, cs)

/-- The number at the front of a text, a minus sign having been read. -/
def scanNumber (negative : Bool) (cs : List Char) : Token × List Char :=
  match Numeral.scan negative cs with
  | .error error => (broken error, [])
  | .ok (numeral, rest) =>
    match numeral.value with
    | .error error => (broken error, rest)
    | .ok value => (number value, rest)

/-- The token that begins with a character, with what stands behind it. -/
def scan (c : Char) (cs : List Char) : Token × List Char :=
  match c with
  | '{' => (openBrace, cs)
  | '}' => (closeBrace, cs)
  | '[' => (openBracket, cs)
  | ']' => (closeBracket, cs)
  | ':' => (colon, cs)
  | ',' => (comma, cs)
  | 'n' => scanWord null ['u', 'l', 'l'] cs
  | 't' => scanWord (boolean true) ['r', 'u', 'e'] cs
  | 'f' => scanWord (boolean false) ['a', 'l', 's', 'e'] cs
  | '-' => scanNumber true cs
  | '"' =>
    match Quoted.decode cs with
    | .error error => (brokenString error, [])
    | .ok (text, rest) => (string text, rest)
  | c => if c.isDigit then scanNumber false (c :: cs) else (broken .expectedValue, cs)

/-! ### Length -/

theorem scanWord_length (token : Token) (word cs : List Char) :
    (scanWord token word cs).2.length ≤ cs.length := by
  fun_induction scanWord token word cs with
  | case1 cs => exact Nat.le_refl _
  | case2 => exact Nat.le_refl _
  | case3 w word cs ih => exact Nat.le_succ_of_le ih
  | case4 w word c cs h => exact Nat.le_succ _

theorem scanNumber_length (negative : Bool) (cs : List Char) :
    (scanNumber negative cs).2.length ≤ cs.length - 1 := by
  unfold scanNumber
  split
  · simp
  · rename_i h
    have := Numeral.scan_length h
    split <;> simp only <;> omega

/-- A token uses up the character with which it begins. -/
theorem scan_length (c : Char) (cs : List Char) : (scan c cs).2.length ≤ cs.length := by
  unfold scan
  split
  case h_10 => exact Nat.le_trans (scanNumber_length true cs) (Nat.sub_le _ _)
  case h_11 =>
    split
    · simp
    · rename_i h
      unfold Quoted.decode at h
      cases hd : Quoted.decodeFrom .plain [] cs with
      | error e => simp [hd, bind, Except.bind] at h
      | ok found =>
        have := Quoted.length_rest_lt hd
        simp only [hd, bind, Except.bind, pure, Except.pure, Except.ok.injEq,
          Prod.mk.injEq] at h
        simp only [← h.2]
        omega
  case h_12 =>
    split
    · have := scanNumber_length false (c :: cs)
      simpa using this
    · simp
  all_goals first | exact Nat.le_refl _ | exact scanWord_length _ _ _

/-! ### Machines -/

/-- Runs a machine over the tokens of a text, up to the first error. -/
def fold {σ ε : Type} (step : σ → Token → Except ε σ) (state : σ) (cs : List Char) :
    Except ε σ :=
  match _h : cs.dropWhile isSeparator with
  | [] => .ok state
  | c :: rest =>
    match step state (scan c rest).1 with
    | .error error => .error error
    | .ok next => fold step next (scan c rest).2
termination_by cs.length
decreasing_by
  have := Numeral.length_dropWhile_le isSeparator cs
  have := scan_length c rest
  simp only [_h, List.length_cons] at *
  omega

end Token

end PlugTaxonomy
