import PlugTaxonomy.Text.Blank

/-!
# Output formats

* `Format` — C++ sources or JSON;
* `Format.read` — the format with a name, blanks around it and the case of letters left aside.
-/

namespace PlugTaxonomy

/-- What is generated. -/
inductive Format where
  | cpp
  | json
  deriving DecidableEq, Repr

/-- A text that names no format. -/
structure UnknownFormat where
  text : String
  deriving DecidableEq, Repr

def UnknownFormat.message (error : UnknownFormat) : String :=
  "unknown output format '" ++ error.text ++ "', expected one of: cpp, json"

namespace Format

/-- The name of a format. -/
def name : Format → String
  | cpp => "cpp"
  | json => "json"

/-- A character with a capital ASCII letter made small. -/
def lowered (c : Char) : Char :=
  if 'A' ≤ c ∧ c ≤ 'Z' then Char.ofNat (c.toNat + 32) else c

/-- The format with a name, blanks around it and the case of letters left aside. -/
def read (text : String) : Except UnknownFormat Format :=
  match String.ofList ((Text.trim text.toList).map lowered) with
  | "cpp" => .ok cpp
  | "c++" => .ok cpp
  | "json" => .ok json
  | _ => .error ⟨text⟩

end Format

end PlugTaxonomy
