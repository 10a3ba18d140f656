import PlugTaxonomy.Text.Numeral
import PlugTaxonomy.Text.Unprintable

/-!
# Quoted texts in messages

A message that quotes a text shows it on one line: line breaks, quotes and all characters that
do not print on their own are written as escapes.

* `escapeChar` — the escape of one character, or the character itself;
* `quoted` — a text between double quotes, apostrophes left alone;
* `quotedList` — quoted texts between brackets.
-/

namespace PlugTaxonomy.Text

/-- A character as it stands within quotes. -/
def escapeChar (c : Char) : List Char :=
  match c with
  | '\x00' => ['\\', '0']
  | '\t' => ['\\', 't']
  | '\r' => ['\\', 'r']
  | '\n' => ['\\', 'n']
  | '\\' => ['\\', '\\']
  | '"' => ['\\', '"']
  | c =>
    if isUnprintable c then ['\\', 'u', '\x7b'] ++ hex c.toNat ++ ['\x7d'] else [c]

/-- A text between double quotes. -/
def quoted (text : String) : String :=
  String.ofList ('"' :: text.toList.flatMap escapeChar ++ ['"'])

/-- Quoted texts between brackets. -/
def quotedList (texts : List String) : String :=
  "[" ++ String.intercalate ", " (texts.map quoted) ++ "]"

end PlugTaxonomy.Text
