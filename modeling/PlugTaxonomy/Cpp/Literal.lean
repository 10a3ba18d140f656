import PlugTaxonomy.Text.Numeral

/-!
# String literals

A text is written as a literal between quotes.  Control characters are written as octal escapes
of three digits, so a digit that follows one is never taken for a part of it.
-/

namespace PlugTaxonomy.Cpp

/-- Whether a character is an ASCII control character. -/
def isControl (c : Char) : Bool :=
  c.toNat < 0x20 || c.toNat == 0x7f

/-- A character as it stands in a literal. -/
def literalChar (c : Char) : List Char :=
  if c = '"' then ['\\', '"']
  else if c = '\\' then ['\\', '\\']
  else if c = '\n' then ['\\', 'n']
  else if c = '\t' then ['\\', 't']
  else if isControl c then '\\' :: Text.octalPadded 3 c.toNat
  else [c]

/-- The literal of a text. -/
def literal (text : String) : String :=
  String.ofList ('"' :: text.toList.flatMap literalChar ++ ['"'])

end PlugTaxonomy.Cpp
