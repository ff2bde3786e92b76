import QuorumKeeper.Text.Numeral
import QuorumKeeper.Text.Printable

/-!
# Quoted text in messages

Messages show names in double quotes. A quote, a backslash and the four common control characters
are written with a backslash, and every other character that cannot be shown by its code point.
-/

set_option autoImplicit false

namespace QuorumKeeper.Text

/-- How one character is shown between quotes. -/
def quoteChar (c : Char) : List Char :=
  if c = '\x00' then ['\\', '0']
  else if c = '\t' then ['\\', 't']
  else if c = '\r' then ['\\', 'r']
  else if c = '\n' then ['\\', 'n']
  else if c = '"' then ['\\', '"']
  else if c = '\\' then ['\\', '\\']
  else if isPrintable c then [c]
  else ['\\', 'u', '\x7b'] ++ Nat.toDigits 16 c.toNat ++ ['\x7d']

/-- The text in double quotes, with escapes. -/
def quoted (s : String) : String :=
  String.ofList (['"'] ++ s.toList.flatMap quoteChar ++ ['"'])

/-- A list of texts, each quoted, in brackets. -/
def quotedList (names : List String) : String :=
  "[" ++ ", ".intercalate (names.map quoted) ++ "]"

end QuorumKeeper.Text
