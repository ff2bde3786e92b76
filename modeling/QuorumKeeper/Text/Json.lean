import QuorumKeeper.Text.Numeral

/-!
# Text in JSON

Texts and lists of texts as JSON. A quote, a backslash and control characters are escaped, the
common ones by a letter; every other character stands for itself.
-/

set_option autoImplicit false

namespace QuorumKeeper.Text

/-- How one character is written in a JSON text. -/
def jsonChar (c : Char) : List Char :=
  if c = '"' then ['\\', '"']
  else if c = '\\' then ['\\', '\\']
  else if c = '\x08' then ['\\', 'b']
  else if c = '\x0c' then ['\\', 'f']
  else if c = '\n' then ['\\', 'n']
  else if c = '\r' then ['\\', 'r']
  else if c = '\t' then ['\\', 't']
  else if c.toNat < 32 then
    ['\\', 'u', '0', '0', Nat.digitChar (c.toNat / 16), Nat.digitChar (c.toNat % 16)]
  else [c]

/-- A text as JSON. -/
def json (s : String) : String :=
  String.ofList (['"'] ++ s.toList.flatMap jsonChar ++ ['"'])

/-- A list of texts as JSON, on one line and without blanks. -/
def jsonList (texts : List String) : String :=
  "[" ++ ",".intercalate (texts.map json) ++ "]"

/-- A list of texts as JSON, each on a line of its own. -/
def jsonLines (texts : List String) : String :=
  if texts.isEmpty then "[]"
  else "[\n" ++ ",\n".intercalate (texts.map fun t => "  " ++ json t) ++ "\n]"

end QuorumKeeper.Text
