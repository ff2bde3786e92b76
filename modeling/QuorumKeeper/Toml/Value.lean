import QuorumKeeper.Text.Binary64

/-!
# Values of a TOML document

A table remembers how it came about, because that decides whether later lines of the document may
still add to it.
-/

set_option autoImplicit false

namespace QuorumKeeper.Toml

/-- How a table came about: written in braces, which closes it; opened by a header of its own;
passed through by a longer header, which leaves its own header possible; or passed through by a
dotted key. -/
inductive Origin where
  | inline
  | header
  | implied
  | dotted
  deriving DecidableEq, Repr

/-- No line of the document has defined the table itself. -/
def Origin.isImplicit : Origin → Bool
  | implied => true
  | dotted => true
  | _ => false

/-- A value. `datetime` is a date, a time or both, as written, and `tables` are those under one
repeated header. -/
inductive Value where
  | string (s : String)
  | integer (n : Int)
  | float (x : Text.Binary64)
  | boolean (b : Bool)
  | datetime (text : String)
  | array (items : List Value)
  | table (origin : Origin) (entries : List (String × Value))
  | tables (items : List (List (String × Value)))
  deriving Inhabited

/-- The entries of a table, in the order of the document. -/
abbrev Entries := List (String × Value)

end QuorumKeeper.Toml
