/-!
# Texts of collected errors

A single collected error is shown as itself, several in brackets with commas between them, and an
empty collection as the empty text.
-/

set_option autoImplicit false

namespace QuorumKeeper

/-- The text of a collection of errors, given the texts of its entries. -/
def aggregateText : List String → String
  | [] => ""
  | [only] => only
  | many => "[" ++ ", ".intercalate many ++ "]"

end QuorumKeeper
