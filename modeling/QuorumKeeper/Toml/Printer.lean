import QuorumKeeper.Toml.Quoted

/-!
# Writing a document

A document is written in sections: the header of a table and the assignments in it. An array of two
items or more takes one line for each, and an empty line stands between sections.
-/

set_option autoImplicit false

namespace QuorumKeeper.Toml

/-- A value that can be assigned in a section. -/
inductive Field where
  | string (s : String)
  | integer (n : Nat)
  | strings (items : List String)
  deriving DecidableEq, Repr

/-- The field can be written: whole numbers must fit into 64 bits with a sign. -/
def Field.isWritable : Field → Bool
  | integer n => n < Nat.pow 2 63
  | _ => true

/-- A table: the path of its header and its assignments. -/
structure Section where
  path : List String
  fields : List (String × Field)
  deriving DecidableEq, Repr

namespace Printer

/-- A string with its quotes. -/
def string (s : String) : List Char :=
  writeString s.toList

/-- One line for every item. -/
def itemLines : List String → List Char
  | [] => []
  | s :: rest => "    ".toList ++ string s ++ ",\n".toList ++ itemLines rest

/-- A value. -/
def field : Field → List Char
  | .string s => string s
  | .integer n => (Text.decimal n).toList
  | .strings [] => "[]".toList
  | .strings [s] => '[' :: string s ++ [']']
  | .strings items => "[\n".toList ++ itemLines items ++ [']']

/-- The parts of a key with points between them. -/
def key : List String → List Char
  | [] => []
  | [part] => writeKeyPart part.toList
  | part :: rest => writeKeyPart part.toList ++ '.' :: key rest

/-- The lines of the assignments. -/
def assignments : List (String × Field) → List Char
  | [] => []
  | (k, v) :: rest =>
    writeKeyPart k.toList ++ " = ".toList ++ field v ++ '\n' :: assignments rest

/-- The lines of a section. -/
def lines (s : Section) : List Char :=
  '[' :: key s.path ++ ']' :: '\n' :: assignments s.fields

/-- The lines of all sections. -/
def document : List Section → List Char
  | [] => []
  | [s] => lines s
  | s :: rest => lines s ++ '\n' :: document rest

end Printer

/-- The text of a document. -/
def print (sections : List Section) : String :=
  String.ofList (Printer.document sections)

/-- The text of a document, unless one of its fields cannot be written. -/
def print? (sections : List Section) : Option String :=
  if sections.all fun s => s.fields.all (·.2.isWritable) then some (print sections) else none

end QuorumKeeper.Toml
