import QuorumKeeper.Toml.Value

/-!
# From lines to a tree

A document is a sequence of statements: headers and assignments. `Document.ofStatements?` builds the
tree of tables and refuses every document that defines something twice. A header for a table that
longer headers only passed through takes over what is there and moves it to the end of its parent.
-/

set_option autoImplicit false

namespace QuorumKeeper.Toml

/-- A line of a document that is not empty: the header of a table, the header of one more table in a
row, or a key, possibly dotted, with its value. -/
inductive Statement where
  | header (path : List String)
  | element (path : List String)
  | assign (path : List String) (value : Value)
  deriving Inhabited

namespace Entries

/-- Changes the entry of a key, or adds one at the end. -/
def alter {α : Type} (key : String) (f : Option Value → Option (α × Value)) :
    Entries → Option (α × Entries)
  | [] => (f none).map fun (a, v) => (a, [(key, v)])
  | (k, v) :: rest =>
    if k = key then (f (some v)).map fun (a, v) => (a, (k, v) :: rest)
    else (alter key f rest).map fun (a, rest) => (a, (k, v) :: rest)

/-- Adds an entry at the end; the key must be new. -/
def insertNew (entries : Entries) (key : String) (value : Value) : Option Entries :=
  if entries.any (·.1 == key) then none else some (entries ++ [(key, value)])

/-- Works on the table at the end of a path, making the tables on the way where they are missing.
In a row of tables the path leads into the last one. A dotted path must not enter a table that has
a definition of its own. -/
def descend {α : Type} (dotted : Bool) (f : Origin → Entries → Option (α × Entries)) :
    (path : List String) → Origin → Entries → Option (α × Entries)
  | [], origin, entries => f origin entries
  | key :: path, _, entries =>
    alter key (fun
      | none =>
        let origin := if dotted then .dotted else .implied
        (descend dotted f path origin []).map fun (a, sub) => (a, .table origin sub)
      | some (.table origin sub) =>
        if origin = .inline ∨ (dotted ∧ !origin.isImplicit) then none
        else (descend dotted f path origin sub).map fun (a, sub) => (a, .table origin sub)
      | some (.tables items) =>
        match items.getLast? with
        | none => none
        | some last =>
          (descend dotted f path .header last).map fun (a, last) =>
            (a, .tables (items.dropLast ++ [last]))
      | some _ => none) entries

/-- Assigns a value to a key, possibly dotted. A dotted key may only add to tables that dotted keys
have made. -/
def assign (entries : Entries) (path : List String) (value : Value) : Option Entries :=
  match path.getLast? with
  | none => none
  | some key =>
    let way := path.dropLast
    let put := fun origin sub =>
      if !way.isEmpty && origin != .dotted then none
      else (insertNew sub key value).map fun sub => ((), sub)
    (descend true put way .header entries).map (·.2)

/-- Takes the table of a header out of its parent, if it is there and may be defined. -/
def extract (entries : Entries) (path : List String) : Option (Entries × Entries) :=
  match path.getLast? with
  | none => none
  | some key =>
    let find := fun (_ : Origin) (sub : Entries) =>
      match sub.lookup key with
      | none => some ([], sub)
      | some (.table .implied inner) => some (inner, sub.filter (·.1 != key))
      | some _ => none
    descend false find path.dropLast .header entries

/-- Puts the finished table of a header into its parent. -/
def put (entries : Entries) (path : List String) (table : Entries) : Option Entries :=
  match path.getLast? with
  | none => none
  | some key =>
    let insert := fun (_ : Origin) (sub : Entries) =>
      (insertNew sub key (.table .header table)).map fun sub => ((), sub)
    (descend false insert path.dropLast .header entries).map (·.2)

/-- Puts a finished table at the end of a row. -/
def push (entries : Entries) (path : List String) (table : Entries) : Option Entries :=
  match path.getLast? with
  | none => none
  | some key =>
    let append := fun (_ : Origin) (sub : Entries) =>
      alter key (fun
        | none => some ((), .tables [table])
        | some (.tables items) => some ((), .tables (items ++ [table]))
        | some _ => none) sub
    (descend false append path.dropLast .header entries).map (·.2)

end Entries

/-- A table under construction. -/
inductive OpenTable where
  | root
  | header (path : List String)
  | element (path : List String)
  deriving DecidableEq, Repr

/-- A document under construction: the finished tables, and the open one with its entries. -/
structure Document where
  finished : Entries := []
  place : OpenTable := .root
  entries : Entries := []

namespace Document

/-- The tree with the open table in its place. -/
def close (d : Document) : Option Entries :=
  match d.place with
  | .root => some d.entries
  | .header path => d.finished.put path d.entries
  | .element path => d.finished.push path d.entries

/-- One more statement. -/
def add (d : Document) : Statement → Option Document
  | .assign path value => (d.entries.assign path value).map fun entries => { d with entries }
  | .header path =>
    match d.close with
    | none => none
    | some finished =>
      (finished.extract path).map fun (entries, finished) =>
        { finished, place := .header path, entries }
  | .element path =>
    d.close.map fun finished => { finished, place := .element path }

/-- The tree of a document, unless something in it is defined twice. -/
def ofStatements? (statements : List Statement) : Option Entries :=
  (statements.foldlM add {}).bind close

end Document

end QuorumKeeper.Toml
