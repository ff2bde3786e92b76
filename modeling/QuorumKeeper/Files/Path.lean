/-!
# Paths

A path is a text whose slashes divide it into parts. It starts at the root if it starts with a
slash, and otherwise at the current directory. An empty part and a single point stay where they are,
two points lead up, and every other part names an entry of a directory.
-/

set_option autoImplicit false

namespace QuorumKeeper.Path

/-- The runs of characters between slashes. -/
def splitSlashes : List Char → List (List Char)
  | [] => [[]]
  | c :: rest =>
    if c = '/' then [] :: splitSlashes rest
    else
      match splitSlashes rest with
      | [] => [[c]]
      | part :: parts => (c :: part) :: parts

/-- The parts of a path. -/
def parts (path : String) : List String :=
  (splitSlashes path.toList).map String.ofList

/-- The path starts at the root. -/
def isAbsolute (path : String) : Bool :=
  path.toList.head? == some '/'

/-- The path ends with a slash. -/
def endsInSlash (path : String) : Bool :=
  path.toList.getLast? == some '/'

/-- The path of a name below a base. A name that starts at the root stays as it is. -/
def join (base name : String) : String :=
  if isAbsolute name then name
  else if base = "" || endsInSlash base then base ++ name
  else base ++ "/" ++ name

/-- The part leads nowhere else. -/
def isStay (part : String) : Bool :=
  part = "" || part = "."

/-- The parts without empty ones at the end. -/
def trimEnd (parts : List String) : List String :=
  (parts.reverse.dropWhile (· = "")).reverse

/-- The non-empty prefixes of a reversed list, longest first, each in its proper order. -/
def prefixes : List String → List (List String)
  | [] => []
  | name :: rest => (name :: rest).reverse :: prefixes rest

/-- A path and the paths above it, the longest first, without the place it starts at. -/
def ancestors (path : String) : List (List String) :=
  let names := (parts path).filter fun part => !isStay part
  trimEnd (parts path) :: prefixes (names.reverse.drop 1)

end QuorumKeeper.Path
