import QuorumKeeper.Files.Path
import QuorumKeeper.Text.Utf8

/-!
# File trees

Directories and files as a value. A path is followed part by part, and everything before its last
part must be a directory. An operation that changes the tree answers with the changed tree; one that
fails says why and changes nothing, except that making a directory with those above it keeps the
ones it has made, and that a file to which not all of its content could be written keeps what it
got.

What the system denies, for want of permission or of space, is part of the tree: each name can have
an obstacle, and so a change can fail at any name and at each of its steps. Access modes are only
kept; they decide nothing. Every file may be read and every directory searched, there are no links,
and nothing else changes the tree in the meantime.
-/

set_option autoImplicit false

namespace QuorumKeeper

/-- A file with its content and access mode, or a directory with its entries. -/
inductive FileNode where
  | file (content : List UInt8) (mode : Nat)
  | dir (entries : List (String × FileNode))

/-- Why the system denies a change against which nothing in the tree speaks. -/
inductive Denial where
  | permissionDenied
  | notPermitted
  | noSpace
  | readOnly
  | inputOutput
  deriving DecidableEq, Repr

/-- What stands against changes under a name. With `closed`, nothing is opened for writing or made
there; with `full`, no more than so many bytes get into a file that is written; and with `fixed`,
its access mode cannot be set. -/
inductive Obstacle where
  | closed (why : Denial)
  | full (room : Nat) (why : Denial)
  | fixed (why : Denial)
  deriving DecidableEq, Repr

/-- A tree of files, the directory in which relative paths start, and the obstacles at the names of
the tree. -/
structure FileTree where
  entries : List (String × FileNode) := []
  current : List String := []
  obstacles : List (List String × Obstacle) := []

/-- Why an operation on files fails. `nulInName` is for a name that holds the character with code
zero, and `notText` for a content that is no UTF-8. -/
inductive FileFault where
  | notFound
  | notDirectory
  | isDirectory
  | alreadyExists
  | nameTooLong
  | nulInName
  | notText
  | denied (why : Denial)
  deriving DecidableEq, Repr

namespace Denial

/-- The text shown to an operator. -/
def message : Denial → String
  | permissionDenied => "Permission denied (os error 13)"
  | notPermitted => "Operation not permitted (os error 1)"
  | noSpace => "No space left on device (os error 28)"
  | readOnly => "Read-only file system (os error 30)"
  | inputOutput => "Input/output error (os error 5)"

end Denial

namespace FileFault

/-- The text shown to an operator. -/
def message : FileFault → String
  | notFound => "No such file or directory (os error 2)"
  | notDirectory => "Not a directory (os error 20)"
  | isDirectory => "Is a directory (os error 21)"
  | alreadyExists => "File exists (os error 17)"
  | nameTooLong => "File name too long (os error 36)"
  | nulInName => "file name contained an unexpected NUL byte"
  | notText => "stream did not contain valid UTF-8"
  | denied why => why.message

end FileFault

namespace FileNode

/-- The node is a directory. -/
def isDir : FileNode → Bool
  | dir _ => true
  | file .. => false

/-- The node at a list of names. -/
def get? : List String → FileNode → Option FileNode
  | [], node => some node
  | name :: rest, dir entries =>
    match entries.lookup name with
    | some child => get? rest child
    | none => none
  | _ :: _, file .. => none

/-- The entries with one of them set. -/
def setEntry (name : String) (node : FileNode) :
    List (String × FileNode) → List (String × FileNode)
  | [] => [(name, node)]
  | e :: rest => if e.1 = name then (name, node) :: rest else e :: setEntry name node rest

/-- The node with another one put at a list of names. -/
def put (new : FileNode) : List String → FileNode → FileNode
  | [], _ => new
  | name :: rest, dir entries =>
    dir (setEntry name (put new rest ((entries.lookup name).getD (dir []))) entries)
  | _ :: _, file content mode => file content mode

/-- The node without what stands at a list of names. -/
def erase : List String → FileNode → FileNode
  | [name], dir entries => dir (entries.filter (·.1 != name))
  | name :: rest, dir entries =>
    match entries.lookup name with
    | some child => dir (setEntry name (erase rest child) entries)
    | none => dir entries
  | _, node => node

end FileNode

/-- Where a path leads: to a node, or to a name that a directory does not have. -/
inductive Place where
  | taken (names : List String) (node : FileNode)
  | free (names : List String)

/-- The longest name of an entry, in bytes. -/
def maxNameSize : Nat := 255

/-- The longest path, in bytes. -/
def maxPathSize : Nat := 4095

/-- Follows the parts of a path from a directory. -/
def FileNode.walk (root : FileNode) : List String → List String → Except FileFault Place
  | names, [] =>
    match root.get? names with
    | some node => .ok (.taken names node)
    | none => .error .notFound
  | names, part :: rest =>
    match root.get? names with
    | none => .error .notFound
    | some (.file ..) => .error .notDirectory
    | some (.dir entries) =>
      if Path.isStay part then root.walk names rest
      else if part = ".." then root.walk names.dropLast rest
      else if maxNameSize < part.utf8ByteSize then .error .nameTooLong
      else if (entries.lookup part).isSome then root.walk (names ++ [part]) rest
      else if rest.isEmpty then .ok (.free (names ++ [part]))
      else .error .notFound

namespace FileTree

/-- The root directory. -/
def root (t : FileTree) : FileNode :=
  .dir t.entries

/-- The tree with a node put at a list of names. -/
def put (t : FileTree) (names : List String) (node : FileNode) : FileTree :=
  match FileNode.put node names t.root with
  | .dir entries => { t with entries }
  | .file .. => t

/-- A path that can be given to an operation. -/
def checkPath (path : String) : Except FileFault Unit :=
  if path.toList.contains '\x00' then .error .nulInName
  else if path = "" then .error .notFound
  else if maxPathSize < path.utf8ByteSize then .error .nameTooLong
  else .ok ()

/-- The directory in which a path starts. -/
def start (t : FileTree) (path : String) : List String :=
  if Path.isAbsolute path then [] else t.current

/-- Where a path leads. -/
def place (t : FileTree) (path : String) : Except FileFault Place :=
  match checkPath path with
  | .error fault => .error fault
  | .ok () => t.root.walk (t.start path) (Path.parts path)

/-- The node at a path. -/
def node? (t : FileTree) (path : String) : Option FileNode :=
  match t.place path with
  | .ok (.taken _ node) => some node
  | _ => none

/-- Something is at the path. -/
def has (t : FileTree) (path : String) : Bool :=
  (t.node? path).isSome

/-- The access mode of a new file. -/
def plainMode : Nat := 0o644

/-- The access mode of a file that only its owner may read. -/
def privateMode : Nat := 0o600

/-- The access mode of a directory. -/
def directoryMode : Nat := 0o755

/-- The access mode of what is at a path. -/
def mode? (t : FileTree) (path : String) : Option Nat :=
  (t.node? path).map fun
    | .file _ mode => mode
    | .dir _ => directoryMode

/-- The names in a directory, in order. -/
def names (t : FileTree) (path : String) : List String :=
  match t.node? path with
  | some (.dir entries) => (entries.map Prod.fst).mergeSort (· ≤ ·)
  | _ => []

/-- The text of a file. -/
def read (t : FileTree) (path : String) : Except FileFault String :=
  match t.place path with
  | .error fault => .error fault
  | .ok (.free _) => .error .notFound
  | .ok (.taken _ (.dir _)) => .error .isDirectory
  | .ok (.taken _ (.file content _)) =>
    match Text.ofUtf8? content with
    | some text => .ok text
    | none => .error .notText

/-- Opens a file for writing, by which it loses its content, and writes the new content as far as
that gets into it. -/
def fill (t : FileTree) (names : List String) (mode : Nat) (content : List UInt8) :
    Except FileFault Unit × FileTree :=
  match t.obstacles.lookup names with
  | some (.closed why) => (.error (.denied why), t)
  | some (.full room why) =>
    if content.length ≤ room then (.ok (), t.put names (.file content mode))
    else (.error (.denied why), t.put names (.file (content.take room) mode))
  | _ => (.ok (), t.put names (.file content mode))

/-- Writes a file, as far as that is possible. An existing one keeps its access mode. -/
def tryWrite (t : FileTree) (path : String) (content : List UInt8) :
    Except FileFault Unit × FileTree :=
  if Path.endsInSlash path then
    match t.root.walk (t.start path) (Path.trimEnd (Path.parts path)) with
    | .error fault => (.error fault, t)
    | .ok _ => (.error .isDirectory, t)
  else
    match t.place path with
    | .error fault => (.error fault, t)
    | .ok (.taken _ (.dir _)) => (.error .isDirectory, t)
    | .ok (.taken names (.file _ mode)) => t.fill names mode content
    | .ok (.free names) => t.fill names plainMode content

/-- The tree with a file written whole, or why that cannot be. -/
def write (t : FileTree) (path : String) (content : List UInt8) : Except FileFault FileTree :=
  match t.tryWrite path content with
  | (.error fault, _) => .error fault
  | (.ok (), t) => .ok t

/-- Sets the access mode of a file. -/
def setMode (t : FileTree) (path : String) (mode : Nat) : Except FileFault FileTree :=
  match t.place path with
  | .error fault => .error fault
  | .ok (.free _) => .error .notFound
  | .ok (.taken _ (.dir _)) => .ok t
  | .ok (.taken names (.file content _)) =>
    match t.obstacles.lookup names with
    | some (.fixed why) => .error (.denied why)
    | _ => .ok (t.put names (.file content mode))

/-- Makes one directory. -/
def makeDir (t : FileTree) (start parts : List String) : Except FileFault FileTree :=
  match t.root.walk start parts with
  | .error fault => .error fault
  | .ok (.taken ..) => .error .alreadyExists
  | .ok (.free names) =>
    match t.obstacles.lookup names with
    | some (.closed why) => .error (.denied why)
    | _ => .ok (t.put names (.dir []))

/-- A directory is at the end of the parts. -/
def isDirAt (t : FileTree) (start parts : List String) : Bool :=
  match t.root.walk start parts with
  | .ok (.taken _ node) => node.isDir
  | _ => false

/-- Makes the first of several directories, each of which lies below those after it. The rest is
made only where something is missing. -/
def makeFirst (start : List String) :
    List (List String) → FileTree → Except FileFault Unit × FileTree
  | [], t => (.ok (), t)
  | parts :: above, t =>
    match t.makeDir start parts with
    | .ok t => (.ok (), t)
    | .error .notFound =>
      match makeFirst start above t with
      | (.error fault, t) => (.error fault, t)
      | (.ok (), t) =>
        match t.makeDir start parts with
        | .ok t => (.ok (), t)
        | .error fault => if t.isDirAt start parts then (.ok (), t) else (.error fault, t)
    | .error fault => if t.isDirAt start parts then (.ok (), t) else (.error fault, t)

/-- Makes a directory and those above it, as far as they are missing. -/
def makeDirs (t : FileTree) (path : String) : Except FileFault Unit × FileTree :=
  if path = "" then (.ok (), t)
  else
    match checkPath path with
    | .error fault => (.error fault, t)
    | .ok () => makeFirst (t.start path) (Path.ancestors path) t

/-- Makes the directories above a path, as far as that is possible. -/
def makeParents (t : FileTree) (path : String) : FileTree :=
  (makeFirst (t.start path) ((Path.ancestors path).drop 1) t).2

/-- Takes away a file, or a directory with all below it. -/
def delete (t : FileTree) (path : String) : Except FileFault FileTree :=
  match t.place path with
  | .error fault => .error fault
  | .ok (.free _) => .error .notFound
  | .ok (.taken names _) =>
    match FileNode.erase names t.root with
    | .dir entries => .ok { t with entries }
    | .file .. => .ok t

end FileTree

end QuorumKeeper
