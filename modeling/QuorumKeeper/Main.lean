import QuorumKeeper.Operator.Log
import QuorumKeeper.Operator.Run
import QuorumKeeper.Store.Remote
import QuorumKeeper.Tls.Mint

/-!
# The operator's program

Reads the files that a command line needs into a tree, carries the command out on it, and writes
back what has changed. The program opens no sockets: to it, every address is out of reach.
-/

set_option autoImplicit false

namespace QuorumKeeper.Operator

/-- The path of a list of names from the root. -/
def pathOf (names : List String) : String :=
  "/" ++ "/".intercalate names

/-- What stands at a list of names on the disk. -/
def observe (names : List String) : IO (Option FileNode) := do
  let look : IO FileNode := do
    let path ← IO.FS.realPath (pathOf names)
    let info ← path.metadata
    if info.type matches .dir then return .dir []
    let content ← IO.FS.readBinFile path
    return .file content.toList FileTree.plainMode
  return (← look.toBaseIO).toOption

/-- Adds to a tree what the disk has on the way along the parts of a path. -/
def gather : (names parts : List String) → FileTree → IO FileTree
  | _, [], t => return t
  | names, part :: rest, t => do
    if Path.isStay part then gather names rest t
    else if part = ".." then gather names.dropLast rest t
    else
      let names := names ++ [part]
      match t.root.get? names with
      | some _ => gather names rest t
      | none =>
        match ← observe names with
        | none => return t
        | some node => gather names rest (t.put names node)

/-- Adds to a tree what the disk has at a path. -/
def gatherPath (t : FileTree) (path : String) : IO FileTree :=
  gather (t.start path) (Path.parts path) t

/-- Writes one file with its access mode. -/
def writeFile (path : String) (content : List UInt8) (mode : Nat) : IO Unit := do
  IO.FS.writeBinFile path ⟨content.toArray⟩
  if mode = FileTree.privateMode then
    IO.setAccessRights path { user := { read := true, write := true } }

/-- Writes to the disk what differs at a path between two trees. -/
def writeBack (before after : FileTree) (path : String) : IO Unit := do
  match before.node? path, after.node? path with
  | none, some (.dir _) => IO.FS.createDirAll path
  | none, some (.file content mode) => writeFile path content mode
  | some (.file old _), some (.file content mode) =>
    if old != content then
      writeFile path content mode
  | _, _ => return ()

/-- Carries out a command line on the disk. -/
def runOnDisk (words : List String) : IO UInt32 := do
  let here := Path.parts (← IO.currentDir).toString
  let empty : FileTree := { current := here.filter fun part => !Path.isStay part }
  let placed ← gather [] empty.current empty
  let configPath := (configPath? words).getD ""
  let files ← gatherPath placed configPath
  let paths := credentialPaths configPath files
  let files ← paths.foldlM gatherPath files
  let entropy ← IO.getRandomBytes 32
  let surroundings : Surroundings Fleet :=
    { files
      mint := fun name => .ok (Tls.Mint.material entropy.toList name)
      store := fun access => Fleet.store
        { dialer := (access.map EtcdAccess.dialer).getD (.table [])
          network := .isolated
          port := (access.map (·.settings.port)).getD etcdPort }
      state := {} }
  let (reply, after) := surroundings.run words
  paths.forM (writeBack files after.files)
  let line := if jsonLog words then Event.jsonLine else Event.plainLine
  let err ← IO.getStderr
  reply.log.forM fun e => err.putStr (line e)
  err.putStr reply.err
  (← IO.getStdout).putStr reply.out
  return reply.code

end QuorumKeeper.Operator

/-- The operator's program. -/
def main (words : List String) : IO UInt32 :=
  QuorumKeeper.Operator.runOnDisk words
