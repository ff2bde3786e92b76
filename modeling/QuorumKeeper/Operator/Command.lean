import QuorumKeeper.CommandLine.Parse

/-!
# The operator's commands

What an operator can ask for on a command line: to list the members, to take out those that belong
to no node or to one node, to hand leadership over, and to make credentials.
-/

set_option autoImplicit false

namespace QuorumKeeper.Operator

open CommandLine (Flag Refusal Tool)

/-- What is asked for. To reconcile without nodes means the configured ones. -/
inductive Task where
  | members
  | reconcile (nodes : List String)
  | removeMember (node : String)
  | forwardLeadership (outgoing candidate : String)
  | generateCredentials
  deriving DecidableEq, Repr

/-- A command line that has been understood. With `jsonLog` events are written as JSON, and with
`json` results are. -/
structure Order where
  configPath : String
  jsonLog : Bool
  json : Bool
  task : Task
  deriving DecidableEq, Repr

/-- The flag for the path of the configuration. -/
def configFlag : Flag where
  long := "config"
  short := some 'c'
  value := some "CONFIG"
  about := "Path to warden.toml"
  default := some "warden.toml"

/-- The flag for events as JSON. -/
def jsonLogFlag : Flag where
  long := "log-json"
  about := "Emit logs as JSON"

/-- The flag for results as JSON. -/
def jsonFlag : Flag where
  long := "json"
  about := "Print results as JSON"

/-- The operator's tool. -/
def tool : Tool Task where
  name := "wardenctl"
  about := "Warden etcd membership control"
  flags := [configFlag, jsonLogFlag, jsonFlag]
  commands :=
    [{ name := "members"
       about := "List etcd members as etcd reports them"
       read := fun _ => some .members },
     { name := "reconcile"
       about := "Remove etcd members that have no control plane node"
       operands :=
         [{ name := "NODES"
            about := "Live node names. Defaults to the configured control plane nodes"
            required := false
            repeated := true }]
       read := fun nodes => some (.reconcile nodes) },
     { name := "remove-member"
       about := "Remove the etcd member hosted on a node"
       operands := [{ name := "NODE" }]
       read := fun
         | [node] => some (.removeMember node)
         | _ => none },
     { name := "forward-leadership"
       about := "Move etcd leadership off a node, if it holds it"
       operands :=
         [{ name := "OUTGOING", about := "Node that may currently host the leader" },
          { name := "CANDIDATE", about := "Node to hand leadership to" }]
       read := fun
         | [outgoing, candidate] => some (.forwardLeadership outgoing candidate)
         | _ => none },
     { name := "generate-credentials"
       about := "Create managed client credentials if none exist yet"
       read := fun _ => some .generateCredentials }]

/-- Reads a command line. -/
def Order.parse (words : List String) : Except Refusal Order := do
  let (given, task) ← tool.parse words
  return {
    configPath := (given.lookup configFlag).getD (configFlag.default.getD "")
    jsonLog := (given.lookup jsonLogFlag).isSome
    json := (given.lookup jsonFlag).isSome
    task }

end QuorumKeeper.Operator
