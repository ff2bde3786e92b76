import QuorumKeeper.Config.Access
import QuorumKeeper.Operator.Command
import QuorumKeeper.Store.Basic
import QuorumKeeper.Text.Json

/-!
# Carrying out the operator's commands

A command line is carried out in surroundings: a file tree, a way to make credentials, and a store
for every way of reaching etcd, which is not asked where there is none. The reply holds what is
printed, the exit code and the events on the way.
-/

set_option autoImplicit false

namespace QuorumKeeper.Operator

/-- What a command can see and use, with a store of states `σ`. -/
structure Surroundings (σ : Type) where
  files : FileTree
  mint : String → Except ClientError TlsMaterial
  store : Option EtcdAccess → Store σ
  state : σ

/-- What an operator sees of a command. -/
structure Reply where
  code : UInt32 := 0
  out : String := ""
  err : String := ""
  log : List Event := []
  deriving Repr

/-- A failed command: what was being done, and the causes below it. -/
structure Failure where
  message : String
  causes : List String := []
  deriving DecidableEq, Repr

namespace Failure

/-- A text of several lines below a heading: the first line behind a mark, the others as far in. -/
def indented (mark blank text : String) : String :=
  mark ++ ("\n" ++ blank).intercalate (text.splitOn "\n")

/-- The causes, which are numbered if there are several. -/
def causesText : List String → String
  | [] => ""
  | [cause] => "\n\nCaused by:\n" ++ indented "    " "    " cause
  | causes =>
    "\n\nCaused by:" ++ "".intercalate (causes.zipIdx.map fun (cause, i) =>
      let number := Text.decimal i
      let pad := String.ofList (List.replicate (5 - number.length) ' ')
      "\n" ++ indented (pad ++ number ++ ": ") "       " cause)

/-- The text shown to an operator. -/
def text (f : Failure) : String :=
  "Error: " ++ f.message ++ causesText f.causes ++ "\n"

/-- The failure of an operation. -/
def ofOperation (e : OperationError) : Failure where
  message := e.message
  causes := e.causes

/-- The failure to access etcd. -/
def ofAccess (e : AccessError) : Failure where
  message := e.message

/-- The failure to read the configuration. -/
def ofLoad (e : LoadError) : Failure where
  message := e.context
  causes := [e.cause]

/-- The failure of credentials. -/
def ofClient (e : ClientError) : Failure where
  message := e.message

end Failure

namespace Reply

/-- The reply to a command line that is not carried out. -/
def ofRefusal : CommandLine.Refusal → Reply
  | .help page => { out := page }
  | .bare page => { code := 2, err := page }
  | .fault f => { code := 2, err := f.text }

/-- The reply of a command that failed after printing something. -/
def failed (out : String) (log : List Event) (f : Failure) : Reply where
  code := 1
  out
  err := f.text
  log

end Reply

/-- The part of the program that reports the events of commands. -/
def target : String := "wardenctl"

/-- Event: there is no access to etcd. -/
def noAccess : Event where
  level := .warn
  target
  message := "no [etcd] section configured; etcd is not reachable"

/-- Event: credentials were made. -/
def generated : Event where
  level := .info
  target
  message := "generated etcd client credentials"

/-- Texts as lines. -/
def lines (texts : List String) : String :=
  "".intercalate (texts.map (· ++ "\n"))

/-- The names of the members as they are printed. -/
def membersText (json : Bool) (names : List String) : String :=
  if json then Text.jsonLines names ++ "\n" else lines names

/-- A reconciliation as it is printed. -/
def reportText (json : Bool) (r : Report) : String :=
  if json then
    let error := match r.error? with
      | some e => Text.json e.message
      | none => "null"
    "\x7b\"error\":" ++ error ++ ",\"removed\":" ++ Text.jsonList r.removed ++ "\x7d\n"
  else lines r.removed

/-- The path of the configuration that a command line needs, if it is understood. -/
def configPath? (words : List String) : Option String :=
  match Order.parse words with
  | .ok order => some order.configPath
  | .error _ => none

/-- The events of a command line are to be written as JSON. -/
def jsonLog (words : List String) : Bool :=
  match Order.parse words with
  | .ok order => order.jsonLog
  | .error _ => false

/-- The paths of the credentials that a configuration at a path names. -/
def credentialPaths (configPath : String) (t : FileTree) : List String :=
  match Config.load configPath t with
  | .ok c => (c.credentials.map CredentialSource.paths).getD []
  | .error _ => []

namespace Surroundings

variable {σ : Type}

/-- Runs an operation of the configured workload, and makes a reply of its value and events. -/
def operate {α : Type} (s : Surroundings σ) (c : Config) (p : Workload → Program α)
    (reply : Workload → α → List Event → Reply) : Reply × Surroundings σ :=
  match c.access s.files with
  | .error e => (.failed "" [] (.ofAccess e), s)
  | .ok access =>
    let w := c.workloadOver access
    let r := (p w).run (s.store access).world { state := (c.inventory, s.state) }
    (reply w r.value r.log, { s with state := r.after.state.2 })

/-- Makes credentials and stores them, unless there are some. -/
def provision (s : Surroundings σ) (c : Config) : Reply × Surroundings σ :=
  match c.credentials with
  | none => (.failed "" [] { message := "no [etcd.credentials] configured" }, s)
  | some source =>
    match source.provide s.mint s.files with
    | .error e => (.failed "" [] (.ofClient e), s)
    | .ok (.existing _) => ({ out := "credentials already present\n" }, s)
    | .ok (.generated m) =>
      let minted := CredentialSource.minted CredentialSource.clientName
      match source.persist m s.files with
      | (.error e, files) => (.failed "" [minted] (.ofClient e), { s with files })
      | (.ok (), files) =>
        ({ out := "generated\n", log := [minted] ++ source.persistedEvents ++ [generated] },
          { s with files })

/-- The reply of an operation whose value is only printed. -/
def printed {α : Type} (text : α → String) (log : List Event) : Except OperationError α → Reply
  | .ok a => { out := text a, log }
  | .error e => .failed "" log (.ofOperation e)

/-- Carries out one task with a configuration. -/
def perform (s : Surroundings σ) (c : Config) (json : Bool) : Task → Reply × Surroundings σ
  | .members =>
    s.operate c Workload.memberNames fun w names log =>
      printed (membersText json) ((if w.hasAccess then [] else [noAccess]) ++ log) names
  | .reconcile nodes =>
    let nodes := if nodes.isEmpty then c.cluster.nodes else nodes
    s.operate c (·.reconcile nodes) fun _ r log =>
      match r.error? with
      | none => { out := reportText json r, log }
      | some e =>
        .failed (reportText json r) log
          { message := "reconciliation finished with errors", causes := [e.message] }
  | .removeMember node =>
    s.operate c (·.removeMember node) fun _ r log =>
      printed (fun _ => "etcd member for " ++ node ++ " removed\n") log r
  | .forwardLeadership outgoing candidate =>
    let machine := fun (name : String) => some { name, node := some name : Machine }
    s.operate c (·.forwardLeadership (machine outgoing) (machine candidate)) fun _ r log =>
      printed (fun _ => "") log r
  | .generateCredentials => s.provision c

/-- Carries out a command line. -/
def run (s : Surroundings σ) (words : List String) : Reply × Surroundings σ :=
  match Order.parse words with
  | .error r => (.ofRefusal r, s)
  | .ok order =>
    match Config.load order.configPath s.files with
    | .error e => (.failed "" [] (.ofLoad e), s)
    | .ok c => s.perform c order.json order.task

end Surroundings

end QuorumKeeper.Operator
