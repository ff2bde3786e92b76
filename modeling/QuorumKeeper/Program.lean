import QuorumKeeper.Error.Operation
import QuorumKeeper.Event
import QuorumKeeper.Member

/-!
# Operations as programs

An operation reads the node inventory, opens connections to etcd members, calls them and closes the
connections. `Program` is the tree of these requests: what is asked next depends on the answers so
far, and on nothing else. A `World` answers requests out of a state of its own; running a program
against it gives a value, the world's new state, and the `trace`, which is the list of all requests
with their answers in the order in which they were made. Nothing is assumed about a world, so a law
about all worlds is a law about every order of successes and failures.

Every connection gets a serial number of its own when it is opened. The number tells two connections
to one endpoint apart, and releasing a connection is a request like any other.
-/

set_option autoImplicit false

namespace QuorumKeeper

/-- An open connection to one member, with the leader that the member reported when it was
opened. -/
structure Client where
  serial : Nat
  endpoint : String
  leader : UInt64
  deriving DecidableEq, Repr

/-- What an operation can ask of the outside: the names of the control plane nodes; a connection to
an endpoint; and, over a connection, the list of members, the removal of one, the handover of
leadership to one, and its own end. -/
inductive Request where
  | nodes
  | create (endpoint : String)
  | list (client : Client)
  | remove (client : Client) (id : UInt64)
  | move (client : Client) (id : UInt64)
  | drop (client : Client)
  deriving DecidableEq, Repr

namespace Request

/-- The kind of answer to a request. -/
@[reducible] def Answer : Request → Type
  | nodes => Except InventoryFailure (List String)
  | create _ => Except ClientError Client
  | list _ => Except ClientError (List Member)
  | remove _ _ => Except ClientError Unit
  | move _ _ => Except ClientError Unit
  | drop _ => Unit

end Request

/-- A tree of requests: a value, a note for the log, or a request with a continuation for every
answer. -/
inductive Program (α : Type) : Type where
  | done (value : α) : Program α
  | note (event : Event) (next : Program α) : Program α
  | ask (q : Request) (next : q.Answer → Program α) : Program α

namespace Program

variable {α β : Type}

/-- Continue with a program that depends on the value. -/
protected def bind (p : Program α) (f : α → Program β) : Program β :=
  match p with
  | done a => f a
  | note e next => note e (next.bind f)
  | ask q next => ask q fun a => (next a).bind f

instance : Monad Program where
  pure := done
  bind := Program.bind

/-- Make one request. -/
def request (q : Request) : Program q.Answer :=
  ask q done

/-- Read the node inventory. -/
def nodes : Program (Except InventoryFailure (List String)) :=
  request .nodes

/-- Open a connection. -/
def create (endpoint : String) : Program (Except ClientError Client) :=
  request (.create endpoint)

/-- List the members. -/
def list (client : Client) : Program (Except ClientError (List Member)) :=
  request (.list client)

/-- Take a member out of the group. -/
def remove (client : Client) (id : UInt64) : Program (Except ClientError Unit) :=
  request (.remove client id)

/-- Hand leadership to a member. -/
def move (client : Client) (id : UInt64) : Program (Except ClientError Unit) :=
  request (.move client id)

/-- Close a connection. -/
def drop (client : Client) : Program Unit :=
  request (.drop client)

/-- Report an event. -/
def report (event : Event) : Program Unit :=
  note event (done ())

end Program

/-- Something that answers requests out of a state. A connection that is opened is described by the
leader its member reports; the serial number is given when the request is answered. -/
structure World (σ : Type) where
  nodes : σ → Except InventoryFailure (List String) × σ
  create : String → σ → Except ClientError UInt64 × σ
  list : Client → σ → Except ClientError (List Member) × σ
  remove : Client → UInt64 → σ → Except ClientError Unit × σ
  move : Client → UInt64 → σ → Except ClientError Unit × σ
  drop : Client → σ → σ

/-- A request with the answer it got. -/
structure Exchange where
  request : Request
  answer : request.Answer

/-- Where a run stands: the world's state and the serial number of the next connection. -/
structure Situation (σ : Type) where
  serial : Nat := 0
  state : σ

/-- What a run leaves behind. -/
structure Outcome (σ α : Type) where
  value : α
  after : Situation σ
  trace : List Exchange
  log : List Event

namespace World

variable {σ : Type}

/-- The answer to one request and the situation after it. -/
def answer (w : World σ) (s : Situation σ) : (q : Request) → q.Answer × Situation σ
  | .nodes =>
    let (a, state) := w.nodes s.state
    (a, { s with state })
  | .create endpoint =>
    match w.create endpoint s.state with
    | (.ok leader, state) => (.ok ⟨s.serial, endpoint, leader⟩, ⟨s.serial + 1, state⟩)
    | (.error e, state) => (.error e, { s with state })
  | .list client =>
    let (a, state) := w.list client s.state
    (a, { s with state })
  | .remove client id =>
    let (a, state) := w.remove client id s.state
    (a, { s with state })
  | .move client id =>
    let (a, state) := w.move client id s.state
    (a, { s with state })
  | .drop client => ((), { s with state := w.drop client s.state })

end World

namespace Program

variable {σ α β : Type}

/-- Runs a program against a world. -/
def run (w : World σ) : Program α → Situation σ → Outcome σ α
  | done a, s => ⟨a, s, [], []⟩
  | note e next, s =>
    let r := next.run w s
    { r with log := e :: r.log }
  | ask q next, s =>
    let (a, s') := w.answer s q
    let r := (next a).run w s'
    { r with trace := ⟨q, a⟩ :: r.trace }

end Program

end QuorumKeeper
