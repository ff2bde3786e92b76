import QuorumKeeper.Store.Basic

/-!
# Endpoints that follow a script

Every endpoint has a member list and a leader of its own, and for each kind of call a queue of what
the next calls do: fail with a given error, or succeed. An empty queue means success from then on.
-/

set_option autoImplicit false

namespace QuorumKeeper

/-- What the next calls of one kind do, nearest first; `none` is a success. -/
abbrev Script := List (Option ClientError)

/-- The kinds of call that a script can make fail. -/
inductive CallKind where
  | create
  | list
  | remove
  | move
  deriving DecidableEq, Repr

/-- One endpoint. -/
structure ScriptedEndpoint where
  members : List Member := []
  leader : UInt64 := 0
  create : Script := []
  list : Script := []
  remove : Script := []
  move : Script := []
  deriving Inhabited

namespace ScriptedEndpoint

/-- The script for one kind of call. -/
def script (e : ScriptedEndpoint) : CallKind → Script
  | .create => e.create
  | .list => e.list
  | .remove => e.remove
  | .move => e.move

/-- The endpoint after one more call of a kind. -/
def advance (e : ScriptedEndpoint) : CallKind → ScriptedEndpoint
  | .create => { e with create := e.create.tail }
  | .list => { e with list := e.list.tail }
  | .remove => { e with remove := e.remove.tail }
  | .move => { e with move := e.move.tail }

end ScriptedEndpoint

/-- Endpoints by name. -/
abbrev ScriptedStore := List (String × ScriptedEndpoint)

namespace ScriptedStore

/-- One call: the endpoint's script moves on, and on success the endpoint gives a value and may
change. An endpoint outside the table cannot be reached. -/
def call {α : Type} (endpoint : String) (kind : CallKind)
    (act : ScriptedEndpoint → α × ScriptedEndpoint) (s : ScriptedStore) :
    Except ClientError α × ScriptedStore :=
  match s with
  | [] => (.error (.connect endpoint "no such host"), [])
  | (name, e) :: rest =>
    if name = endpoint then
      let next := e.advance kind
      match e.script kind with
      | some err :: _ => (.error err, (name, next) :: rest)
      | _ =>
        let (a, next) := act next
        (.ok a, (name, next) :: rest)
    else
      let (a, rest) := call endpoint kind act rest
      (a, (name, e) :: rest)

/-- The scripted endpoints as a store. -/
def store : Store ScriptedStore where
  create endpoint := call endpoint .create fun e => (e.leader, e)
  list client := call client.endpoint .list fun e => (e.members, e)
  remove client id := call client.endpoint .remove fun e =>
    ((), { e with members := e.members.filter (·.id != id) })
  move client id := call client.endpoint .move fun e => ((), { e with leader := id })
  drop _ s := s

end ScriptedStore

end QuorumKeeper
