import QuorumKeeper.Member
import QuorumKeeper.Wire.Schema

/-!
# The messages of the membership calls

The part of etcd's interface that is needed to list members, to remove one, to learn the leader and
to hand leadership over, with the numbers of the fields.
-/

set_option autoImplicit false

namespace QuorumKeeper.Wire

/-- What every answer says about the cluster. -/
structure ResponseHeader where
  clusterId : UInt64 := 0
  memberId : UInt64 := 0
  revision : Int64 := 0
  raftTerm : UInt64 := 0
  deriving DecidableEq, Inhabited

/-- Asks for the members. -/
structure MemberListRequest where
  linearizable : Bool := false
  deriving DecidableEq, Inhabited

/-- The members. -/
structure MemberListResponse where
  header : Option ResponseHeader := none
  members : List Member := []
  deriving DecidableEq, Inhabited

/-- Asks for the removal of a member. -/
structure MemberRemoveRequest where
  id : UInt64 := 0
  deriving DecidableEq, Inhabited

/-- The members that are left. -/
structure MemberRemoveResponse where
  header : Option ResponseHeader := none
  members : List Member := []
  deriving DecidableEq, Inhabited

/-- Asks for the state of a member. -/
structure StatusRequest where
  deriving DecidableEq, Inhabited

/-- The state of a member. -/
structure StatusResponse where
  header : Option ResponseHeader := none
  version : String := ""
  dbSize : Int64 := 0
  leader : UInt64 := 0
  raftIndex : UInt64 := 0
  raftTerm : UInt64 := 0
  raftAppliedIndex : UInt64 := 0
  errors : List String := []
  dbSizeInUse : Int64 := 0
  isLearner : Bool := false
  deriving DecidableEq, Inhabited

/-- Asks to hand leadership over. -/
structure MoveLeaderRequest where
  targetId : UInt64 := 0
  deriving DecidableEq, Inhabited

/-- Leadership was handed over. -/
structure MoveLeaderResponse where
  header : Option ResponseHeader := none
  deriving DecidableEq, Inhabited

/-- The schema of an answer's header. -/
def responseHeader : Schema ResponseHeader where
  empty := {}
  fields := [
    .word 1 ResponseHeader.clusterId fun m v => { m with clusterId := v },
    .word 2 ResponseHeader.memberId fun m v => { m with memberId := v },
    .signed 3 ResponseHeader.revision fun m v => { m with revision := v },
    .word 4 ResponseHeader.raftTerm fun m v => { m with raftTerm := v }]

/-- The schema of a member. Its fields are those of the `Member`s that the operations work on, so a
listed member is read straight into one. -/
def member : Schema Member where
  empty := { id := 0, name := "" }
  fields := [
    .word 1 Member.id fun m v => { m with id := v },
    .text 2 Member.name fun m v => { m with name := v },
    .texts 3 Member.peerUrls fun m v => { m with peerUrls := v },
    .texts 4 Member.clientUrls fun m v => { m with clientUrls := v },
    .flag 5 Member.isLearner fun m v => { m with isLearner := v }]

/-- The schema of the request to list members. -/
def memberListRequest : Schema MemberListRequest where
  empty := {}
  fields := [.flag 1 MemberListRequest.linearizable fun m v => { m with linearizable := v }]

/-- The schema of the list of members. -/
def memberListResponse : Schema MemberListResponse where
  empty := {}
  fields := [
    .message 1 responseHeader MemberListResponse.header fun m v => { m with header := v },
    .messages 2 member MemberListResponse.members fun m v => { m with members := v }]

/-- The schema of the request to remove a member. -/
def memberRemoveRequest : Schema MemberRemoveRequest where
  empty := {}
  fields := [.word 1 MemberRemoveRequest.id fun m v => { m with id := v }]

/-- The schema of the answer to the removal of a member. -/
def memberRemoveResponse : Schema MemberRemoveResponse where
  empty := {}
  fields := [
    .message 1 responseHeader MemberRemoveResponse.header fun m v => { m with header := v },
    .messages 2 member MemberRemoveResponse.members fun m v => { m with members := v }]

/-- The schema of the request for the state of a member. -/
def statusRequest : Schema StatusRequest where
  empty := {}
  fields := []

/-- The schema of the state of a member. -/
def statusResponse : Schema StatusResponse where
  empty := {}
  fields := [
    .message 1 responseHeader StatusResponse.header fun m v => { m with header := v },
    .text 2 StatusResponse.version fun m v => { m with version := v },
    .signed 3 StatusResponse.dbSize fun m v => { m with dbSize := v },
    .word 4 StatusResponse.leader fun m v => { m with leader := v },
    .word 5 StatusResponse.raftIndex fun m v => { m with raftIndex := v },
    .word 6 StatusResponse.raftTerm fun m v => { m with raftTerm := v },
    .word 7 StatusResponse.raftAppliedIndex fun m v => { m with raftAppliedIndex := v },
    .texts 8 StatusResponse.errors fun m v => { m with errors := v },
    .signed 9 StatusResponse.dbSizeInUse fun m v => { m with dbSizeInUse := v },
    .flag 10 StatusResponse.isLearner fun m v => { m with isLearner := v }]

/-- The schema of the request to hand leadership over. -/
def moveLeaderRequest : Schema MoveLeaderRequest where
  empty := {}
  fields := [.word 1 MoveLeaderRequest.targetId fun m v => { m with targetId := v }]

/-- The schema of the answer to handing leadership over. -/
def moveLeaderResponse : Schema MoveLeaderResponse where
  empty := {}
  fields := [
    .message 1 responseHeader MoveLeaderResponse.header fun m v => { m with header := v }]

end QuorumKeeper.Wire
