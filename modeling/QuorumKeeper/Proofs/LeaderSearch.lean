import QuorumKeeper.Proofs.CandidateSearch

/-!
# The search for the leader

A candidate is asked over a connection of its own: one dial, one listing, and the connection is
closed. `Skips` says when the candidate is passed over and which error is recorded, `Settles` when
it ends the search and with which result. `leaderClient_yields_iff` says that the behaviours of the
search are those of a search through the candidates with these two, no more and no less. So the
exchanges of a run decide its result.
-/

set_option autoImplicit false

namespace QuorumKeeper

open Program

/-- The entry is the first of the list with the property. -/
def IsFirst {α : Type} (p : α → Prop) (l : List α) (x : α) : Prop :=
  p x ∧ ∃ before after, l = before ++ x :: after ∧ ∀ y ∈ before, ¬ p y

/-- An entry that no other one resembles in the property is the first, wherever it stands. -/
theorem isFirst_of_unique {α : Type} {p : α → Prop} {l : List α} {x : α} (hmem : x ∈ l) (hx : p x)
    (hunique : ∀ y ∈ l, p y → y = x) : IsFirst p l x := by
  obtain ⟨before, after, hl, hfresh⟩ := List.eq_append_cons_of_mem hmem
  refine ⟨hx, before, after, hl, ?_⟩
  intro y hbefore hy
  have hymem : y ∈ l := by
    rw [hl]
    exact List.mem_append_left _ hbefore
  exact hfresh (hunique y hymem hy ▸ hbefore)

namespace Member

/-- The member under an id is the first that has it. -/
theorem withId?_eq_some_iff {members : List Member} {id : UInt64} {m : Member} :
    withId? members id = some m ↔ IsFirst (fun x => x.id = id) members m := by
  simp only [IsFirst, withId?, List.find?_eq_some_iff_append, beq_iff_eq, Bool.not_eq_true',
    beq_eq_false_iff_ne, ne_eq]

/-- No member is found under an id that none has. -/
theorem withId?_eq_none_iff {members : List Member} {id : UInt64} :
    withId? members id = none ↔ ∀ m ∈ members, m.id ≠ id := by
  simp only [withId?, List.find?_eq_none, beq_iff_eq, ne_eq]

/-- The node of a member is the first whose name is within its own. -/
theorem nodeAmong_eq_some_iff {m : Member} {nodes : List String} {node : String} :
    m.nodeAmong nodes = some node ↔
      IsFirst (fun n => n.toList <:+: m.name.toList) nodes node := by
  simp only [IsFirst, nodeAmong, List.find?_eq_some_iff_append, isOn_iff, Bool.not_eq_true',
    ← Bool.not_eq_true]

/-- A member without a node has none of the names within its own. -/
theorem nodeAmong_eq_none_iff {m : Member} {nodes : List String} :
    m.nodeAmong nodes = none ↔ ∀ node ∈ nodes, ¬ node.toList <:+: m.name.toList := by
  simp only [nodeAmong, List.find?_eq_none, isOn_iff]

end Member

namespace ClientSearch

/-- What is exchanged with a candidate that can be dialed. -/
def asked (via : String) (client : Client) (listed : Except ClientError (List Member)) :
    List Exchange :=
  [⟨.create (etcdEndpoint via), .ok client⟩, ⟨.list client, listed⟩, ⟨.drop client, ()⟩]

/-- The candidate is asked in vain, and the error is recorded: it cannot be dialed, cannot list the
members, or reports a leader that its list lacks. -/
inductive Skips (via : String) : List Exchange → ClientError → Prop where
  | undialed {e : ClientError} (not_cancelled : e.isCancelled = false) :
      Skips via [⟨.create (etcdEndpoint via), .error e⟩] (.unreachable noNodeReachable [e])
  | unlisted (client : Client) {e : ClientError} (not_cancelled : e.isCancelled = false) :
      Skips via (asked via client (.error e)) e
  | leaderMissing (client : Client) {members : List Member}
      (missing : ∀ m ∈ members, m.id ≠ client.leader) :
      Skips via (asked via client (.ok members)) (.leaderNotMember client.leader)

/-- The candidate ends the search with this result: it was cancelled, or the leader is listed, and
either its name contains none of the nodes or the first node within its name is dialed. -/
inductive Settles (nodes : List String) (via : String) :
    List Exchange → Except ClientError Client → Prop where
  | dialCancelled {e : ClientError} (cancelled : e.isCancelled = true) :
      Settles nodes via [⟨.create (etcdEndpoint via), .error e⟩] (.error e)
  | listCancelled (client : Client) {e : ClientError} (cancelled : e.isCancelled = true) :
      Settles nodes via (asked via client (.error e)) (.error e)
  | leaderWithoutNode (client : Client) {members : List Member} {leader : Member}
      (listed : IsFirst (fun m => m.id = client.leader) members leader)
      (unhosted : ∀ node ∈ nodes, ¬ node.toList <:+: leader.name.toList) :
      Settles nodes via (asked via client (.ok members))
        (.error (.leaderWithoutNode client.leader leader.name))
  | resolved (client : Client) {members : List Member} {leader : Member} {node : String}
      {t : List Exchange} {v : Except ClientError Client}
      (listed : IsFirst (fun m => m.id = client.leader) members leader)
      (hosted : IsFirst (fun n => n.toList <:+: leader.name.toList) nodes node)
      (dialed : (firstAvailable [node]).Yields t v) :
      Settles nodes via (asked via client (.ok members) ++ t) v

/-- A search for the leader among the nodes makes these exchanges and gives this result. If all were
passed over, one leader that is missing from a list makes the failure an inconsistency. -/
def LeaderSearch (nodes : List String) : List Exchange → Except ClientError Client → Prop :=
  Searched Skips (Settles nodes)
    (fun errors =>
      if errors.any ClientError.isInconsistency then .inconsistent errors
      else .unreachable leaderUnreachable errors)
    nodes

/-! ## A single candidate -/

variable {via : String} {nodes : List String} {t : List Exchange}

/-- What a probe says about the exchanges with its candidate. -/
def Probe.Tells (nodes : List String) (via : String) (t : List Exchange) : Probe → Prop
  | .found client => Settles nodes via t (.ok client)
  | .skip e => Skips via t e
  | .fatal e => Settles nodes via t (.error e)

theorem Probe.ofFailure_fatal {e : ClientError} (he : e.isCancelled = true) :
    Probe.ofFailure e = .fatal e :=
  if_pos he

theorem Probe.ofFailure_skip {e : ClientError} (he : e.isCancelled = false) :
    Probe.ofFailure e = .skip e :=
  if_neg (by simp [he])

/-- A single failed dial is no cancellation of the search if the dial was not cancelled. -/
theorem unreachable_not_cancelled {e : ClientError} (he : e.isCancelled = false) :
    (ClientError.unreachable noNodeReachable [e]).isCancelled = false := by
  simp [ClientError.isCancelled, ClientError.anyCancelled, he]

/-- What following a leader tells of the candidate. -/
theorem followLeader_tells {client : Client} {members : List Member} {r : Probe}
    (h : (followLeader via nodes members client.leader).Yields t r) :
    r.Tells nodes via (asked via client (.ok members) ++ t) := by
  unfold followLeader at h
  cases hleader : Member.withId? members client.leader with
  | none =>
    simp only [hleader] at h
    obtain ⟨rfl, rfl⟩ := h
    rw [List.append_nil]
    exact .leaderMissing client (Member.withId?_eq_none_iff.1 hleader)
  | some leader =>
    have hfirst := Member.withId?_eq_some_iff.1 hleader
    cases hnode : leader.nodeAmong nodes with
    | none =>
      simp only [hleader, hnode] at h
      obtain ⟨rfl, rfl⟩ := h
      rw [List.append_nil, hfirst.1]
      exact .leaderWithoutNode client hfirst (Member.nodeAmong_eq_none_iff.1 hnode)
    | some node =>
      simp only [hleader, hnode] at h
      obtain ⟨t₁, found, t₂, rfl, hdial, h⟩ := yields_bind.1 (yields_report_bind.1 h)
      have hsettles : Settles nodes via (asked via client (.ok members) ++ t₁) found :=
        .resolved client hfirst (Member.nodeAmong_eq_some_iff.1 hnode) hdial
      cases found with
      | ok found =>
        obtain ⟨rfl, rfl⟩ := h
        rwa [List.append_nil]
      | error e =>
        obtain ⟨rfl, rfl⟩ := h
        rwa [List.append_nil]

/-- What a probe tells of the candidate. -/
theorem probe_tells {r : Probe} (h : (probe via nodes).Yields t r) : r.Tells nodes via t := by
  rw [probe, yields_bind] at h
  obtain ⟨t₁, found, t₂, rfl, hdial, h⟩ := h
  -- a candidate is dialed by a search among itself alone, which wraps the error of a failed dial
  rw [firstAvailable_single_yields_iff] at hdial
  rcases hdial with hdial | ⟨e, hmiss, rfl⟩
  · cases hdial with
    | connected client =>
      obtain ⟨listed, t₃, rfl, ⟨⟩, t₄, rfl, h⟩ := h
      cases listed with
      | ok members => exact followLeader_tells h
      | error e =>
        obtain ⟨rfl, rfl⟩ := h
        cases he : e.isCancelled with
        | true =>
          rw [Probe.ofFailure_fatal he]
          exact .listCancelled client he
        | false =>
          rw [Probe.ofFailure_skip he]
          exact .unlisted client he
    | @cancelled e he =>
      obtain ⟨rfl, rfl⟩ := h
      rw [Probe.ofFailure_fatal he]
      exact .dialCancelled he
  · cases hmiss with
    | dial he =>
      obtain ⟨rfl, rfl⟩ := h
      rw [Probe.ofFailure_skip (unreachable_not_cancelled he)]
      exact .undialed he

/-- A candidate that was dialed is asked for its members, whatever it answers. -/
theorem probe_yields_of_asked {client : Client} {listed : Except ClientError (List Member)}
    {r : Probe}
    (h : (match listed with
      | .error e => pure (.ofFailure e)
      | .ok members => followLeader via nodes members client.leader : Program Probe).Yields t r) :
    (probe via nodes).Yields (asked via client listed ++ t) r := by
  rw [probe, yields_bind]
  exact ⟨[_], _, _, rfl, single_yields_connected via client, listed, _, rfl, (), t, rfl, h⟩

/-- Every way of asking in vain is one of a probe. -/
theorem probe_yields_of_skips {e : ClientError} (h : Skips via t e) :
    (probe via nodes).Yields t (.skip e) := by
  cases h with
  | @undialed e he =>
    rw [probe, yields_bind]
    refine ⟨_, _, [], (List.append_nil _).symm, single_yields_missed via he, rfl, ?_⟩
    rw [Probe.ofFailure_skip (unreachable_not_cancelled he)]
  | unlisted client he =>
    refine probe_yields_of_asked ⟨rfl, ?_⟩
    rw [Probe.ofFailure_skip he]
  | leaderMissing client missing =>
    refine probe_yields_of_asked ?_
    simp only [followLeader, Member.withId?_eq_none_iff.2 missing]
    exact ⟨rfl, rfl⟩

/-- What a probe makes of the result of a candidate that ends the search. -/
def Probe.ofResult : Except ClientError Client → Probe
  | .ok client => .found client
  | .error e => .fatal e

/-- Every way of settling the search is one of a probe. -/
theorem probe_yields_of_settles {v : Except ClientError Client} (h : Settles nodes via t v) :
    (probe via nodes).Yields t (.ofResult v) := by
  cases h with
  | @dialCancelled e he =>
    rw [probe, yields_bind]
    refine ⟨_, _, [], (List.append_nil _).symm, single_yields_cancelled via he, rfl, ?_⟩
    exact (Probe.ofFailure_fatal he).symm
  | listCancelled client he =>
    refine probe_yields_of_asked ⟨rfl, ?_⟩
    exact (Probe.ofFailure_fatal he).symm
  | leaderWithoutNode client listed unhosted =>
    refine probe_yields_of_asked ?_
    simp only [followLeader, Member.withId?_eq_some_iff.2 listed,
      Member.nodeAmong_eq_none_iff.2 unhosted, listed.1]
    exact ⟨rfl, rfl⟩
  | resolved client listed hosted dialed =>
    refine probe_yields_of_asked ?_
    simp only [followLeader, Member.withId?_eq_some_iff.2 listed,
      Member.nodeAmong_eq_some_iff.2 hosted]
    refine yields_report_bind.2 (yields_bind.2 ⟨_, _, [], (List.append_nil _).symm, dialed, ?_⟩)
    cases v with
    | ok found => exact ⟨rfl, rfl⟩
    | error e => exact ⟨rfl, rfl⟩

/-! ## All candidates -/

/-- The first candidate settles the search, or it is passed over and the others are asked. -/
theorem probeEach_cons_yields_iff (via : String) (rest : List String)
    (failures : List ClientError) (t : List Exchange) (v : Except ClientError Client) :
    (probeEach nodes (via :: rest) failures).Yields t v ↔
      Settles nodes via t v ∨ ∃ e t₁ t₂, t = t₁ ++ t₂ ∧ Skips via t₁ e ∧
        (probeEach nodes rest (failures ++ [e])).Yields t₂ v := by
  rw [probeEach, yields_bind]
  constructor
  · rintro ⟨t₁, r, t₂, rfl, hprobe, h⟩
    have htells := probe_tells hprobe
    cases r with
    | found client =>
      obtain ⟨rfl, rfl⟩ := h
      rw [List.append_nil]
      exact Or.inl htells
    | skip e => exact Or.inr ⟨e, t₁, t₂, rfl, htells, h⟩
    | fatal e =>
      obtain ⟨rfl, rfl⟩ := h
      rw [List.append_nil]
      exact Or.inl htells
  · rintro (h | ⟨e, t₁, t₂, rfl, hskip, h⟩)
    · refine ⟨t, .ofResult v, [], (List.append_nil t).symm, probe_yields_of_settles h, ?_⟩
      cases v with
      | ok client => exact ⟨rfl, rfl⟩
      | error e => exact ⟨rfl, rfl⟩
    · exact ⟨t₁, .skip e, t₂, rfl, probe_yields_of_skips hskip, h⟩

/-- Among some nodes, a search for the leader behaves exactly as described. -/
theorem leaderClient_yields_iff {v : Except ClientError Client} (hnodes : nodes ≠ []) :
    (leaderClient nodes).Yields t v ↔ LeaderSearch nodes t v := by
  have hsome : nodes.isEmpty = false := by simpa using hnodes
  simp only [leaderClient, hsome, Bool.false_eq_true, if_false]
  refine searched_iff (fun failures => ?_) probeEach_cons_yields_iff
  unfold probeEach exhausted
  split <;> rfl

end ClientSearch

/-- Against any world, the exchanges of a search for the leader among one or more nodes follow the
contract, and the contract leaves its result no choice. -/
theorem leader_search_follows_contract {σ : Type} (world : World σ) (s : Situation σ)
    (first : String) (others : List String) (v : Except ClientError Client) :
    ClientSearch.LeaderSearch (first :: others)
        ((ClientSearch.leaderClient (first :: others)).run world s).trace v ↔
      ((ClientSearch.leaderClient (first :: others)).run world s).value = v := by
  have hyields := yields_run world (ClientSearch.leaderClient (first :: others)) s
  have hnodes : first :: others ≠ [] := List.cons_ne_nil first others
  constructor
  · -- two behaviours with the same exchanges give the same value
    intro h
    exact hyields.unique ((ClientSearch.leaderClient_yields_iff hnodes).2 h)
  · rintro rfl
    exact (ClientSearch.leaderClient_yields_iff hnodes).1 hyields

end QuorumKeeper
