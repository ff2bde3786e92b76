import QuorumKeeper.Proofs.ClusterHistories
import QuorumKeeper.Proofs.Handovers

/-!
# Listing the members of a cluster in memory

A listing reaches the leader over the nodes of an inventory, and what it answers comes from the
cluster alone. Over one cluster the search can dial other nodes for every inventory, in any order
and up to any failure; `Cluster.Listed` says what holds of the listing all the same: names that it
returns are those of the members, and the cluster is left with further dials and no other change.

Nothing else changes, since the exchanges of a listing change nothing (`Replays.core_eq`), and since
proper conduct closes what it opens: along its exchanges the count of open connections follows the
standing (`Cluster.openCount_run`).
-/

set_option autoImplicit false

namespace QuorumKeeper

open Program Trace

/-! ## Exchanges of a listing -/

namespace Workload

variable {w : Workload} {client : Client} {t : List Exchange} {names : List String}

/-- Names over a connection come from the one list that was asked for. -/
theorem listNames_yields_ok (h : (listNames client).Yields t (.ok names)) :
    ∃ members, t = [⟨.list client, .ok members⟩] ∧ names = members.map Member.name := by
  rw [listNames, listMembers_bind_yields_iff] at h
  case hstops =>
    intro e
    rfl
  obtain ⟨e, -, hv⟩ | ⟨members, t, rfl, rfl, hv⟩ := h
  · cases hv
  · cases hv
    exact ⟨members, rfl, rfl⟩

/-- Where there is access, names are listed over a connection that was searched for and is
closed. -/
theorem memberNames_yields_ok (access : w.hasAccess = true)
    (h : w.memberNames.Yields t (.ok names)) :
    ∃ known t₁ client members, (ClientSearch.leaderClient known).Yields t₁ (.ok client) ∧
      t = ⟨.nodes, .ok known⟩ ::
        (t₁ ++ [⟨.list client, .ok members⟩] ++ [⟨.drop client, ()⟩]) ∧
      names = members.map Member.name := by
  rw [memberNames, if_pos access] at h
  cases withLeader_yields_iff.1 h with
  | connected search use =>
    obtain ⟨members, rfl, rfl⟩ := listNames_yields_ok use
    exact ⟨_, _, _, members, search, rfl, rfl⟩

end Workload

namespace Cluster

variable {ι : Type} (read : ι → Except InventoryFailure (List String) × ι)

/-! ## The count of open connections -/

/-- A proper exchange keeps the count of open connections in step with the standing. -/
theorem openCount_step {st st' : Standing} {s : Situation (ι × Cluster)} {q : Request} {others : Nat}
    (h : st.Step ⟨q, ((worldWith read).answer s q).1⟩ st')
    (hcount : s.state.2.openCount = others + st.held.toList.length) :
    ((worldWith read).answer s q).2.state.2.openCount = others + st'.held.toList.length := by
  by_cases hcalls : ∀ client, q ≠ .drop client
  · obtain ⟨hclosed, hafter⟩ := openCount_answer read s hcalls
    have hbalance := congrArg List.length h.balance
    rw [hclosed, List.length_append, Option.toList_none, List.nil_append] at hbalance
    omega
  · push Not at hcalls
    obtain ⟨client, rfl⟩ := hcalls
    -- only the connection that is held is closed, so the count is not zero
    cases h with
    | called through => cases through
    | closed _ cancelled =>
      show s.state.2.openCount - 1 = others + 0
      rw [hcount]
      rfl

/-- Along a run of proper conduct the count of open connections follows the standing. -/
theorem openCount_run {α : Type} (p : Program α) {st st' : Standing}
    {s : Situation (ι × Cluster)} {others : Nat}
    (h : st.Follows (p.run (worldWith read) s).trace st')
    (hcount : s.state.2.openCount = others + st.held.toList.length) :
    (p.run (worldWith read) s).after.state.2.openCount = others + st'.held.toList.length := by
  induction p generalizing st s with
  | done a =>
    cases h with
    | nil => exact hcount
  | note e next ih => exact ih h hcount
  | ask q next ih =>
    cases h with
    | cons first rest => exact ih _ rest (openCount_step read first hcount)

/-- What conducts itself and holds no connection in the end leaves as many open as there were. -/
theorem openCount_of_conducts {α : Type} {p : Program α} {Q : α → Standing → Prop}
    (h : p.Conducts {} Q) (hfree : ∀ a st, Q a st → st.held = none)
    (s : Situation (ι × Cluster)) :
    (p.run (worldWith read) s).after.state.2.openCount = s.state.2.openCount := by
  obtain ⟨st, hfollows, hQ⟩ := h.run (worldWith read) s
  have hstart : s.state.2.openCount = s.state.2.openCount + (none : Option Client).toList.length :=
    rfl
  rw [openCount_run read p hfollows hstart, hfree _ st hQ]
  rfl

/-! ## What a listing reports and leaves -/

/-- The outcome is that of a listing over the cluster: names that are returned are those of all
members in the order of the cluster, nothing but the record of dials has changed, and every
connection is closed. -/
structure Listed (w : Workload) (c : Cluster)
    (o : Outcome (ι × Cluster) (Except OperationError (List String))) : Prop where
  names : w.hasAccess = true → ∀ names, o.value = .ok names → names = c.members.map Member.name
  unchanged : o.after.state.2 = { c with dials := o.after.state.2.dials }
  closed : alive o.trace = []

/-- A cluster that differs in its record of connections, but not in their number, differs in its
record of dials. -/
theorem eq_of_core {c c' : Cluster} (hcore : c'.core = c.core)
    (hcount : c'.openCount = c.openCount) : c' = { c with dials := c'.dials } := by
  calc c' = { c'.core with dials := c'.dials, openCount := c'.openCount } := rfl
    _ = { c.core with dials := c'.dials, openCount := c.openCount } := by rw [hcore, hcount]
    _ = { c with dials := c'.dials } := rfl

/-- Every call of the listing reports the cluster and leaves it alone. -/
theorem memberNames_listed (w : Workload) (s : Situation (ι × Cluster)) :
    Listed w s.state.2 (w.memberNames.run (worldWith read) s) where
  names := by
    intro access names hvalue
    have hyields := yields_run (worldWith read) w.memberNames s
    rw [hvalue] at hyields
    obtain ⟨known, t, client, members, hsearch, htrace, rfl⟩ :=
      Workload.memberNames_yields_ok access hyields
    have hreplay := replays_run read w.memberNames s
    rw [htrace] at hreplay
    obtain ⟨rfl, -⟩ := (hreplay.of_use (ClientSearch.leaderClient_quiet hsearch)).of_listing
    rfl
  unchanged := by
    have hquiet := (w.memberNames_isCareful.run (worldWith read) s).quiet
    refine eq_of_core ((replays_run read w.memberNames s).core_eq hquiet) ?_
    refine openCount_of_conducts read w.memberNames_conducts (fun v st hst => ?_) s
    rw [hst, Standing.ofResult_held]
  closed := by
    obtain ⟨st, hfollows, hst⟩ := w.memberNames_conducts.run (worldWith read) s
    rw [hfollows.alive, hst, Standing.ofResult_held]
    rfl

/-- A listing reports the cluster and not the inventory. Whatever inventory it reads, names that it
returns are those of all members in the order of the cluster, unnamed and repeated ones included; so
listings over the same members agree where both succeed, whatever their inventories are. Successful
or not, a listing changes nothing of the cluster but its record of dials, and leaves no connection
open. -/
theorem listings_agree {κ : Type} (read' : κ → Except InventoryFailure (List String) × κ)
    (w w' : Workload) (s : Situation (ι × Cluster)) (s' : Situation (κ × Cluster)) :
    Listed w s.state.2 (w.memberNames.run (worldWith read) s) ∧
      (w.hasAccess = true → w'.hasAccess = true → s'.state.2.members = s.state.2.members →
        ∀ names names', (w.memberNames.run (worldWith read) s).value = .ok names →
          (w'.memberNames.run (worldWith read') s').value = .ok names' → names' = names) := by
  have hlisted := memberNames_listed read w s
  have hlisted' := memberNames_listed read' w' s'
  refine ⟨hlisted, fun access access' hsame names names' hvalue hvalue' => ?_⟩
  calc names' = s'.state.2.members.map Member.name := hlisted'.names access' names' hvalue'
    _ = s.state.2.members.map Member.name := by rw [hsame]
    _ = names := (hlisted.names access names hvalue).symm

/-- Three members, one of them unnamed and two of one name; one endpoint refuses connections and
another one cannot list. Two inventories, of different nodes in different orders, have the search
dial different endpoints, and both listings return the three names. -/
theorem listings_agree_over_two_inventories :
    let c : Cluster := {
      members := [{ id := 3, name := "node-b" }, { id := 1, name := "" },
        { id := 2, name := "node-b" }]
      leader := 3
      unreachable := [etcdEndpoint "node-a"]
      failingList := [etcdEndpoint "node-c"] }
    let w : Workload := { hasAccess := true }
    let o := w.memberNames.run world { state := ({ nodes := ["node-a", "node-c", "node-b"] }, c) }
    let o' := w.memberNames.run world { state := ({ nodes := ["node-x", "de-b"] }, c) }
    let names := ["node-b", "", "node-b"]
    w.hasAccess = true ∧ Listed w c o ∧ o.value = .ok names ∧ o'.value.isOk = true ∧
      (∀ names', o'.value = .ok names' → names' = names) ∧
      o.after.state.2.dials = ["etcd-node-a", "etcd-node-c", "etcd-node-b", "etcd-node-b"] ∧
      o'.after.state.2.dials = ["etcd-node-x", "etcd-de-b"] := by
  intro c w o o' names
  have haccess : w.hasAccess = true := rfl
  have hvalue : o.value = .ok names := by rfl
  obtain ⟨hlisted, hagree⟩ := listings_agree (fun inv : Inventory => (inv.read, inv))
    (fun inv : Inventory => (inv.read, inv)) w w
    { state := ({ nodes := ["node-a", "node-c", "node-b"] }, c) }
    { state := ({ nodes := ["node-x", "de-b"] }, c) }
  have hsame (names' : List String) (hvalue' : o'.value = .ok names') : names' = names :=
    hagree haccess haccess rfl names names' hvalue hvalue'
  exact ⟨haccess, hlisted, hvalue, by rfl, hsame, by rfl, by rfl⟩

end Cluster

end QuorumKeeper
