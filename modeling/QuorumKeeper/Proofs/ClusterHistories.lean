import QuorumKeeper.Proofs.ClusterTraces
import QuorumKeeper.Proofs.Connections
import QuorumKeeper.Proofs.MemberLists

/-!
# Histories of a cluster in memory

A cluster in memory is shared: connections are opened, used and closed in any order and by anybody,
and in between faults are put in, leaders are set and members join. `Cluster.History` has one
constructor for each of these happenings, with what it asks of the past: a connection is closed only
while it is open, and a member joins under an id that nobody had before. A history begins with the
making of the cluster and can stop anywhere, so what holds after every history holds at every
moment.

`Cluster.Roster` ties the members and the leader to the past, and `Cluster.Counts` the number of
open connections. Every happening keeps both, whatever anybody has seen or holds by then, and so
they hold after every history (`members_conserved`).
-/

set_option autoImplicit false

namespace QuorumKeeper

open Program Trace

namespace Cluster

/-! ## What happens to a cluster -/

/-- A change of the faults or of the leader that is made from outside. -/
inductive Change where
  | setUnreachable (endpoint : String)
  | setReachable (endpoint : String)
  | failList (endpoint : String)
  | failRemove (id : UInt64)
  | failMove (id : UInt64)
  | setLeader (id : UInt64)
  deriving DecidableEq, Repr

/-- The cluster after the change. -/
def Change.apply : Change → Cluster → Cluster
  | setUnreachable endpoint => Cluster.setUnreachable endpoint
  | setReachable endpoint => Cluster.setReachable endpoint
  | failList endpoint => Cluster.failList endpoint
  | failRemove id => Cluster.failRemove id
  | failMove id => Cluster.failMove id
  | setLeader id => Cluster.setLeader id

/-- Something that happens to a cluster: a request of somebody with its answer, a change of its
faults, or a member that joins at the end of the list. -/
inductive Happening where
  | exchange (x : Exchange)
  | change (change : Change)
  | join (m : Member)

namespace Happening

/-- The request that was made, with its answer. -/
def exchange? : Happening → Option Exchange
  | exchange x => some x
  | _ => none

/-- The member that has joined. -/
def joined? : Happening → Option Member
  | join m => some m
  | _ => none

/-- The id that was taken out. -/
def removed? : Happening → Option UInt64
  | exchange ⟨.remove _ id, .ok _⟩ => some id
  | _ => none

/-- The id that was made leader. -/
def leads? : Happening → Option UInt64
  | exchange ⟨.move _ id, .ok _⟩ => some id
  | change (.setLeader id) => some id
  | _ => none

end Happening

section Past

variable (members : List Member) (leader : UInt64) (past : List Happening) (h : Happening)

/-- The requests of the past. -/
def exchanges : List Exchange :=
  past.filterMap Happening.exchange?

/-- All members that there ever were, the first ones and those that have joined. -/
def everPresent : List Member :=
  members ++ past.filterMap Happening.joined?

/-- The ids that were taken out. -/
def taken : List UInt64 :=
  past.filterMap Happening.removed?

/-- Whoever was made leader last. -/
def lastLeader : UInt64 :=
  (past.filterMap Happening.leads?).getLast?.getD leader

/-- The connections that are open. -/
def opens : List Client :=
  alive (exchanges past)

theorem exchanges_concat : exchanges (past ++ [h]) = exchanges past ++ h.exchange?.toList := by
  cases hx : h.exchange? <;> simp [exchanges, hx]

theorem everPresent_concat :
    everPresent members (past ++ [h]) = everPresent members past ++ h.joined?.toList := by
  cases hx : h.joined? <;> simp [everPresent, hx]

theorem taken_concat : taken (past ++ [h]) = taken past ++ h.removed?.toList := by
  cases hx : h.removed? <;> simp [taken, hx]

theorem lastLeader_concat :
    lastLeader leader (past ++ [h]) = h.leads?.getD (lastLeader leader past) := by
  cases hx : h.leads? <;> simp [lastLeader, hx]

theorem opens_concat (x : Exchange) :
    opens (past ++ [.exchange x]) = x.aliveAfter (opens past) := by
  simp [opens, exchanges_concat, Happening.exchange?, alive]

end Past

section

variable {ι : Type} (read : ι → Except InventoryFailure (List String) × ι)
  (members : List Member) (leader : UInt64)

/-- After what has happened to a cluster that began with these members and this leader, the
situation can be this one. Calls go over any connection that there ever was; a connection is closed
while it is open; and a member that joins has an id that nobody had. -/
inductive History : List Happening → Situation (ι × Cluster) → Prop where
  | start (serial : Nat) (i : ι) : History [] ⟨serial, i, { members, leader }⟩
  | call {past : List Happening} {s : Situation (ι × Cluster)} (before : History past s)
      (q : Request) (calls : ∀ client, q ≠ .drop client) :
      History (past ++ [.exchange ⟨q, ((worldWith read).answer s q).1⟩])
        ((worldWith read).answer s q).2
  | close {past : List Happening} {s : Situation (ι × Cluster)} (before : History past s)
      (client : Client) (isOpen : client ∈ opens past) :
      History (past ++ [.exchange ⟨.drop client, ()⟩])
        ((worldWith read).answer s (.drop client)).2
  | change {past : List Happening} {s : Situation (ι × Cluster)} (before : History past s)
      (change : Change) :
      History (past ++ [.change change]) { s with state := (s.state.1, change.apply s.state.2) }
  | join {past : List Happening} {s : Situation (ι × Cluster)} (before : History past s)
      (m : Member) (fresh : ∀ other ∈ everPresent members past, other.id ≠ m.id) :
      History (past ++ [.join m]) { s with state := (s.state.1, s.state.2.addMember m) }

end

/-! ## Members and leader -/

/-- The members and the leader of a cluster agree with what has happened to it. No id was given
twice; the record of removals holds the ids that were taken out, in order, once each, and of members
only; the members are those that there ever were without these; and the leader is whoever was made
leader last. -/
structure Roster (members : List Member) (leader : UInt64) (past : List Happening)
    (c : Cluster) : Prop where
  distinct : DistinctIds (everPresent members past)
  recorded : c.removed = taken past
  known : c.removed ⊆ (everPresent members past).map Member.id
  once : c.removed.Nodup
  conserved : c.members = (everPresent members past).filter fun m => m.id ∉ c.removed
  led : c.leader = lastLeader leader past

variable {members : List Member} {leader : UInt64} {past : List Happening} {c c' : Cluster}
  {x : Exchange} {m : Member}

/-- At the start the roster is the members as they are. -/
theorem roster_start (h : DistinctIds members) :
    Roster members leader [] { members, leader } where
  distinct := by simpa [everPresent] using h
  recorded := rfl
  known := by simp
  once := List.nodup_nil
  conserved := by simp [everPresent]
  led := rfl

/-- The roster is kept by whatever leaves the members and the record of removals alone, if the
leader is the one it names or, without one, the old leader. -/
theorem Roster.keep (h : Roster members leader past c) {happening : Happening}
    (hjoined : happening.joined? = none) (hremoved : happening.removed? = none)
    (hmembers : c'.members = c.members) (hrecord : c'.removed = c.removed)
    (hleader : c'.leader = happening.leads?.getD c.leader) :
    Roster members leader (past ++ [happening]) c' := by
  have hever : everPresent members (past ++ [happening]) = everPresent members past := by
    rw [everPresent_concat, hjoined, Option.toList_none, List.append_nil]
  constructor
  · rw [hever]
    exact h.distinct
  · rw [hrecord, taken_concat, hremoved, Option.toList_none, List.append_nil]
    exact h.recorded
  · rw [hrecord, hever]
    exact h.known
  · rw [hrecord]
    exact h.once
  · rw [hmembers, hrecord, hever]
    exact h.conserved
  · rw [hleader, lastLeader_concat, h.led]

/-- A member is taken out. -/
theorem Roster.without (h : Roster members leader past c) {client : Client} {id : UInt64}
    (present : ∃ m ∈ c.members, m.id = id) :
    Roster members leader (past ++ [.exchange ⟨.remove client id, .ok ()⟩]) (c.without id) := by
  obtain ⟨m, hm, rfl⟩ := present
  rw [h.conserved, List.mem_filter, decide_eq_true_eq] at hm
  obtain ⟨hever, hstays⟩ := hm
  constructor
  · simpa [everPresent_concat, Happening.joined?] using h.distinct
  · simp [Cluster.without, taken_concat, Happening.removed?, h.recorded]
  · simp only [Cluster.without, everPresent_concat, Happening.joined?, Option.toList_none,
      List.append_nil, List.append_subset, List.cons_subset, List.nil_subset, and_true]
    exact ⟨h.known, List.mem_map_of_mem hever⟩
  · show (c.removed ++ [m.id]).Nodup
    rw [← List.concat_eq_append]
    exact h.once.concat hstays
  · simp only [Cluster.without, everPresent_concat, Happening.joined?, Option.toList_none,
      List.append_nil]
    rw [h.conserved, List.filter_filter]
    refine List.filter_congr fun other _ => ?_
    rw [Bool.eq_iff_iff]
    simp [and_comm]
  · simp [Cluster.without, lastLeader_concat, Happening.leads?, h.led]

/-- A member joins. -/
theorem Roster.join (h : Roster members leader past c)
    (fresh : ∀ other ∈ everPresent members past, other.id ≠ m.id) :
    Roster members leader (past ++ [.join m]) (c.addMember m) := by
  have hever : everPresent members (past ++ [.join m]) = everPresent members past ++ [m] := by
    rw [everPresent_concat]
    rfl
  have hnew : m.id ∉ (everPresent members past).map Member.id := by
    intro hid
    obtain ⟨other, hother, heq⟩ := List.mem_map.1 hid
    exact fresh other hother heq
  constructor
  · rw [hever, DistinctIds, List.map_append, List.map_singleton, ← List.concat_eq_append]
    exact h.distinct.concat hnew
  · simp [addMember, taken_concat, Happening.removed?, h.recorded]
  · rw [hever, List.map_append]
    exact List.subset_append_of_subset_left _ h.known
  · exact h.once
  · -- nobody was taken out under an id that nobody had
    have hstays : m.id ∉ c.removed := fun hid => hnew (h.known hid)
    have hlast : [m].filter (fun m => m.id ∉ c.removed) = [m] := by simp [hstays]
    show c.members ++ [m] = _
    rw [hever, List.filter_append, h.conserved]
    exact congrArg _ hlast.symm
  · simp [addMember, lastLeader_concat, Happening.leads?, h.led]

/-- An exchange keeps the roster in step with the members. -/
theorem Roster.gives (h : Roster members leader past c) (gives : c.Gives x c') :
    Roster members leader (past ++ [.exchange x]) c' := by
  cases gives with
  | nodes answer => exact h.keep rfl rfl rfl rfl rfl
  | refused down => exact h.keep rfl rfl rfl rfl rfl
  | opened up reached leader => exact h.keep rfl rfl rfl rfl rfl
  | unlisted mute => exact h.keep rfl rfl rfl rfl rfl
  | listed lists => exact h.keep rfl rfl rfl rfl rfl
  | unhealthy stuck => exact h.keep rfl rfl rfl rfl rfl
  | unknown free absent => exact h.keep rfl rfl rfl rfl rfl
  | removed free present => exact h.without present
  | stayed stuck => exact h.keep rfl rfl rfl rfl rfl
  | moved free => exact h.keep rfl rfl rfl rfl rfl
  | closed client => exact h.keep rfl rfl rfl rfl rfl

/-- A change from outside keeps the roster in step with the members. -/
theorem Roster.change (h : Roster members leader past c) (change : Change) :
    Roster members leader (past ++ [.change change]) (change.apply c) := by
  cases change with
  | setUnreachable endpoint => exact h.keep rfl rfl rfl rfl rfl
  | setReachable endpoint => exact h.keep rfl rfl rfl rfl rfl
  | failList endpoint => exact h.keep rfl rfl rfl rfl rfl
  | failRemove id => exact h.keep rfl rfl rfl rfl rfl
  | failMove id => exact h.keep rfl rfl rfl rfl rfl
  | setLeader id => exact h.keep rfl rfl rfl rfl rfl

/-- The roster speaks of nothing that is left out of the core. -/
theorem roster_core : Roster members leader past c.core ↔ Roster members leader past c :=
  ⟨fun h => ⟨h.distinct, h.recorded, h.known, h.once, h.conserved, h.led⟩,
    fun h => ⟨h.distinct, h.recorded, h.known, h.once, h.conserved, h.led⟩⟩

/-! ## Connections -/

/-- The open connections of a cluster agree with what has happened to it: they are counted, and
every connection that was opened is closed or counted. -/
structure Counts (past : List Happening) (c : Cluster) : Prop where
  counted : c.openCount = (opens past).length
  balanced : (closed (exchanges past)).length + c.openCount = (opened (exchanges past)).length

/-- At the start no connection is open. -/
theorem counts_start (members : List Member) (leader : UInt64) :
    Counts [] { members, leader } where
  counted := rfl
  balanced := rfl

/-- What is neither opened nor closed leaves the count as it is. -/
theorem Counts.keep (h : Counts past c) {happening : Happening}
    (hnone : happening.exchange? = none) (hcount : c'.openCount = c.openCount) :
    Counts (past ++ [happening]) c' := by
  have hsame : exchanges (past ++ [happening]) = exchanges past := by
    rw [exchanges_concat, hnone, Option.toList_none, List.append_nil]
  constructor
  · rw [opens, hsame, hcount]
    exact h.counted
  · rw [hsame, hcount]
    exact h.balanced

/-- An exchange that closes nothing adds to the count what it opens. -/
theorem Counts.call (h : Counts past c) (hopen : x.closed? = none)
    (hcount : c'.openCount = c.openCount + x.opened?.toList.length) :
    Counts (past ++ [.exchange x]) c' := by
  constructor
  · simp only [opens_concat, Exchange.aliveAfter, hopen, List.length_append, hcount, h.counted]
  · have hbalanced := h.balanced
    have hclosed : closed (exchanges (past ++ [.exchange x])) = closed (exchanges past) := by
      simp [exchanges_concat, Happening.exchange?, closed, hopen]
    have hopened : (opened (exchanges (past ++ [.exchange x]))).length =
        (opened (exchanges past)).length + x.opened?.toList.length := by
      cases hx : x.opened? <;> simp [exchanges_concat, Happening.exchange?, opened, hx]
    rw [hclosed, hopened, hcount]
    omega

/-- Closing what is open takes one from the count, which is not zero. -/
theorem Counts.close (h : Counts past c) {client : Client} (isOpen : client ∈ opens past) :
    Counts (past ++ [.exchange ⟨.drop client, ()⟩]) (c.drop client) := by
  have hpositive : 0 < (opens past).length := List.length_pos_of_mem isOpen
  have hcounted := h.counted
  constructor
  · simp only [opens_concat, Exchange.aliveAfter, Exchange.closed?, List.length_erase_of_mem isOpen,
      Cluster.drop, hcounted]
  · have hbalanced := h.balanced
    have hclosed : (closed (exchanges (past ++ [.exchange ⟨.drop client, ()⟩]))).length =
        (closed (exchanges past)).length + 1 := by
      simp [exchanges_concat, Happening.exchange?, closed, Exchange.closed?]
    have hopened : opened (exchanges (past ++ [.exchange ⟨.drop client, ()⟩])) =
        opened (exchanges past) := by
      simp [exchanges_concat, Happening.exchange?, opened, Exchange.opened?]
    have hcount : (c.drop client).openCount = c.openCount - 1 := rfl
    rw [hopened, hclosed, hcount]
    omega

/-! ## Answers -/

variable {ι : Type} (read : ι → Except InventoryFailure (List String) × ι)

/-- A request that closes no connection adds what it opens to the count. -/
theorem openCount_answer (s : Situation (ι × Cluster)) {q : Request}
    (calls : ∀ client, q ≠ .drop client) :
    Exchange.closed? ⟨q, ((worldWith read).answer s q).1⟩ = none ∧
      ((worldWith read).answer s q).2.state.2.openCount = s.state.2.openCount +
        (Exchange.opened? ⟨q, ((worldWith read).answer s q).1⟩).toList.length := by
  cases q with
  | nodes => exact ⟨rfl, rfl⟩
  | create endpoint =>
    by_cases hdown : endpoint ∈ s.state.2.unreachable
    · simp [World.answer, Store.worldWith, store, create, hdown, Exchange.opened?, Exchange.closed?]
    · simp [World.answer, Store.worldWith, store, create, hdown, Exchange.opened?, Exchange.closed?]
  | list client =>
    refine ⟨rfl, ?_⟩
    simp only [World.answer, Store.worldWith, store, list_eq]
    rfl
  | remove client id =>
    refine ⟨rfl, ?_⟩
    simp only [World.answer, Store.worldWith, store, remove]
    split
    · rfl
    · split <;> rfl
  | move client id =>
    refine ⟨rfl, ?_⟩
    simp only [World.answer, Store.worldWith, store, move]
    split <;> rfl
  | drop client => exact absurd rfl (calls client)

/-- A request that fails leaves the cluster as it was, but for the record of dials. -/
theorem state_of_error (s : Situation (ι × Cluster)) {q : Request} {e : ClientError}
    (h : Exchange.error? ⟨q, ((worldWith read).answer s q).1⟩ = some e) :
    ((worldWith read).answer s q).2.state.2 =
      { s.state.2 with dials := s.state.2.dials ++ q.dials?.toList } := by
  cases q with
  | nodes => cases h
  | create endpoint =>
    by_cases hdown : endpoint ∈ s.state.2.unreachable
    · simp [World.answer, Store.worldWith, store, create, hdown, Request.dials?]
    · simp [World.answer, Store.worldWith, store, create, hdown, Exchange.error?] at h
  | list client => simp [World.answer, Store.worldWith, store, list_eq, Request.dials?]
  | remove client id =>
    by_cases hstuck : id ∈ s.state.2.failingRemove
    · simp [World.answer, Store.worldWith, store, remove, hstuck, Request.dials?]
    · by_cases hany : ∃ m ∈ s.state.2.members, m.id = id
      · simp [World.answer, Store.worldWith, store, remove, hstuck, hany, Exchange.error?] at h
      · simp [World.answer, Store.worldWith, store, remove, hstuck, hany, Request.dials?]
  | move client id =>
    by_cases hstuck : id ∈ s.state.2.failingMove
    · simp [World.answer, Store.worldWith, store, move, hstuck, Request.dials?]
    · simp [World.answer, Store.worldWith, store, move, hstuck, Exchange.error?] at h
  | drop client => cases h

/-! ## All histories -/

/-- Every happening keeps the account of members, leader and connections. -/
theorem History.accounts {past : List Happening} {s : Situation (ι × Cluster)}
    (h : History read members leader past s) (hids : DistinctIds members) :
    Roster members leader past s.state.2 ∧ Counts past s.state.2 := by
  induction h with
  | start serial i => exact ⟨roster_start hids, counts_start members leader⟩
  | @call past s before q calls ih =>
    obtain ⟨hroster, hcounts⟩ := ih
    obtain ⟨hclosed, hcount⟩ := openCount_answer read s calls
    refine ⟨roster_core.1 ?_, hcounts.call hclosed hcount⟩
    exact (roster_core.2 hroster).gives (gives_answer read s q)
  | @close past s before client isOpen ih =>
    obtain ⟨hroster, hcounts⟩ := ih
    refine ⟨roster_core.1 ?_, hcounts.close isOpen⟩
    exact (roster_core.2 hroster).gives (gives_answer read s (.drop client))
  | change before change ih =>
    obtain ⟨hroster, hcounts⟩ := ih
    refine ⟨hroster.change change, hcounts.keep rfl ?_⟩
    cases change <;> rfl
  | join before m fresh ih =>
    obtain ⟨hroster, hcounts⟩ := ih
    exact ⟨hroster.join fresh, hcounts.keep rfl rfl⟩

/-- Whoever opens, uses and closes connections, in whatever order, and whatever faults are put in
and whoever joins in between: the members are those that there ever were without those taken out,
nobody is taken out twice, the leader is whoever was made leader last, the open connections are
counted, and a request that fails changes nothing but the record of dials. -/
theorem members_conserved {past : List Happening} {s : Situation (ι × Cluster)}
    (hids : DistinctIds members) (h : History read members leader past s) :
    Roster members leader past s.state.2 ∧ Counts past s.state.2 ∧
      (∀ client ∈ opens past, 0 < s.state.2.openCount) ∧
      ∀ q e, Exchange.error? ⟨q, ((worldWith read).answer s q).1⟩ = some e →
        ((worldWith read).answer s q).2.state.2 =
          { s.state.2 with dials := s.state.2.dials ++ q.dials?.toList } := by
  obtain ⟨hroster, hcounts⟩ := h.accounts read hids
  refine ⟨hroster, hcounts, fun client hclient => ?_, fun q e he => state_of_error read s he⟩
  rw [hcounts.counted]
  exact List.length_pos_of_mem hclient

/-- Two connections are open when a member is taken out over one of them and then, in vain, over the
other; a third member joins and is made leader, and the first connection is closed. -/
theorem members_conserved_over_two_connections :
    let members : List Member := [{ id := 1, name := "etcd-a" }, { id := 2, name := "etcd-b" }]
    let read : Unit → Except InventoryFailure (List String) × Unit := fun i => (.ok [], i)
    DistinctIds members ∧ ∃ past s, History read members 1 past s ∧
      Roster members 1 past s.state.2 ∧ Counts past s.state.2 ∧
      s.state.2.members.map Member.id = [1, 3] ∧ s.state.2.removed = [2] ∧
      s.state.2.leader = 3 ∧ s.state.2.openCount = 1 := by
  intro members read
  let first : Client := ⟨0, "etcd-a", 1⟩
  let second : Client := ⟨1, "etcd-b", 1⟩
  have hids : DistinctIds members := by decide
  have h₀ : History read members 1 [] _ := .start 0 ()
  have h₁ := (h₀.call (.create "etcd-a") nofun).call (.create "etcd-b") nofun
  have h₂ := (h₁.change (.failMove 2)).call (.remove first 2) nofun
  have h₃ := h₂.call (.remove second 2) nofun
  have h₄ := h₃.join { id := 3, name := "etcd-c" } (by decide)
  have h₅ := (h₄.call (.move second 3) nofun).close first (by decide)
  obtain ⟨hroster, hcounts, -, -⟩ := members_conserved read hids h₅
  exact ⟨hids, _, _, h₅, hroster, hcounts, by decide, by decide, by decide, by decide⟩

end Cluster

end QuorumKeeper
