import QuorumKeeper.Config.Access
import QuorumKeeper.Proofs.Conduct
import QuorumKeeper.Proofs.ConfigValues
import QuorumKeeper.Proofs.ErrorTrees
import QuorumKeeper.Proofs.ReconcileReports

/-!
# Accepted configurations and mistakes of the caller

A search for a member to talk to must not be asked for among no nodes at all; that is a mistake of
its caller, and an error of its own. An accepted configuration excludes it: at least one node has to
remain (`Config.sound_of_parse`), so the guard leaves a node wherever it lets a removal pass.

The operations are written once more over any search (`Workload.removeMemberOver` and the others).
They are the same programs over every search that treats some nodes as `firstAvailable` does, so it
is of no account what a search among no nodes would do (`Workload.removeMemberOver_eq`,
`Workload.reconcileOver_eq`). And an error that blames a caller is reported only if it stands in
an answer of the outside (`Workload.Attempt.received`).
-/

set_option autoImplicit false

namespace QuorumKeeper

open Program ClientSearch

/-! ## What is accepted -/

/-- The duration is longer than nothing. -/
def Duration.Positive (d : Duration) : Prop :=
  0 < d.seconds ∨ 0 < d.nanos

theorem Duration.positive_of_isZero {d : Duration} (h : d.isZero = false) : d.Positive := by
  unfold Duration.Positive
  simp only [Duration.isZero, Bool.and_eq_false_iff, beq_eq_false_iff_ne] at h
  omega

namespace EtcdConfig

/-- A timeout that is accepted is no empty span. -/
theorem timeout_positive {field text : String} {d : Duration} (h : timeout field text = .ok d) :
    d.Positive := by
  unfold timeout at h
  split at h
  · cases h
  · split at h
    · cases h
    · rename_i hzero
      cases h
      exact Duration.positive_of_isZero (by simpa using hzero)

/-- Both timeouts are durations that are longer than nothing. -/
structure Timed (c : EtcdConfig) : Prop where
  dial : ∃ d, c.dialDuration = .ok d ∧ d.Positive
  call : ∃ d, c.callDuration = .ok d ∧ d.Positive

end EtcdConfig

namespace Config

/-- At least one node has to remain, and the timeouts can be used. -/
structure Sound (c : Config) : Prop where
  minimum : 1 ≤ c.cluster.minimum
  timed : ∀ etcd, c.etcd = some etcd → etcd.Timed

/-- A configuration that passes the check is sound. -/
theorem sound_of_check {c : Config} (h : c.check = .ok ()) : c.Sound := by
  unfold check at h
  split at h
  · cases h
  · rename_i hminimum
    refine ⟨Nat.pos_of_ne_zero hminimum, fun etcd hetcd => ?_⟩
    simp only [hetcd, bind_eq_ok_iff] at h
    obtain ⟨dial, hdial, call, hcall, -⟩ := h
    exact ⟨⟨dial, hdial, EtcdConfig.timeout_positive hdial⟩,
      ⟨call, hcall, EtcdConfig.timeout_positive hcall⟩⟩

/-- A configuration that is accepted is sound. -/
theorem sound_of_parse {text : String} {c : Config} (h : parse text = .ok c) : c.Sound := by
  obtain ⟨entries, -, -, hcheck⟩ := parse_eq_ok_iff.1 h
  exact sound_of_check hcheck

end Config

/-- Why there are no TLS settings: the credentials cannot be loaded, were never made, or cannot be
used. -/
inductive CredentialFault (source : CredentialSource) (t : FileTree) : AccessError → Prop where
  | unloaded {e : ClientError} (failed : source.lookup t = .error e) :
      CredentialFault source t (.client e)
  | missing (absent : source.lookup t = .ok none) : CredentialFault source t .noCredentials
  | unusable {m : TlsMaterial} {e : ClientError} (found : source.lookup t = .ok (some m))
      (rejected : m.clientConfig = .error e) : CredentialFault source t (.client e)

/-- The settings of a client are refused exactly for a fault of the credentials. -/
theorem EtcdConfig.tlsClient_eq_error_iff {c : EtcdConfig} {t : FileTree} {e : AccessError} :
    c.tlsClient t = .error e ↔
      ∃ source, c.credentials = some source ∧ CredentialFault source t e := by
  unfold tlsClient
  constructor
  · intro h
    split at h
    · cases h
    · rename_i source hsource
      refine ⟨source, hsource, ?_⟩
      split at h
      · rename_i e' hlookup
        cases h
        exact .unloaded hlookup
      · rename_i hlookup
        cases h
        exact .missing hlookup
      · rename_i m hlookup
        split at h
        · rename_i e' hconfig
          cases h
          exact .unusable hlookup hconfig
        · cases h
  · rintro ⟨source, hsource, hfault⟩
    cases hfault with
    | unloaded failed => simp [hsource, failed]
    | missing absent => simp [hsource, absent]
    | unusable found rejected => simp [hsource, found, rejected]

/-- With usable timeouts, etcd can be reached exactly if there are TLS settings. -/
theorem EtcdConfig.Timed.access_eq_error_iff {c : EtcdConfig} (h : c.Timed) {dialer : Net.Dialer}
    {t : FileTree} {e : AccessError} :
    c.access dialer t = .error e ↔ c.tlsClient t = .error e := by
  obtain ⟨⟨dial, hdial, -⟩, ⟨call, hcall, -⟩⟩ := h
  unfold EtcdConfig.access
  rw [hdial, hcall]
  cases c.tlsClient t with
  | error e' =>
    show Except.error e' = .error e ↔ _
    simp
  | ok tls => exact ⟨nofun, nofun⟩

namespace Config

variable {c : Config} {t : FileTree}

/-- A sound configuration gives no workload exactly for a fault of its credentials. -/
theorem Sound.workload_eq_error_iff (h : c.Sound) {e : AccessError} :
    c.workload t = .error e ↔
      ∃ source, c.credentials = some source ∧ CredentialFault source t e := by
  unfold workload access credentials
  cases hetcd : c.etcd with
  | none => simp
  | some etcd =>
    have hiff : etcd.access c.proxy.dialer t = .error e ↔ etcd.tlsClient t = .error e :=
      (h.timed etcd hetcd).access_eq_error_iff
    simp only [Option.bind_some, ← EtcdConfig.tlsClient_eq_error_iff, ← hiff]
    cases etcd.access c.proxy.dialer t with
    | error e' => simp
    | ok access => simp

/-- A workload has the guard that was configured. -/
theorem guard_of_workload {w : Workload} (h : c.workload t = .ok w) : w.guard = c.guard := by
  unfold workload at h
  split at h
  · cases h
  · cases h
    rfl

end Config

/-! ## Operations over any search -/

namespace Workload

section Over

variable (search : List String → Program (Except ClientError Client)) (w : Workload)

/-- Takes out the member hosted on a node, over a connection that the search finds. -/
def removeMemberOver (name : String) : Program (Except OperationError Unit) := do
  match ← controlPlaneNodes with
  | .error e => return .error e
  | .ok known =>
    match w.guard.remaining known name with
    | .error e => return .error e
    | .ok left =>
      if w.hasAccess then withClient (search left) (removeNamed name)
      else return .ok ()

/-- Takes out the member of a machine's node, over a connection that the search finds. -/
def removeForMachineOver (machine : Option Machine) : Program (Except OperationError Unit) :=
  match nodeOf machine with
  | none => return .ok ()
  | some node => w.removeMemberOver search node

/-- Takes out the stale members among those listed, over connections that the search finds. -/
def pruneListedOver (nodes : List String) : List Member → Report → Program Progress
  | [], r => return .goOn r
  | m :: rest, r => do
    if isStale nodes m then
      let r := r.attempt m.name
      match ← w.removeMemberOver search m.name with
      | .ok _ => pruneListedOver nodes rest r
      | .error e =>
        report (removalFailed m e)
        if e.isCancelled then return .stop (r.fail e)
        pruneListedOver nodes rest (r.fail e)
    else pruneListedOver nodes rest r

/-- Takes out the stale members as one node lists them, which the search is to find. -/
def pruneViaOver (nodes : List String) (via : String) (r : Report) : Program Progress := do
  match ← search [via] with
  | .error e =>
    if e.isCancelled then return .stop (r.fail (.client reconcileContext e))
    report (skipped "skipping unreachable etcd node" via e)
    return .goOn r
  | .ok client =>
    let listed ← list client
    match listed with
    | .error e =>
      if e.isCancelled then
        drop client
        return .stop (r.fail (.client reconcileContext e))
      report (skipped "skipping etcd node that cannot list members" via e)
      drop client
      return .goOn r
    | .ok members =>
      drop client
      w.pruneListedOver search nodes members r

/-- Goes through the nodes in order. -/
def pruneEachOver (nodes : List String) : List String → Report → Program Report
  | [], r => return r
  | via :: rest, r => do
    match ← w.pruneViaOver search nodes via r with
    | .stop r => return r
    | .goOn r => pruneEachOver nodes rest r

/-- Takes out the members that belong to none of the given nodes, over connections that the search
finds. -/
def reconcileOver (nodes : List String) : Program Report := do
  if w.hasAccess then
    let r ← w.pruneEachOver search nodes nodes {}
    if !r.removed.isEmpty then report (reconciled r)
    return r
  else return {}

end Over

/-- The search treats any nodes, if there are some, as `firstAvailable` does. -/
def AgreesOnNodes (search : List String → Program (Except ClientError Client)) : Prop :=
  ∀ nodes, nodes ≠ [] → search nodes = firstAvailable nodes

variable {search : List String → Program (Except ClientError Client)} {w : Workload}

/-- Where at least one node has to remain, the guard never leaves none. -/
theorem nodesWithout_ne_nil (hminimum : 1 ≤ w.guard.minimum) {known : List String} {name : String}
    (henough : w.guard.minimum ≤ (QuorumGuard.nodesWithout known name).length) :
    QuorumGuard.nodesWithout known name ≠ [] :=
  List.ne_nil_of_length_pos (Nat.lt_of_lt_of_le hminimum henough)

/-- Behind the guard a search among no nodes is never made, so what it would do is of no account. -/
theorem removeMemberOver_eq (hminimum : 1 ≤ w.guard.minimum) (hsearch : AgreesOnNodes search)
    (name : String) : w.removeMemberOver search name = w.removeMember name := by
  unfold removeMemberOver removeMember
  -- the programs are the same after every answer, so it never matters what is searched among none
  refine bind_congr fun read => ?_
  cases read with
  | error e => rfl
  | ok known =>
    cases hleft : w.guard.remaining known name with
    | error e => simp only [hleft]
    | ok left =>
      obtain ⟨henough, rfl⟩ := QuorumGuard.remaining_eq_ok_iff.1 hleft
      simp only [hleft, hsearch _ (nodesWithout_ne_nil hminimum henough)]

/-! Reconciliation searches among single nodes and removes members, and nothing else of it depends
on the search. -/

section Reconciliation

variable (hremove : ∀ name, w.removeMemberOver search name = w.removeMember name)
  (hsingle : ∀ via, search [via] = firstAvailable [via]) (nodes : List String)

include hremove

/-- One pass over listed members, with any search that agrees on nodes. -/
theorem pruneListedOver_eq (members : List Member) (r : Report) :
    w.pruneListedOver search nodes members r = w.pruneListed nodes members r := by
  induction members generalizing r with
  | nil => rfl
  | cons m rest ih =>
    rw [pruneListedOver, pruneListed]
    cases isStale nodes m with
    | false => exact ih r
    | true =>
      simp only [if_true, hremove]
      refine bind_congr fun removed => ?_
      cases removed with
      | ok u => exact ih _
      | error e => simp only [ih]

include hsingle

theorem pruneViaOver_eq (via : String) (r : Report) :
    w.pruneViaOver search nodes via r = w.pruneVia nodes via r := by
  rw [pruneViaOver, pruneVia, hsingle]
  refine bind_congr fun found => ?_
  cases found with
  | error e => rfl
  | ok client =>
    refine bind_congr fun listed => ?_
    cases listed with
    | error e => rfl
    | ok members => simp only [pruneListedOver_eq hremove]

theorem pruneEachOver_eq (vias : List String) (r : Report) :
    w.pruneEachOver search nodes vias r = w.pruneEach nodes vias r := by
  induction vias generalizing r with
  | nil => rfl
  | cons via rest ih =>
    rw [pruneEachOver, pruneEach, pruneViaOver_eq hremove hsingle]
    refine bind_congr fun progress => ?_
    cases progress with
    | stop r => rfl
    | goOn r => exact ih r

/-- A reconciliation searches among nodes only. -/
theorem reconcileOver_eq : w.reconcileOver search nodes = w.reconcile nodes := by
  simp only [reconcileOver, reconcile, pruneEachOver_eq hremove hsingle]

end Reconciliation

/-- Over the search in use, these are the operations themselves. -/
theorem over_firstAvailable (w : Workload) (name : String) (machine : Option Machine)
    (nodes : List String) :
    w.removeMemberOver firstAvailable name = w.removeMember name ∧
      w.removeForMachineOver firstAvailable machine = w.removeForMachine machine ∧
      w.reconcileOver firstAvailable nodes = w.reconcile nodes :=
  ⟨rfl, rfl, reconcileOver_eq (fun _ => rfl) (fun _ => rfl) nodes⟩

/-- Where at least one node has to remain, these are the operations themselves over any search that
agrees with the one in use on some nodes. -/
theorem over_agreeing (hminimum : 1 ≤ w.guard.minimum) (hsearch : AgreesOnNodes search)
    (name : String) (machine : Option Machine) (nodes : List String) :
    w.removeMemberOver search name = w.removeMember name ∧
      w.removeForMachineOver search machine = w.removeForMachine machine ∧
      w.reconcileOver search nodes = w.reconcile nodes := by
  have hremove := removeMemberOver_eq hminimum hsearch
  refine ⟨hremove name, ?_, reconcileOver_eq hremove (fun via => hsearch [via] (by simp)) nodes⟩
  unfold removeForMachineOver removeForMachine
  cases nodeOf machine with
  | none => rfl
  | some node => exact hremove node

end Workload

/-! ## Errors that blame a caller -/

/-- A dial or a call of the trace was answered with the error, or with one that holds it. -/
def Trace.Received (t : List Exchange) (e : ClientError) : Prop :=
  ∃ x ∈ t, ∃ answered, x.error? = some answered ∧ answered.Includes e

/-- What a part of a trace has received, the whole has. -/
theorem Trace.Received.mono {t t' : List Exchange} {e : ClientError} (h : Received t e)
    (hsub : t ⊆ t') : Received t' e := by
  obtain ⟨x, hx, answered, herror, hin⟩ := h
  exact ⟨x, hsub hx, answered, herror, hin⟩

open Trace

namespace ClientSearch

variable {nodes : List String} {t : List Exchange} {e : ClientError} {detail : String}

/-- Among some nodes, a search blames its caller only with what it received. -/
theorem firstAvailable_received (hnodes : nodes ≠ [])
    (h : (firstAvailable nodes).Yields t (.error e)) (hin : e.Includes (.invalidArgument detail)) :
    Received t (.invalidArgument detail) := by
  rw [firstAvailable_yields_iff hnodes] at h
  cases h with
  | settled passed node left order last =>
    cases last with
    | cancelled cancelled =>
      exact ⟨⟨.create (etcdEndpoint node), .error e⟩, by simp, e, rfl, hin⟩
  | exhausted passed order =>
    cases hin with
    | nested direct inside =>
      -- what is below the verdict are the errors of the dials that were passed over
      obtain ⟨⟨node, t, e, skipped⟩, hp, rfl⟩ := List.mem_map.1 direct
      cases skipped with
      | dial not_cancelled =>
        exact ⟨_, List.mem_flatMap.2 ⟨_, hp, List.mem_singleton_self _⟩, e, rfl, inside⟩

end ClientSearch

namespace Workload

variable {w : Workload} {t : List Exchange} {name detail : String} {failure : OperationError}

/-- A removal blames the caller only if an answer did. -/
theorem NamedRemoval.received {client : Client} (h : NamedRemoval name client t (.error failure))
    (hin : failure.Includes (.invalidArgument detail)) : Received t (.invalidArgument detail) := by
  cases h with
  | unlisted e =>
    cases hin with
    | client inside => exact ⟨⟨.list client, .error e⟩, by simp, e, rfl, inside⟩
  | @failed members m first e =>
    cases hin with
    | client inside =>
      exact ⟨⟨.remove client m.id, .error e⟩, by simp, e, rfl, inside⟩

/-- Where at least one node has to remain, an attempt blames its caller only with what it
received. -/
theorem Attempt.received (hminimum : 1 ≤ w.guard.minimum) (h : Attempt w name t (.error failure))
    (hin : failure.Includes (.invalidArgument detail)) : Received t (.invalidArgument detail) := by
  cases h with
  | unread failure => cases hin
  | refused few => cases hin
  | unconnected enough access search =>
    cases hin with
    | client inside =>
      have hleft := nodesWithout_ne_nil hminimum enough
      exact (firstAvailable_received hleft search inside).mono (List.subset_cons_self _ _)
  | connected enough access search use =>
    refine (use.received hin).mono fun x hx => ?_
    simp [hx]

/-- Attempts do not end a turn as a dial or a listing can. -/
theorem Attempted.ne_unasked {names : List String} {tried : List (Tried w)} {ending : Ending}
    (h : Attempted w names tried ending) (e : ClientError) : ending ≠ .unasked e := by
  induction h with
  | none => nofun
  | cancelled named cancelled => nofun
  | next named calm rest ih => exact ih

/-- The attempts of a part of a reconciliation are part of its exchanges, and a dial or a listing
that ended it was answered there with the error. -/
def Accounted (t : List Exchange) (tried : List (Tried w)) (ending : Ending) : Prop :=
  (∀ a ∈ tried, a.trace ⊆ t) ∧ ∀ e, ending = .unasked e → ∃ x ∈ t, x.error? = some e

/-- One node's turn blames the caller only if an answer did. -/
theorem Turn.accounted {nodes : List String} {via : String} {tried : List (Tried w)}
    {ending : Ending} (h : Turn w nodes via t tried ending) : Accounted t tried ending := by
  cases h with
  | undialed not_cancelled => exact ⟨by simp, nofun⟩
  | unlisted client not_cancelled => exact ⟨by simp, nofun⟩
  | @dialCancelled e cancelled =>
    refine ⟨by simp, fun e' he => ?_⟩
    cases he
    exact ⟨_, List.mem_singleton_self _, rfl⟩
  | @listCancelled client e cancelled =>
    refine ⟨by simp, fun e' he => ?_⟩
    cases he
    exact ⟨⟨.list client, .error e⟩, by simp [asked], rfl⟩
  | listed client attempted =>
    refine ⟨fun a ha x hx => ?_, fun e he => absurd he (attempted.ne_unasked e)⟩
    exact List.mem_append_right _ (List.mem_flatMap.2 ⟨a, ha, hx⟩)

/-- A round blames the caller only if an answer did. -/
theorem Round.accounted {nodes vias : List String} {tried : List (Tried w)} {ending : Ending}
    (h : Round w nodes vias t tried ending) : Accounted t tried ending := by
  induction h with
  | done => exact ⟨by simp, nofun⟩
  | stopped turn early => exact turn.accounted
  | next turn others ih =>
    obtain ⟨hfirst, -⟩ := turn.accounted
    obtain ⟨hothers, hending⟩ := ih
    refine ⟨fun a ha => ?_, fun e he => ?_⟩
    · rcases List.mem_append.1 ha with ha | ha
      · exact List.Subset.trans (hfirst a ha) (List.subset_append_left _ _)
      · exact List.Subset.trans (hothers a ha) (List.subset_append_right _ _)
    · obtain ⟨x, hx, herror⟩ := hending e he
      exact ⟨x, List.mem_append_right _ hx, herror⟩

/-- Where at least one node has to remain, a reconciliation blames its caller only with what it
received. -/
theorem reconcile_received (hminimum : 1 ≤ w.guard.minimum) {nodes : List String} {r : Report}
    (h : (w.reconcile nodes).Yields t r) (hfailed : r.error? = some failure)
    (hin : failure.Includes (.invalidArgument detail)) : Received t (.invalidArgument detail) := by
  obtain ⟨tried, ending, hround, hr⟩ := reconcile_yields_iff.1 h
  obtain ⟨htraces, hending⟩ := hround.accounted
  have herrors : r.errors = _ := (accounts_iff.2 hr).errors
  unfold Report.error? at hfailed
  split at hfailed
  · cases hfailed
  cases hfailed
  cases hin with
  | several direct inside =>
    rw [herrors] at direct
    rcases List.mem_append.1 direct with direct | direct
    · obtain ⟨⟨name, t', answer, made⟩, ha, hanswer⟩ := List.mem_filterMap.1 direct
      cases answer with
      | ok u => cases hanswer
      | error e =>
        cases hanswer
        exact (made.received hminimum inside).mono (htraces _ ha)
    · cases ending with
      | onward => cases direct
      | cutShort => cases direct
      | unasked e =>
        obtain rfl := List.mem_singleton.1 direct
        obtain ⟨x, hx, herror⟩ := hending e rfl
        cases inside with
        | client inside => exact ⟨x, hx, e, herror, inside⟩

theorem removeForMachine_received (hminimum : 1 ≤ w.guard.minimum) {machine : Option Machine}
    (h : (w.removeForMachine machine).Yields t (.error failure))
    (hin : failure.Includes (.invalidArgument detail)) : Received t (.invalidArgument detail) := by
  unfold removeForMachine at h
  split at h
  · obtain ⟨-, hv⟩ := h
    cases hv
  · exact (removeMember_yields_iff.1 h).received hminimum hin

/-- Against any world, the errors in the program's value blame a caller only with what the outside
answered. -/
def PassesBlameOn {α : Type} (p : Program α) (errors : α → List OperationError) : Prop :=
  ∀ {σ : Type} (world : World σ) (s : Situation σ) (detail : String),
    ∀ failure ∈ errors (p.run world s).value, failure.Includes (.invalidArgument detail) →
      Received (p.run world s).trace (.invalidArgument detail)

/-- Blame is passed on if it is in every behaviour that ends with an error. -/
theorem passesBlameOn_of_yields {α : Type} {p : Program (Except OperationError α)}
    (h : ∀ t failure detail, p.Yields t (.error failure) →
      failure.Includes (.invalidArgument detail) → Received t (.invalidArgument detail)) :
    PassesBlameOn p errorsOf := by
  intro σ world s detail failure hfailure hin
  have hyields := yields_run world p s
  cases hvalue : (p.run world s).value with
  | ok a =>
    rw [hvalue] at hfailure
    cases hfailure
  | error e =>
    rw [hvalue] at hfailure hyields
    obtain rfl := List.mem_singleton.1 hfailure
    exact h _ failure detail hyields hin

/-- The operations that take out members make no mistake as callers: it is of no account what a
search among no nodes does, so there is none, and an error that blames the caller was received. -/
structure CallsProperly (w : Workload) : Prop where
  among_nodes : ∀ {search : List String → Program (Except ClientError Client)},
    AgreesOnNodes search → ∀ (name : String) (machine : Option Machine) (nodes : List String),
      w.removeMemberOver search name = w.removeMember name ∧
        w.removeForMachineOver search machine = w.removeForMachine machine ∧
        w.reconcileOver search nodes = w.reconcile nodes
  removeMember : ∀ name, PassesBlameOn (w.removeMember name) errorsOf
  removeForMachine : ∀ machine, PassesBlameOn (w.removeForMachine machine) errorsOf
  reconcile : ∀ nodes, PassesBlameOn (w.reconcile nodes) fun r => r.error?.toList

/-- With a minimum of one at least, operations make no mistake as callers. -/
theorem callsProperly (hminimum : 1 ≤ w.guard.minimum) : w.CallsProperly where
  among_nodes := over_agreeing hminimum
  removeMember _ := passesBlameOn_of_yields fun _ _ _ hyields hin =>
    (removeMember_yields_iff.1 hyields).received hminimum hin
  removeForMachine _ := passesBlameOn_of_yields fun _ _ _ hyields hin =>
    removeForMachine_received hminimum hyields hin
  reconcile nodes := by
    intro σ world s detail failure hfailure hin
    have hyields := yields_run world (w.reconcile nodes) s
    exact reconcile_received hminimum hyields (Option.mem_toList.1 hfailure) hin

end Workload

/-- In an accepted configuration at least one node has to remain and both timeouts are longer than
nothing, so that its workload is built unless its credentials are at fault. That workload, like any
other where at least one node has to remain, never asks for a connection among no nodes when it
takes out members, and where no answer blames a caller no error does. -/
theorem Config.accepted_calls_properly {text : String} {c : Config} (h : parse text = .ok c) :
    c.Sound ∧
      (∀ t e, c.workload t = .error e ↔
        ∃ source, c.credentials = some source ∧ CredentialFault source t e) ∧
      (∀ t w, c.workload t = .ok w → 1 ≤ w.guard.minimum) ∧
      ∀ w : Workload, 1 ≤ w.guard.minimum → w.CallsProperly := by
  have hsound := sound_of_parse h
  refine ⟨hsound, fun t e => hsound.workload_eq_error_iff, fun t w hw => ?_,
    fun w hminimum => Workload.callsProperly hminimum⟩
  rw [guard_of_workload hw]
  exact hsound.minimum

/-- A configuration over two nodes, with one timeout given and one in place of which there is a
default, and with access that needs no credentials. -/
theorem Config.two_nodes_accepted :
    let c : Config :=
      { cluster := { nodes := ["cp-0", "cp-1"] }, etcd := some { dialTimeout := some "500ms" } }
    parse "cluster.control_plane_nodes = ['cp-0', 'cp-1']\netcd.dial_timeout = '500ms'" = .ok c ∧
      c.Sound ∧ c.workload {} = .ok { hasAccess := true } ∧
      ({ hasAccess := true } : Workload).CallsProperly := by
  intro c
  have hparse :
      parse "cluster.control_plane_nodes = ['cp-0', 'cp-1']\netcd.dial_timeout = '500ms'" =
        .ok c := by decide +kernel
  obtain ⟨hsound, -, hguard, hproper⟩ := accepted_calls_properly hparse
  have hworkload : c.workload {} = .ok { hasAccess := true } := rfl
  exact ⟨hparse, hsound, hworkload, hproper _ (hguard _ _ hworkload)⟩

end QuorumKeeper
