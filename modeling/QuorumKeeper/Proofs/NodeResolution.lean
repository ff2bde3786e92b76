import QuorumKeeper.Proofs.UnambiguousNames
import Mathlib.Data.List.Infix

/-!
# From members to nodes and back

A leader is turned into a node by a search among the nodes, and a node into a member by a search
among the members. Both ask whether a node's name stands inside a member's name, and both take the
first entry for which it does.

Where a member's name contains one node name at most, and a node's name stands in one member's name
at most (`Member.Unambiguous`), there is at most one entry to find, so the order of the lists does
not matter (`isFirst_iff_of_atMostOne`), and each search undoes the other (`resolution_agrees`).
-/

set_option autoImplicit false

namespace QuorumKeeper

open ClientSearch Member

/-- A text is a part of another exactly if the other is that text between two more. -/
theorem Text.infix_iff_split (part whole : String) :
    part.toList <:+: whole.toList ↔ ∃ before after, whole = before ++ part ++ after := by
  constructor
  · rintro ⟨before, after, hsplit⟩
    refine ⟨String.ofList before, String.ofList after, ?_⟩
    rw [← String.toList_inj]
    simp [← hsplit]
  · rintro ⟨before, after, rfl⟩
    exact ⟨before.toList, after.toList, by simp⟩

/-! ## Searches that have one entry to find -/

/-- The entries of the list with the property are all the same. -/
def AtMostOne {α : Type} (p : α → Prop) (l : List α) : Prop :=
  ∀ x ∈ l, ∀ y ∈ l, p x → p y → x = y

section AtMostOne

variable {α : Type} {p : α → Prop} {l l' : List α}

instance [DecidableEq α] [DecidablePred p] : Decidable (AtMostOne p l) :=
  inferInstanceAs (Decidable (∀ x ∈ l, ∀ y ∈ l, p x → p y → x = y))

theorem AtMostOne.of_perm (h : AtMostOne p l) (horder : l'.Perm l) : AtMostOne p l' := by
  intro x hx y hy
  exact h x (horder.mem_iff.1 hx) y (horder.mem_iff.1 hy)

/-- If there is one entry at most to find, it does not matter where it stands. -/
theorem isFirst_iff_of_atMostOne (h : AtMostOne p l) {x : α} :
    IsFirst p l x ↔ x ∈ l ∧ p x := by
  constructor
  · rintro ⟨hx, before, after, rfl, -⟩
    exact ⟨by simp, hx⟩
  · rintro ⟨hmem, hx⟩
    apply isFirst_of_unique hmem hx
    intro y hymem hy
    exact h y hymem x hmem hy hx

/-- Where at most one matches, the order does not decide which is first. -/
theorem isFirst_perm_iff (h : AtMostOne p l) (horder : l'.Perm l) {x : α} :
    IsFirst p l' x ↔ IsFirst p l x := by
  rw [isFirst_iff_of_atMostOne h, isFirst_iff_of_atMostOne (h.of_perm horder), horder.mem_iff]

end AtMostOne

/-! ## The two searches -/

namespace Member

variable {members members' : List Member} {nodes nodes' : List String} {m : Member} {node : String}

/-- The names of these members and nodes do not overlap: no member is on two nodes, and no node has
two members. An entry that is listed twice counts once, and the ids of the members play no part. -/
structure Unambiguous (members : List Member) (nodes : List String) : Prop where
  oneNode : ∀ m ∈ members, m.OnOneAtMost nodes
  oneMember : ∀ node ∈ nodes, AtMostOne (fun m => node.toList <:+: m.name.toList) members

/-- A member on one node at most is resolved in any order of the nodes. -/
theorem nodeAmong_perm (h : m.OnOneAtMost nodes) (horder : nodes'.Perm nodes) :
    m.nodeAmong nodes' = m.nodeAmong nodes := by
  apply Option.ext
  intro node
  rw [nodeAmong_eq_some_iff, nodeAmong_eq_some_iff]
  exact isFirst_perm_iff h horder

/-- A node with one member at most is resolved in any order of the members. -/
theorem named?_perm (h : AtMostOne (fun m => node.toList <:+: m.name.toList) members)
    (horder : members'.Perm members) : named? members' node = named? members node := by
  apply Option.ext
  intro m
  rw [named?_eq_some_iff_hosted, named?_eq_some_iff_hosted]
  exact isFirst_perm_iff h horder

namespace Unambiguous

variable (h : Unambiguous members nodes)

include h

/-- The node of a member is the one within its name. -/
theorem nodeAmong_iff (hm : m ∈ members) (hnode : node ∈ nodes) :
    m.nodeAmong nodes = some node ↔ node.toList <:+: m.name.toList := by
  have hone : AtMostOne (fun n => n.toList <:+: m.name.toList) nodes := h.oneNode m hm
  rw [nodeAmong_eq_some_iff, isFirst_iff_of_atMostOne hone]
  exact and_iff_right hnode

/-- The member of a node is the one whose name contains it. -/
theorem named?_iff (hm : m ∈ members) (hnode : node ∈ nodes) :
    named? members node = some m ↔ node.toList <:+: m.name.toList := by
  rw [named?_eq_some_iff_hosted, Hosted, isFirst_iff_of_atMostOne (h.oneMember node hnode)]
  exact and_iff_right hm

end Unambiguous

end Member

/-- The search for a member's node and the search for a node's member find each other, and the order
of the two lists does not matter. -/
structure FindEachOther (members : List Member) (nodes : List String) : Prop where
  agree : ∀ m ∈ members, ∀ node ∈ nodes,
    m.nodeAmong nodes = some node ↔ named? members node = some m
  contained : ∀ m ∈ members, ∀ node ∈ nodes,
    named? members node = some m ↔ ∃ before after, m.name = before ++ node ++ after
  nodesReordered : ∀ nodes', nodes'.Perm nodes → ∀ m ∈ members,
    m.nodeAmong nodes' = m.nodeAmong nodes
  membersReordered : ∀ members', members'.Perm members → ∀ node ∈ nodes,
    named? members' node = named? members node

/-- What the two searches give, between any lists of members and nodes. -/
structure Resolves (members : List Member) (nodes : List String) : Prop where
  unambiguous : Unambiguous members nodes → FindEachOther members nodes
  firstNode : ∀ (m : Member) (node : String), m.nodeAmong nodes = some node ↔
    IsFirst (fun n => n.toList <:+: m.name.toList) nodes node
  noNode : ∀ m : Member, m.nodeAmong nodes = none ↔
    ∀ node ∈ nodes, ¬ node.toList <:+: m.name.toList
  firstMember : ∀ (node : String) (m : Member), named? members node = some m ↔
    IsFirst (fun x => node.toList <:+: x.name.toList) members m
  noMember : ∀ node : String, named? members node = none ↔
    ∀ m ∈ members, ¬ node.toList <:+: m.name.toList

/-- Unambiguous members and nodes find each other. -/
theorem Member.Unambiguous.findEachOther {members : List Member} {nodes : List String}
    (h : Unambiguous members nodes) : FindEachOther members nodes where
  agree m hm node hnode := by rw [h.nodeAmong_iff hm hnode, h.named?_iff hm hnode]
  contained m hm node hnode := by
    rw [h.named?_iff hm hnode]
    exact Text.infix_iff_split node m.name
  nodesReordered nodes' horder m hm := nodeAmong_perm (h.oneNode m hm) horder
  membersReordered members' horder node hnode := named?_perm (h.oneMember node hnode) horder

/-- Where the names of members and nodes do not overlap, the search for a member's node and the
search for a node's member find each other, namely where the node's name is a part of the member's,
and the order of the two lists does not matter. In all lists, each search gives the first entry in
which the one name is a part of the other, and gives none only if there is none. -/
theorem resolution_agrees (members : List Member) (nodes : List String) :
    Resolves members nodes where
  unambiguous h := h.findEachOther
  firstNode _ _ := nodeAmong_eq_some_iff
  noNode _ := nodeAmong_eq_none_iff
  firstMember _ _ := named?_eq_some_iff_hosted
  noMember _ := named?_eq_none_iff_unhosted

/-- Three members, of which the first has not joined. -/
def scatteredMembers : List Member :=
  [{ id := 7, name := "" }, { id := 2, name := "etcd-cp-2" }, { id := 10, name := "etcd-cp-10" }]

/-- One node is listed twice, and another has no member. -/
def scatteredNodes : List String :=
  ["cp-10", "cp-9", "cp-2", "cp-10"]

theorem resolution_agrees_on_scattered :
    let m : Member := { id := 10, name := "etcd-cp-10" }
    Unambiguous scatteredMembers scatteredNodes ∧
      scatteredMembers.reverse.Perm scatteredMembers ∧
      scatteredNodes.reverse.Perm scatteredNodes ∧
      m.nodeAmong scatteredNodes.reverse = some "cp-10" ∧
      named? scatteredMembers.reverse "cp-10" = some m := by
  intro m
  have h : Unambiguous scatteredMembers scatteredNodes := ⟨by decide, by decide⟩
  have hmembers := List.reverse_perm scatteredMembers
  have hnodes := List.reverse_perm scatteredNodes
  have hm : m ∈ scatteredMembers := by decide
  have hnode : "cp-10" ∈ scatteredNodes := by decide
  have hfind := (resolution_agrees scatteredMembers scatteredNodes).unambiguous h
  have hfound : m.nodeAmong scatteredNodes = some "cp-10" := by decide
  refine ⟨h, hmembers, hnodes, ?_, ?_⟩
  · rw [hfind.nodesReordered _ hnodes m hm]
    exact hfound
  · rw [hfind.membersReordered _ hmembers "cp-10" hnode]
    exact (hfind.agree m hm "cp-10" hnode).1 hfound

end QuorumKeeper
