import QuorumKeeper.Member
import Mathlib.Data.List.Nodup

/-!
# Member lists with distinct ids

The first member under a name splits its list (`named?_eq_some_iff`), and where ids are distinct,
dropping its id joins the two parts again (`filter_id_ne_of_split`).
-/

set_option autoImplicit false

namespace QuorumKeeper

/-- No two members of the list have one id. -/
def DistinctIds (members : List Member) : Prop :=
  (members.map Member.id).Nodup

instance (members : List Member) : Decidable (DistinctIds members) :=
  inferInstanceAs (Decidable (members.map Member.id).Nodup)

namespace DistinctIds

variable {members : List Member}

/-- An id belongs to one member. -/
theorem eq_of_id (h : DistinctIds members) {m m' : Member} (hm : m ∈ members)
    (hm' : m' ∈ members) (hid : m.id = m'.id) : m = m' :=
  List.inj_on_of_nodup_map h hm hm' hid

theorem sublist (h : DistinctIds members) {part : List Member} (hsub : part.Sublist members) :
    DistinctIds part :=
  List.Nodup.sublist (hsub.map Member.id) h

/-- Where ids are distinct, dropping the id of one member drops that member alone. -/
theorem filter_id_ne_of_split {pre post : List Member} {m : Member}
    (h : DistinctIds (pre ++ m :: post)) :
    (pre ++ m :: post).filter (·.id != m.id) = pre ++ post := by
  have hother : ∀ x ∈ pre ++ post, (x.id != m.id) = true := by
    intro x hx
    have hsplit : (pre ++ m :: post).Perm (m :: (pre ++ post)) := List.perm_middle
    have hnodup : ((m :: (pre ++ post)).map Member.id).Nodup := (hsplit.map Member.id).nodup_iff.1 h
    rw [List.map_cons, List.nodup_cons] at hnodup
    refine bne_iff_ne.2 fun hid => hnodup.1 ?_
    exact hid ▸ List.mem_map_of_mem hx
  have hpre : pre.filter (·.id != m.id) = pre :=
    List.filter_eq_self.2 fun x hx => hother x (List.mem_append_left _ hx)
  have hpost : post.filter (·.id != m.id) = post :=
    List.filter_eq_self.2 fun x hx => hother x (List.mem_append_right _ hx)
  have hself : ¬ (m.id != m.id) = true := by simp
  rw [List.filter_append, List.filter_cons, if_neg hself, hpre, hpost]

end DistinctIds

namespace Member

/-- The first member under a name is the one before which no name contains the given one. -/
theorem named?_eq_some_iff {members : List Member} {name : String} {m : Member} :
    named? members name = some m ↔ m.isOn name = true ∧
      ∃ pre post, members = pre ++ m :: post ∧ ∀ x ∈ pre, x.isOn name = false := by
  simp only [named?, List.find?_eq_some_iff_append, Bool.not_eq_true']

/-- A name resolves to nobody exactly when no member carries it. -/
theorem named?_eq_none_iff {members : List Member} {name : String} :
    named? members name = none ↔ ∀ x ∈ members, x.isOn name = false := by
  simp only [named?, List.find?_eq_none, Bool.not_eq_true]

theorem named?_eq_none_iff_filter {members : List Member} {name : String} :
    named? members name = none ↔ members.filter (·.isOn name) = [] := by
  simp only [named?_eq_none_iff, List.filter_eq_nil_iff, Bool.not_eq_true]

/-- Where ids are distinct, the members under a name are the first of them and those that are
still under it once the first is gone. -/
theorem filter_isOn_of_named? {members : List Member} (h : DistinctIds members) {name : String}
    {m : Member} (hm : named? members name = some m) :
    members.filter (·.isOn name) = m :: (members.filter (·.id != m.id)).filter (·.isOn name) := by
  obtain ⟨hon, pre, post, rfl, hpre⟩ := named?_eq_some_iff.1 hm
  have hnil : pre.filter (·.isOn name) = [] :=
    List.filter_eq_nil_iff.2 fun x hx => by simp [hpre x hx]
  rw [h.filter_id_ne_of_split, List.filter_append, List.filter_append, hnil, List.nil_append,
    List.nil_append, List.filter_cons, if_pos hon]

/-- A member stands under its own name. -/
theorem isOn_name (m : Member) : m.isOn m.name = true :=
  Text.occurs_self m.name

/-- Looking for a member by its own name finds that member, or one that stands before it. -/
theorem named?_own_name (before after : List Member) (m : Member) :
    (named? (before ++ m :: after) m.name = some m ∧ ∀ x ∈ before, x.isOn m.name = false) ∨
      ∃ x pre post, before = pre ++ x :: post ∧ x.isOn m.name = true ∧
        named? (before ++ m :: after) m.name = some x := by
  have hself : (m :: after).find? (·.isOn m.name) = some m := by
    rw [List.find?_cons, isOn_name]
  rw [named?, List.find?_append, hself]
  cases hx : before.find? (·.isOn m.name) with
  | none => exact Or.inl ⟨rfl, named?_eq_none_iff.1 hx⟩
  | some x =>
    obtain ⟨hon, pre, post, rfl, -⟩ := named?_eq_some_iff.1 hx
    exact Or.inr ⟨x, pre, post, rfl, hon, rfl⟩

/-- Some name stands in the name of none of the members. -/
theorem exists_absent_name (members : List Member) :
    ∃ name, ∀ m ∈ members, m.isOn name = false := by
  induction members with
  | nil => exact ⟨"", by simp⟩
  | cons m rest ih =>
    obtain ⟨name, hname⟩ := ih
    refine ⟨m.name ++ name ++ "x", fun a ha => ?_⟩
    rw [Bool.eq_false_iff]
    intro hon
    rcases List.mem_cons.1 ha with rfl | ha
    · -- the new name is longer than that of the first member
      have hlength := ((a.isOn_iff _).1 hon).length_le
      have hlast : "x".toList.length = 1 := rfl
      rw [String.toList_append, String.toList_append, List.length_append, List.length_append]
        at hlength
      omega
    · have hpart : Text.occurs name (m.name ++ name ++ "x") = true :=
        (Text.occurs_iff _ _).2 ⟨m.name.toList, "x".toList, by simp⟩
      have hpart' : a.isOn name = true := Text.occurs_trans hpart hon
      rw [hname a ha] at hpart'
      cases hpart'

end Member

end QuorumKeeper
