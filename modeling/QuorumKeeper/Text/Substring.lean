/-!
# Substrings

Member names embed node names, so nearly every decision of the library asks whether one text stands
inside another. `occurs` is the decision procedure and `occurs_iff` ties it to the list relation
`<:+:` (a contiguous part), which is what proofs work with.
-/

set_option autoImplicit false

namespace QuorumKeeper.Text

/-- `part` stands somewhere in the given characters, without gaps. -/
def occursIn (part : List Char) : List Char → Bool
  | [] => part.isEmpty
  | c :: rest => part.isPrefixOf (c :: rest) || occursIn part rest

/-- `part` stands somewhere in `whole`. -/
def occurs (part whole : String) : Bool :=
  occursIn part.toList whole.toList

theorem occursIn_iff (part whole : List Char) : occursIn part whole = true ↔ part <:+: whole := by
  induction whole with
  | nil => simp [occursIn]
  | cons c rest ih =>
    simp only [occursIn, Bool.or_eq_true, ih, List.isPrefixOf_iff_prefix, List.infix_cons_iff]

theorem occurs_iff (part whole : String) :
    occurs part whole = true ↔ part.toList <:+: whole.toList :=
  occursIn_iff part.toList whole.toList

theorem occurs_self (s : String) : occurs s s = true :=
  (occurs_iff s s).2 (List.infix_refl _)

theorem occurs_trans {a b c : String} (hab : occurs a b = true) (hbc : occurs b c = true) :
    occurs a c = true :=
  (occurs_iff a c).2 (((occurs_iff a b).1 hab).trans ((occurs_iff b c).1 hbc))

end QuorumKeeper.Text
