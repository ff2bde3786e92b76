import QuorumKeeper.Proofs.TomlDocuments
import Mathlib.Data.List.Nodup

/-!
# The trees of written documents

`Builds` says which tree sections make that are written one after the other, if each section is the
first under its name, or stands right behind the section that its name goes through. A document of
such sections is read as that tree (`parse?_print`).
-/

set_option autoImplicit false

namespace QuorumKeeper.Toml

namespace Entries

/-- The keys of a table. -/
def keys (entries : Entries) : List String :=
  entries.map Prod.fst

theorem insertNew_eq {entries : Entries} {key : String} (h : key ∉ entries.keys) (v : Value) :
    insertNew entries key v = some (entries ++ [(key, v)]) := by
  have hany : entries.any (·.1 == key) = false := by
    rw [List.any_eq_false]
    intro e he hkey
    exact h (List.mem_map.2 ⟨e, he, by simpa using hkey⟩)
  rw [insertNew, hany]
  rfl

theorem lookup_eq_none {entries : Entries} {key : String} (h : key ∉ entries.keys) :
    entries.lookup key = none := by
  rw [List.lookup_eq_none_iff]
  intro e he
  have hne : key ≠ e.1 := fun heq => h (heq ▸ List.mem_map_of_mem he)
  simpa using hne

/-- Altering a key that is not there adds it at the end. -/
theorem alter_fresh {α : Type} {entries : Entries} {key : String} (h : key ∉ entries.keys)
    (f : Option Value → Option (α × Value)) :
    alter key f entries = (f none).map fun (a, v) => (a, entries ++ [(key, v)]) := by
  induction entries with
  | nil => rfl
  | cons e rest ih =>
    obtain ⟨k, v⟩ := e
    simp only [keys, List.map_cons, List.mem_cons, not_or] at h
    rw [alter, if_neg (Ne.symm h.1), ih h.2, Option.map_map]
    rfl

/-- Altering the last key leaves the others alone. -/
theorem alter_last {α : Type} {entries : Entries} {key : String} (h : key ∉ entries.keys)
    (v : Value) (f : Option Value → Option (α × Value)) :
    alter key f (entries ++ [(key, v)]) =
      (f (some v)).map fun (a, v) => (a, entries ++ [(key, v)]) := by
  induction entries with
  | nil => simp [alter]
  | cons e rest ih =>
    obtain ⟨k, v'⟩ := e
    simp only [keys, List.map_cons, List.mem_cons, not_or] at h
    rw [List.cons_append, alter, if_neg (Ne.symm h.1), ih h.2, Option.map_map]
    rfl

theorem assign_eq {entries : Entries} {key : String} (h : key ∉ entries.keys) (v : Value) :
    assign entries [key] v = some (entries ++ [(key, v)]) := by
  simp [assign, descend, insertNew_eq h]

end Entries

open Entries

/-- The entries that fields are written for. -/
def fieldEntries (fields : List (String × Field)) : Entries :=
  fields.map fun f => (f.1, f.2.value)

/-- Assignments of new keys add them in order. -/
theorem add_assignments {fields : List (String × Field)} {d : Document}
    (hnew : ∀ f ∈ fields, f.1 ∉ d.entries.keys) (hnodup : (fields.map Prod.fst).Nodup) :
    (fields.map assignment).foldlM Document.add d =
      some { d with entries := d.entries ++ fieldEntries fields } := by
  induction fields generalizing d with
  | nil => simp [fieldEntries]
  | cons f rest ih =>
    obtain ⟨hf, hrest⟩ := List.forall_mem_cons.1 hnew
    rw [List.map_cons, List.nodup_cons] at hnodup
    have hadd : d.add (assignment f) =
        some { d with entries := d.entries ++ [(f.1, f.2.value)] } := by
      rw [assignment, Document.add, assign_eq hf]
      rfl
    rw [List.map_cons, List.foldlM_cons, hadd]
    show (rest.map assignment).foldlM Document.add _ = _
    rw [ih _ hnodup.2]
    · simp [fieldEntries]
    · intro g hg hmem
      simp only [keys, List.map_append, List.mem_append, List.map_cons, List.map_nil,
        List.mem_singleton] at hmem
      rcases hmem with hold | heq
      · exact hrest g hg hold
      · exact hnodup.1 (heq ▸ List.mem_map_of_mem hg)

/-- One more section: its table is taken out of the tree, filled, and put at the end of its parent.
-/
theorem close_section {d : Document} {s : Section} {entries outer result : Entries}
    (hd : d.close = some entries) (hnodup : (s.fields.map Prod.fst).Nodup)
    (hextract : entries.extract s.path = some ([], outer))
    (hput : outer.put s.path (fieldEntries s.fields) = some result) :
    ∃ d', s.statements.foldlM Document.add d = some d' ∧ d'.close = some result := by
  let opened : Document := { finished := outer, place := .header s.path }
  have hheader : d.add (.header s.path) = some opened := by
    simp [Document.add, hd, hextract, opened]
  have hfields : (s.fields.map assignment).foldlM Document.add opened =
      some { opened with entries := fieldEntries s.fields } :=
    add_assignments (by simp [keys, opened]) hnodup
  refine ⟨{ opened with entries := fieldEntries s.fields }, ?_, hput⟩
  rw [Section.statements, List.foldlM_cons, hheader]
  exact hfields

/-- The tree that sections make, one after the other. A section comes under a new name, under one
that goes through the last table, or under one that goes through a table that has no section of its
own. -/
inductive Builds : List Section → Entries → Prop where
  | nil : Builds [] []
  | table {sections : List Section} {entries : Entries} {key : String}
      {fields : List (String × Field)} (h : Builds sections entries) (hkey : key ∉ entries.keys)
      (hfields : (fields.map Prod.fst).Nodup) :
      Builds (sections ++ [⟨[key], fields⟩])
        (entries ++ [(key, .table .header (fieldEntries fields))])
  | inner {sections : List Section} {entries sub : Entries} {key key' : String} {origin : Origin}
      {fields : List (String × Field)}
      (h : Builds sections (entries ++ [(key, .table origin sub)])) (hkey : key ∉ entries.keys)
      (horigin : origin ≠ .inline) (hkey' : key' ∉ sub.keys)
      (hfields : (fields.map Prod.fst).Nodup) :
      Builds (sections ++ [⟨[key, key'], fields⟩])
        (entries ++ [(key, .table origin (sub ++ [(key', .table .header (fieldEntries fields))]))])
  | through {sections : List Section} {entries : Entries} {key key' : String}
      {fields : List (String × Field)} (h : Builds sections entries) (hkey : key ∉ entries.keys)
      (hfields : (fields.map Prod.fst).Nodup) :
      Builds (sections ++ [⟨[key, key'], fields⟩])
        (entries ++ [(key, .table .implied [(key', .table .header (fieldEntries fields))])])

theorem foldlM_snoc {sections : List Section} {s : Section} {d d' : Document}
    (hd : (sections.flatMap Section.statements).foldlM Document.add {} = some d)
    (hs : s.statements.foldlM Document.add d = some d') :
    ((sections ++ [s]).flatMap Section.statements).foldlM Document.add {} = some d' := by
  rw [List.flatMap_append, List.foldlM_append, hd]
  simpa using hs

/-- Sections that build a tree close to it. -/
theorem Builds.close {sections : List Section} {entries : Entries} (h : Builds sections entries) :
    ∃ d, (sections.flatMap Section.statements).foldlM Document.add {} = some d ∧
      d.close = some entries := by
  induction h with
  | nil => exact ⟨{}, rfl, rfl⟩
  | @table sections entries key fields _ hkey hfields ih =>
    obtain ⟨d, hrun, hd⟩ := ih
    have hextract : entries.extract [key] = some ([], entries) := by
      simp [extract, descend, lookup_eq_none hkey]
    have hput : entries.put [key] (fieldEntries fields) =
        some (entries ++ [(key, .table .header (fieldEntries fields))]) := by
      simp [put, descend, insertNew_eq hkey]
    obtain ⟨d', hsection, hd'⟩ := close_section (s := ⟨[key], fields⟩) hd hfields hextract hput
    exact ⟨d', foldlM_snoc hrun hsection, hd'⟩
  | @inner sections entries sub key key' origin fields _ hkey horigin hkey' hfields ih =>
    obtain ⟨d, hrun, hd⟩ := ih
    have hextract : extract (entries ++ [(key, .table origin sub)]) [key, key'] =
        some ([], entries ++ [(key, .table origin sub)]) := by
      simp [extract, descend, alter_last hkey, horigin, lookup_eq_none hkey']
    have hput : put (entries ++ [(key, .table origin sub)]) [key, key'] (fieldEntries fields) =
        some (entries ++
          [(key, .table origin (sub ++ [(key', .table .header (fieldEntries fields))]))]) := by
      simp [put, descend, alter_last hkey, horigin, insertNew_eq hkey']
    obtain ⟨d', hsection, hd'⟩ :=
      close_section (s := ⟨[key, key'], fields⟩) hd hfields hextract hput
    exact ⟨d', foldlM_snoc hrun hsection, hd'⟩
  | @through sections entries key key' fields _ hkey hfields ih =>
    obtain ⟨d, hrun, hd⟩ := ih
    have hextract : extract entries [key, key'] = some ([], entries ++ [(key, .table .implied [])]) := by
      simp [extract, descend, alter_fresh hkey]
    have hput : put (entries ++ [(key, .table .implied [])]) [key, key'] (fieldEntries fields) =
        some (entries ++ [(key, .table .implied [(key', .table .header (fieldEntries fields))])]) := by
      have hempty : key' ∉ keys [] := by simp [keys]
      simp [put, descend, alter_last hkey, insertNew_eq hempty]
    obtain ⟨d', hsection, hd'⟩ :=
      close_section (s := ⟨[key, key'], fields⟩) hd hfields hextract hput
    exact ⟨d', foldlM_snoc hrun hsection, hd'⟩

/-- A written document is read as the tree that its sections make. -/
theorem parse?_print {sections : List Section} {entries : Entries} (h : Builds sections entries)
    (hsections : ∀ s ∈ sections, s.Writable) : parse? (print sections) = some entries := by
  obtain ⟨d, hrun, hd⟩ := h.close
  rw [parse?_print_eq hsections, Document.ofStatements?, hrun, Option.bind_some, hd]

end QuorumKeeper.Toml
