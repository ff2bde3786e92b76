import QuorumKeeper.Proofs.TomlTrees

/-!
# What documents cannot hold

No table of a document has a key twice, and no number in it is larger than 64 bits with a sign allow
(`wellFormed_of_parse?`), however tables are opened, dotted, nested and extended: each way to change
a tree keeps it so.
-/

set_option autoImplicit false

namespace QuorumKeeper.Toml

/-- Keys are distinct, and numbers in bounds, at every depth. -/
inductive Value.WellFormed : Value → Prop where
  | string (s : String) : WellFormed (.string s)
  | integer {n : Int} (h : n < 2 ^ 63) : WellFormed (.integer n)
  | float (x : Text.Binary64) : WellFormed (.float x)
  | boolean (b : Bool) : WellFormed (.boolean b)
  | datetime (text : String) : WellFormed (.datetime text)
  | array {items : List Value} (h : ∀ v ∈ items, WellFormed v) : WellFormed (.array items)
  | table {origin : Origin} {entries : Entries} (hkeys : entries.keys.Nodup)
      (h : ∀ e ∈ entries, WellFormed e.2) : WellFormed (.table origin entries)
  | tables {items : List Entries} (hkeys : ∀ t ∈ items, t.keys.Nodup)
      (h : ∀ t ∈ items, ∀ e ∈ t, WellFormed e.2) : WellFormed (.tables items)

namespace Entries

/-- The keys of a table are distinct, and its values well-formed. -/
structure WellFormed (entries : Entries) : Prop where
  nodup : entries.keys.Nodup
  values : ∀ e ∈ entries, e.2.WellFormed

theorem wellFormed_nil : WellFormed [] :=
  ⟨List.nodup_nil, by simp⟩

theorem WellFormed.table {entries : Entries} (h : entries.WellFormed) (origin : Origin) :
    (Value.table origin entries).WellFormed :=
  .table h.nodup h.values

theorem wellFormed_of_table {origin : Origin} {entries : Entries}
    (h : (Value.table origin entries).WellFormed) : entries.WellFormed := by
  cases h with
  | table hkeys h => exact ⟨hkeys, h⟩

theorem wellFormed_tables_iff {items : List Entries} :
    (Value.tables items).WellFormed ↔ ∀ t ∈ items, t.WellFormed := by
  constructor
  · intro h
    cases h with
    | tables hkeys h => exact fun t ht => ⟨hkeys t ht, h t ht⟩
  · exact fun h => .tables (fun t ht => (h t ht).nodup) fun t ht => (h t ht).values

/-- A table is well formed if its keys are distinct and its values well formed. -/
theorem wellFormed_cons_iff {key : String} {v : Value} {entries : Entries} :
    WellFormed ((key, v) :: entries) ↔ key ∉ entries.keys ∧ v.WellFormed ∧ entries.WellFormed := by
  constructor
  · rintro ⟨hnodup, hvalues⟩
    obtain ⟨hkey, hrest⟩ := List.nodup_cons.1 hnodup
    obtain ⟨hv, hvalues⟩ := List.forall_mem_cons.1 hvalues
    exact ⟨hkey, hv, hrest, hvalues⟩
  · rintro ⟨hkey, hv, hrest, hvalues⟩
    exact ⟨List.nodup_cons.2 ⟨hkey, hrest⟩, List.forall_mem_cons.2 ⟨hv, hvalues⟩⟩

theorem WellFormed.filter {entries : Entries} (h : entries.WellFormed)
    (p : String × Value → Bool) : WellFormed (entries.filter p) :=
  ⟨h.nodup.sublist (List.filter_sublist.map Prod.fst), fun e he => h.values e (List.mem_filter.1 he).1⟩

/-- What a well-formed table holds is well formed. -/
theorem wellFormed_of_lookup {entries : Entries} (h : entries.WellFormed) {key : String} {v : Value}
    (hv : entries.lookup key = some v) : v.WellFormed := by
  obtain ⟨before, after, rfl, -⟩ := List.lookup_eq_some_iff.1 hv
  exact h.values (key, v) (by simp)

variable {α : Type} {P : α → Prop}

theorem alter_keys {key : String} {f : Option Value → Option (α × Value)} {entries entries' : Entries}
    {a : α} (h : alter key f entries = some (a, entries')) {k : String} (hk : k ∈ entries'.keys) :
    k = key ∨ k ∈ entries.keys := by
  induction entries generalizing entries' with
  | nil =>
    obtain ⟨⟨a', v⟩, -, heq⟩ := Option.map_eq_some_iff.1 h
    cases heq
    exact .inl (by simpa [keys] using hk)
  | cons e rest ih =>
    obtain ⟨k', v⟩ := e
    rw [alter] at h
    split at h
    · obtain ⟨⟨a', v'⟩, -, heq⟩ := Option.map_eq_some_iff.1 h
      cases heq
      exact .inr hk
    · obtain ⟨⟨a', rest'⟩, hrest, heq⟩ := Option.map_eq_some_iff.1 h
      cases heq
      rcases List.mem_cons.1 hk with rfl | hk
      · exact .inr List.mem_cons_self
      · exact (ih hrest hk).imp_right (List.mem_cons_of_mem k')

/-- An entry is changed or added; what the change keeps of one value, it keeps of the table. -/
theorem WellFormed.alter {key : String} {f : Option Value → Option (α × Value)}
    (hf : ∀ old a v, (∀ w ∈ old, w.WellFormed) → f old = some (a, v) → P a ∧ v.WellFormed)
    {entries entries' : Entries} {a : α} (h : entries.WellFormed)
    (halter : Entries.alter key f entries = some (a, entries')) : P a ∧ entries'.WellFormed := by
  induction entries generalizing entries' with
  | nil =>
    obtain ⟨⟨a', v⟩, hv, heq⟩ := Option.map_eq_some_iff.1 halter
    cases heq
    obtain ⟨ha, hv⟩ := hf none a v (by simp) hv
    exact ⟨ha, wellFormed_cons_iff.2 ⟨by simp [keys], hv, wellFormed_nil⟩⟩
  | cons e rest ih =>
    obtain ⟨k, w⟩ := e
    obtain ⟨hk, hw, hrest⟩ := wellFormed_cons_iff.1 h
    rw [Entries.alter] at halter
    split at halter
    · obtain ⟨⟨a', v⟩, hv, heq⟩ := Option.map_eq_some_iff.1 halter
      cases heq
      obtain ⟨ha, hv⟩ := hf (some w) a v (by simpa using hw) hv
      exact ⟨ha, wellFormed_cons_iff.2 ⟨hk, hv, hrest⟩⟩
    · rename_i hne
      obtain ⟨⟨a', rest'⟩, hrun, heq⟩ := Option.map_eq_some_iff.1 halter
      cases heq
      obtain ⟨ha, hrest'⟩ := ih hrest hrun
      -- the only key that the rest may have gained is `key`, and `k` is another one
      have hk' : k ∉ keys rest' := by
        intro hmem
        rcases alter_keys hrun hmem with heq | hold
        · exact hne heq
        · exact hk hold
      exact ⟨ha, wellFormed_cons_iff.2 ⟨hk', hw, hrest'⟩⟩

/-- A new key keeps a table well formed. -/
theorem WellFormed.insertNew {entries entries' : Entries} {key : String} {v : Value}
    (h : entries.WellFormed) (hv : v.WellFormed)
    (hinsert : Entries.insertNew entries key v = some entries') : entries'.WellFormed := by
  rw [Entries.insertNew] at hinsert
  split at hinsert
  · cases hinsert
  · rename_i hnew
    cases hinsert
    have hkey : key ∉ entries.keys := by
      intro hmem
      obtain ⟨e, he, rfl⟩ := List.mem_map.1 hmem
      exact hnew (List.any_eq_true.2 ⟨e, he, by simp⟩)
    refine ⟨?_, ?_⟩
    · rw [keys, List.map_append]
      exact h.nodup.append (List.nodup_singleton key) (by simpa [keys] using hkey)
    · exact List.forall_mem_append.2 ⟨h.values, List.forall_mem_singleton.2 hv⟩

/-- What is done to the table at the end of a path is done to the whole tree. -/
theorem WellFormed.descend {dotted : Bool} {f : Origin → Entries → Option (α × Entries)}
    (hf : ∀ origin sub a sub', sub.WellFormed → f origin sub = some (a, sub') →
      P a ∧ sub'.WellFormed)
    {path : List String} {origin : Origin} {entries entries' : Entries} {a : α}
    (h : entries.WellFormed)
    (hdescend : Entries.descend dotted f path origin entries = some (a, entries')) :
    P a ∧ entries'.WellFormed := by
  induction path generalizing origin entries entries' a with
  | nil => exact hf origin entries a entries' h hdescend
  | cons key path ih =>
    rw [Entries.descend] at hdescend
    refine h.alter (fun old a v hold hstep => ?_) hdescend
    -- under the key stands nothing yet, a table, or an array of tables, whose last one is meant
    split at hstep
    · obtain ⟨⟨a', sub⟩, hsub, heq⟩ := Option.map_eq_some_iff.1 hstep
      cases heq
      obtain ⟨ha, hsub⟩ := ih wellFormed_nil hsub
      exact ⟨ha, hsub.table _⟩
    · rename_i origin' sub
      split at hstep
      · cases hstep
      · obtain ⟨⟨a', sub'⟩, hsub, heq⟩ := Option.map_eq_some_iff.1 hstep
        cases heq
        obtain ⟨ha, hsub⟩ := ih (wellFormed_of_table (hold _ rfl)) hsub
        exact ⟨ha, hsub.table _⟩
    · rename_i items
      split at hstep
      · cases hstep
      · rename_i last hlast
        obtain ⟨⟨a', last'⟩, hsub, heq⟩ := Option.map_eq_some_iff.1 hstep
        cases heq
        have hitems := wellFormed_tables_iff.1 (hold _ rfl)
        obtain ⟨ha, hlast'⟩ := ih (hitems last (List.mem_of_getLast? hlast)) hsub
        have hfront : ∀ t ∈ items.dropLast, WellFormed t := fun t ht =>
          hitems t ((List.dropLast_sublist items).mem ht)
        refine ⟨ha, wellFormed_tables_iff.2 ?_⟩
        exact List.forall_mem_append.2 ⟨hfront, List.forall_mem_singleton.2 hlast'⟩
    · cases hstep

/-- Where only the tree is of interest, a change need not say what it gives besides. -/
theorem WellFormed.of_descend {dotted : Bool} {f : Origin → Entries → Option (α × Entries)}
    (hf : ∀ origin sub a sub', sub.WellFormed → f origin sub = some (a, sub') → sub'.WellFormed)
    {path : List String} {origin : Origin} {entries entries' : Entries} {a : α}
    (h : entries.WellFormed)
    (hdescend : Entries.descend dotted f path origin entries = some (a, entries')) :
    entries'.WellFormed :=
  (h.descend (P := fun _ => True)
    (fun origin sub a sub' hsub hchange => ⟨trivial, hf origin sub a sub' hsub hchange⟩)
    hdescend).2

/-- Assigning along a dotted path keeps a table well formed. -/
theorem WellFormed.assign {entries entries' : Entries} {path : List String} {v : Value}
    (h : entries.WellFormed) (hv : v.WellFormed)
    (hassign : Entries.assign entries path v = some entries') : entries'.WellFormed := by
  rw [Entries.assign] at hassign
  split at hassign
  · cases hassign
  · obtain ⟨⟨_, entries''⟩, hrun, heq⟩ := Option.map_eq_some_iff.1 hassign
    cases heq
    refine h.of_descend (fun origin sub a sub' hsub hput => ?_) hrun
    split at hput
    · cases hput
    · obtain ⟨sub'', hinsert, heq⟩ := Option.map_eq_some_iff.1 hput
      cases heq
      exact hsub.insertNew hv hinsert

/-- A table taken out is well formed, and so is the rest. -/
theorem WellFormed.extract {entries table entries' : Entries} {path : List String}
    (h : entries.WellFormed) (hextract : Entries.extract entries path = some (table, entries')) :
    table.WellFormed ∧ entries'.WellFormed := by
  rw [Entries.extract] at hextract
  split at hextract
  · cases hextract
  · refine h.descend (P := WellFormed) (fun origin sub a sub' hsub hfind => ?_) hextract
    split at hfind
    · cases hfind
      exact ⟨wellFormed_nil, hsub⟩
    · rename_i inner hinner
      cases hfind
      exact ⟨wellFormed_of_table (wellFormed_of_lookup hsub hinner), hsub.filter _⟩
    · cases hfind

/-- Putting a table back keeps the whole well formed. -/
theorem WellFormed.put {entries table entries' : Entries} {path : List String}
    (h : entries.WellFormed) (htable : table.WellFormed)
    (hput : Entries.put entries path table = some entries') : entries'.WellFormed := by
  rw [Entries.put] at hput
  split at hput
  · cases hput
  · obtain ⟨⟨_, entries''⟩, hrun, heq⟩ := Option.map_eq_some_iff.1 hput
    cases heq
    refine h.of_descend (fun origin sub a sub' hsub hinsert => ?_) hrun
    obtain ⟨sub'', hinsert, heq⟩ := Option.map_eq_some_iff.1 hinsert
    cases heq
    exact hsub.insertNew (htable.table _) hinsert

/-- Adding to an array of tables keeps the whole well formed. -/
theorem WellFormed.push {entries table entries' : Entries} {path : List String}
    (h : entries.WellFormed) (htable : table.WellFormed)
    (hpush : Entries.push entries path table = some entries') : entries'.WellFormed := by
  rw [Entries.push] at hpush
  split at hpush
  · cases hpush
  · obtain ⟨⟨_, entries''⟩, hrun, heq⟩ := Option.map_eq_some_iff.1 hpush
    cases heq
    refine h.of_descend (fun origin sub a sub' hsub happend => ?_) hrun
    refine (hsub.alter (P := fun _ => True) (fun old a v hold hstep => ?_) happend).2
    split at hstep
    · cases hstep
      exact ⟨trivial, wellFormed_tables_iff.2 (by simpa using htable)⟩
    · rename_i items
      cases hstep
      have hitems := wellFormed_tables_iff.1 (hold _ rfl)
      refine ⟨trivial, wellFormed_tables_iff.2 ?_⟩
      exact List.forall_mem_append.2 ⟨hitems, List.forall_mem_singleton.2 htable⟩
    · cases hstep

end Entries

/-! ## Documents -/

namespace Document

/-- Both the finished tables and the open one are well-formed. -/
structure WellFormed (d : Document) : Prop where
  finished : d.finished.WellFormed
  entries : d.entries.WellFormed

theorem WellFormed.close {d : Document} (h : d.WellFormed) {entries : Entries}
    (hclose : d.close = some entries) : entries.WellFormed := by
  rw [Document.close] at hclose
  split at hclose
  · cases hclose
    exact h.entries
  · exact h.finished.put h.entries hclose
  · exact h.finished.push h.entries hclose

end Document

/-- What a statement assigns is well-formed. -/
def Statement.WellFormed : Statement → Prop
  | assign _ v => v.WellFormed
  | _ => True

/-- A statement keeps a document well formed. -/
theorem Document.WellFormed.add {d d' : Document} (h : d.WellFormed) {s : Statement}
    (hs : s.WellFormed) (hadd : d.add s = some d') : d'.WellFormed := by
  cases s with
  | header path =>
    rw [Document.add] at hadd
    split at hadd
    · cases hadd
    · rename_i finished hclose
      obtain ⟨⟨entries, finished'⟩, hextract, heq⟩ := Option.map_eq_some_iff.1 hadd
      cases heq
      obtain ⟨hentries, hfinished⟩ := (h.close hclose).extract hextract
      exact ⟨hfinished, hentries⟩
  | element path =>
    obtain ⟨finished, hclose, heq⟩ := Option.map_eq_some_iff.1 hadd
    cases heq
    exact ⟨h.close hclose, Entries.wellFormed_nil⟩
  | assign path v =>
    obtain ⟨entries, hassign, heq⟩ := Option.map_eq_some_iff.1 hadd
    cases heq
    exact ⟨h.finished, h.entries.assign hs hassign⟩

/-- Statements keep a document well formed. -/
theorem Document.WellFormed.run {statements : List Statement}
    (hstatements : ∀ s ∈ statements, s.WellFormed) {d d' : Document} (h : d.WellFormed)
    (hrun : statements.foldlM Document.add d = some d') : d'.WellFormed := by
  induction statements generalizing d with
  | nil =>
    cases hrun
    exact h
  | cons s rest ih =>
    obtain ⟨hs, hrest⟩ := List.forall_mem_cons.1 hstatements
    rw [List.foldlM_cons] at hrun
    obtain ⟨d₁, hadd, hrun⟩ := Option.bind_eq_some_iff.1 hrun
    exact ih hrest (h.add hs hadd) hrun

/-- Documents of well-formed statements are well formed. -/
theorem wellFormed_of_ofStatements? {statements : List Statement}
    (hstatements : ∀ s ∈ statements, s.WellFormed) {entries : Entries}
    (h : Document.ofStatements? statements = some entries) : entries.WellFormed := by
  obtain ⟨d, hrun, hclose⟩ := Option.bind_eq_some_iff.1 h
  have hempty : Document.WellFormed {} := ⟨Entries.wellFormed_nil, Entries.wellFormed_nil⟩
  exact (hempty.run hstatements hrun).close hclose

/-! ## Readers -/

/-- The reader gives well-formed values only. -/
def Sound (read : List Char → Option (Value × List Char)) : Prop :=
  ∀ s v rest, read s = some (v, rest) → v.WellFormed

theorem wellFormed_of_integer? {negative : Bool} {n : Nat} {v : Value}
    (h : integer? negative n = some v) : v.WellFormed := by
  rw [integer?] at h
  split at h
  · split at h
    · cases h
      exact .integer (by omega)
    · cases h
  · split at h
    · rename_i hn
      cases h
      exact .integer (by exact_mod_cast hn)
    · cases h

theorem wellFormed_of_float? {negative : Bool} {whole fraction : List Char} {exponent : Int}
    {v : Value} (h : float? negative whole fraction exponent = some v) : v.WellFormed := by
  rw [float?] at h
  split at h
  · cases h
  · cases h
    exact .float _

/-- A value that is given together with what follows it. -/
theorem wellFormed_of_bind {o : Option Value} (ho : ∀ v, o = some v → v.WellFormed)
    {more rest : List Char} {v : Value} (h : (o.bind fun v => pure (v, more)) = some (v, rest)) :
    v.WellFormed := by
  obtain ⟨w, hw, heq⟩ := Option.bind_eq_some_iff.1 h
  cases heq
  exact ho v hw

theorem readInBase_sound (base : Nat) : Sound (readInBase base) := by
  intro s v rest h
  obtain ⟨ds, -, h⟩ := Option.bind_eq_some_iff.1 h
  exact wellFormed_of_bind (fun _ => wellFormed_of_integer?) h

theorem readDecimal_sound : Sound readDecimal := by
  intro s v rest h
  obtain ⟨whole, -, h⟩ := Option.bind_eq_some_iff.1 h
  simp only [Option.bind_eq_bind] at h
  split at h
  · obtain ⟨fraction, -, h⟩ := Option.bind_eq_some_iff.1 h
    split at h
    · obtain ⟨exponent, -, h⟩ := Option.bind_eq_some_iff.1 h
      exact wellFormed_of_bind (fun _ => wellFormed_of_float?) h
    · obtain ⟨exponent, -, h⟩ := Option.bind_eq_some_iff.1 h
      exact wellFormed_of_bind (fun _ => wellFormed_of_float?) h
    · exact wellFormed_of_bind (fun _ => wellFormed_of_float?) h
  · obtain ⟨exponent, -, h⟩ := Option.bind_eq_some_iff.1 h
    exact wellFormed_of_bind (fun _ => wellFormed_of_float?) h
  · obtain ⟨exponent, -, h⟩ := Option.bind_eq_some_iff.1 h
    exact wellFormed_of_bind (fun _ => wellFormed_of_float?) h
  · exact wellFormed_of_bind (fun _ => wellFormed_of_integer?) h

theorem readSpecial_sound : Sound readSpecial := by
  intro s v rest h
  rw [readSpecial] at h
  split at h
  · cases h
    exact .float _
  · cases h
    exact .float _
  · cases h

theorem Sound.or {read read' : List Char → Option (Value × List Char)} (h : Sound read)
    (h' : Sound read') : Sound fun s => (read s).or (read' s) := by
  intro s v rest hor
  rcases Option.or_eq_some_iff.1 hor with hread | ⟨-, hread⟩
  · exact h s v rest hread
  · exact h' s v rest hread

/-- Numbers that are read fit. -/
theorem readNumber_sound : Sound readNumber := by
  intro s v rest h
  rw [readNumber.eq_def] at h
  split at h
  · exact readInBase_sound 16 _ _ _ h
  · exact readInBase_sound 8 _ _ _ h
  · exact readInBase_sound 2 _ _ _ h
  · exact readSpecial_sound.or readDecimal_sound _ _ _ h

theorem readDate_sound : Sound readDate := by
  intro s v rest h
  rw [readDate] at h
  split at h
  · cases h
    exact .datetime _
  · cases h

theorem readScalar_sound : Sound readScalar := by
  intro s v rest h
  rw [readScalar.eq_def] at h
  split at h
  · obtain ⟨⟨cs, rest'⟩, -, heq⟩ := Option.map_eq_some_iff.1 h
    cases heq
    exact .string _
  · obtain ⟨⟨cs, rest'⟩, -, heq⟩ := Option.map_eq_some_iff.1 h
    cases heq
    exact .string _
  · cases h
    exact .boolean true
  · cases h
    exact .boolean false
  · exact readDate_sound.or readNumber_sound _ _ _ h

theorem wellFormed_of_readItems {value : List Char → Option (Value × List Char)}
    (hvalue : Sound value) {bound : Nat} {s rest : List Char} {items : List Value}
    (h : readItems value bound s = some (items, rest)) : ∀ v ∈ items, v.WellFormed := by
  induction bound generalizing s items with
  | zero => cases h
  | succ bound ih =>
    rw [readItems] at h
    split at h
    · cases h
    · cases h
      simp
    · split at h
      · cases h
      · rename_i v rest' hv
        split at h
        · obtain ⟨⟨vs, rest''⟩, hrest, heq⟩ := Option.map_eq_some_iff.1 h
          cases heq
          exact List.forall_mem_cons.2 ⟨hvalue _ _ _ hv, ih hrest⟩
        · cases h
          simpa using hvalue _ _ _ hv
        · cases h

theorem wellFormed_of_readPair {value : List Char → Option (Value × List Char)}
    (hvalue : Sound value) {s rest : List Char} {pair : List String × Value}
    (h : readPair value s = some (pair, rest)) : pair.2.WellFormed := by
  rw [readPair] at h
  split at h
  · obtain ⟨⟨v, rest'⟩, hv, heq⟩ := Option.map_eq_some_iff.1 h
    cases heq
    exact hvalue _ _ _ hv
  · cases h

theorem wellFormed_of_readPairs {value : List Char → Option (Value × List Char)}
    (hvalue : Sound value) {bound : Nat} {s rest : List Char} {pairs : List (List String × Value)}
    (h : readPairs value bound s = some (pairs, rest)) : ∀ p ∈ pairs, p.2.WellFormed := by
  induction bound generalizing s pairs with
  | zero => cases h
  | succ bound ih =>
    rw [readPairs] at h
    split at h
    · cases h
    · rename_i pair rest' hpair
      split at h
      · obtain ⟨⟨ps, rest''⟩, hrest, heq⟩ := Option.map_eq_some_iff.1 h
        cases heq
        exact List.forall_mem_cons.2 ⟨wellFormed_of_readPair hvalue hpair, ih hrest⟩
      · cases h
        simpa using wellFormed_of_readPair hvalue hpair
      · cases h

theorem wellFormed_of_assignments {pairs : List (List String × Value)}
    (hpairs : ∀ p ∈ pairs, p.2.WellFormed) {entries entries' : Entries} (h : entries.WellFormed)
    (hrun : pairs.foldlM (fun entries (path, v) => Entries.assign entries path v) entries =
      some entries') : entries'.WellFormed := by
  induction pairs generalizing entries with
  | nil =>
    cases hrun
    exact h
  | cons p rest ih =>
    obtain ⟨hp, hrest⟩ := List.forall_mem_cons.1 hpairs
    rw [List.foldlM_cons] at hrun
    obtain ⟨entries₁, hassign, hrun⟩ := Option.bind_eq_some_iff.1 hrun
    exact ih hrest (h.assign hp hassign) hrun

/-- Inline tables are well formed if their values are. -/
theorem readInline_sound {value : List Char → Option (Value × List Char)} (hvalue : Sound value) :
    Sound (readInline value) := by
  intro s v rest h
  rw [readInline] at h
  split at h
  · cases h
    exact Entries.wellFormed_nil.table _
  · split at h
    · cases h
    · rename_i pairs rest' hpairs
      obtain ⟨table, htable, heq⟩ := Option.map_eq_some_iff.1 h
      cases heq
      obtain ⟨entries, hrun, rfl⟩ := Option.map_eq_some_iff.1 htable
      exact (wellFormed_of_assignments (wellFormed_of_readPairs hvalue hpairs)
        Entries.wellFormed_nil hrun).table _

/-- Values that are read are well formed, however deeply nested. -/
theorem readValue_sound (depth : Nat) : Sound (readValue depth) := by
  induction depth with
  | zero =>
    intro s v rest h
    rw [readValue.eq_def] at h
    simp only at h
    split at h
    · cases h
    · cases h
    · exact readScalar_sound _ _ _ h
  | succ depth ih =>
    intro s v rest h
    rw [readValue.eq_def] at h
    simp only at h
    split at h
    · obtain ⟨⟨items, rest'⟩, hitems, heq⟩ := Option.map_eq_some_iff.1 h
      cases heq
      exact .array (wellFormed_of_readItems ih hitems)
    · exact readInline_sound ih _ _ _ h
    · exact readScalar_sound _ _ _ h

/-- Statements that are read are well formed. -/
theorem wellFormed_of_readStatement {s rest : List Char} {statement : Statement}
    (h : readStatement s = some (statement, rest)) : statement.WellFormed := by
  rw [readStatement.eq_def] at h
  split at h
  · split at h
    · obtain ⟨rest', -, heq⟩ := Option.map_eq_some_iff.1 h
      cases heq
      trivial
    · cases h
  · split at h
    · obtain ⟨rest', -, heq⟩ := Option.map_eq_some_iff.1 h
      cases heq
      trivial
    · cases h
  · split at h
    · rename_i path v rest' hpair
      obtain ⟨rest'', -, heq⟩ := Option.map_eq_some_iff.1 h
      cases heq
      exact wellFormed_of_readPair (readValue_sound maxDepth) hpair
    · cases h

theorem wellFormed_of_readStatements {bound : Nat} {s : List Char} {statements : List Statement}
    (h : readStatements bound s = some statements) : ∀ st ∈ statements, st.WellFormed := by
  induction bound generalizing s statements with
  | zero =>
    rw [readStatements] at h
    split at h
    · cases h
      simp
    · cases h
  | succ bound ih =>
    rw [readStatements] at h
    split at h
    · cases h
      simp
    · split at h
      · obtain ⟨rest, -, hrest⟩ := Option.bind_eq_some_iff.1 h
        exact ih hrest
      · split at h
        · cases h
        · rename_i statement rest hstatement
          obtain ⟨statements', hrest, rfl⟩ := Option.map_eq_some_iff.1 h
          exact List.forall_mem_cons.2 ⟨wellFormed_of_readStatement hstatement, ih hrest⟩

/-- No key stands twice in a document, and no number in it is out of bounds. -/
theorem wellFormed_of_parse? {text : String} {entries : Entries} (h : parse? text = some entries) :
    entries.WellFormed := by
  obtain ⟨statements, hread, hbuild⟩ := Option.bind_eq_some_iff.1 h
  exact wellFormed_of_ofStatements? (wellFormed_of_readStatements hread) hbuild

end QuorumKeeper.Toml
