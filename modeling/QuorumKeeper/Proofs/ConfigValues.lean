import QuorumKeeper.Config.Parse
import QuorumKeeper.Proofs.TomlTables

/-!
# What an accepted configuration holds

A configuration takes its parts from a well-formed tree. So the number of nodes that must remain
fits into 64 bits with a sign, and no endpoint stands twice in a static table
(`Config.wellFormed_of_parse`), in whatever shape the sections were written.
-/

set_option autoImplicit false

namespace QuorumKeeper

open Toml (Value Entries)

variable {ε α β : Type}

theorem ok_bind (a : α) (f : α → Except ε β) : (Except.ok a >>= f) = f a :=
  rfl

/-- A step after another succeeds if both do. -/
theorem bind_eq_ok_iff {x : Except ε α} {f : α → Except ε β} {b : β} :
    (x >>= f) = .ok b ↔ ∃ a, x = .ok a ∧ f a = .ok b := by
  cases x with
  | error e => exact ⟨nofun, nofun⟩
  | ok a => exact ⟨fun h => ⟨a, rfl, h⟩, fun ⟨_, ha, h⟩ => Except.ok.inj ha ▸ h⟩

theorem map_eq_ok_iff {x : Except ε α} {f : α → β} {b : β} :
    x.map f = .ok b ↔ ∃ a, x = .ok a ∧ f a = b := by
  cases x with
  | error e => exact ⟨nofun, nofun⟩
  | ok a => exact ⟨fun h => ⟨a, rfl, Except.ok.inj h⟩, fun ⟨_, ha, h⟩ => by cases ha; exact congrArg _ h⟩

/-- Each result of a reader that goes through a list is the result for one of its items. -/
theorem exists_of_mapM_eq_ok {f : α → Except ε β} {items : List α} {results : List β}
    (h : items.mapM f = .ok results) {b : β} (hb : b ∈ results) : ∃ a ∈ items, f a = .ok b := by
  induction items generalizing results with
  | nil =>
    cases h
    simp at hb
  | cons a rest ih =>
    rw [List.mapM_cons] at h
    obtain ⟨b', hb', h⟩ := bind_eq_ok_iff.1 h
    obtain ⟨bs, hbs, h⟩ := bind_eq_ok_iff.1 h
    cases h
    rcases List.mem_cons.1 hb with rfl | hb
    · exact ⟨a, List.mem_cons_self, hb'⟩
    · obtain ⟨a', ha', hread⟩ := ih hbs hb
      exact ⟨a', List.mem_cons_of_mem a ha', hread⟩

namespace Schema

/-! ## Shapes -/

/-- What stands under the fields is well-formed. -/
def Shape.WellFormed : Shape → Prop
  | named entries => entries.WellFormed
  | listed items => ∀ v ∈ items, v.WellFormed

theorem wellFormed_of_shape? {v : Value} (hv : v.WellFormed) {shape : Shape}
    (h : shape? v = some shape) : shape.WellFormed := by
  cases hv with
  | table hkeys hvalues =>
    cases h
    exact ⟨hkeys, hvalues⟩
  | datetime text =>
    cases h
    exact Toml.Entries.wellFormed_cons_iff.2
      ⟨by simp [Toml.Entries.keys], .string text, Toml.Entries.wellFormed_nil⟩
  | array hitems =>
    cases h
    exact hitems
  | tables hkeys hvalues =>
    cases h
    intro v hv
    obtain ⟨t, ht, rfl⟩ := List.mem_map.1 hv
    exact .table (hkeys t ht) (hvalues t ht)
  | _ => cases h

/-- What every entry keeps, the whole section keeps. -/
theorem visit_keeps {P : α → Prop} {entry : α → String → Value → Except SchemaError α}
    (hentry : ∀ a key v a', P a → v.WellFormed → entry a key v = .ok a' → P a')
    {entries : Entries} (hentries : ∀ e ∈ entries, e.2.WellFormed) {start a : α} (hstart : P start)
    (h : visit entry start entries = .ok a) : P a := by
  induction entries generalizing start with
  | nil =>
    cases h
    exact hstart
  | cons e rest ih =>
    obtain ⟨he, hrest⟩ := List.forall_mem_cons.1 hentries
    rw [visit, List.foldlM_cons] at h
    obtain ⟨a₁, hstep, h⟩ := bind_eq_ok_iff.1 h
    exact ih hrest (hentry start e.1 e.2 a₁ hstart he hstep) h

/-- What holds of everything read holds of the next thing read. -/
theorem next_keeps {P : α → Prop} {read : Value → Except SchemaError α}
    (hread : ∀ v a, v.WellFormed → read v = .ok a → P a) {items rest : List Value}
    (hitems : ∀ v ∈ items, v.WellFormed) {o : Option α} (h : next read items = .ok (o, rest)) :
    (∀ a ∈ o, P a) ∧ ∀ v ∈ rest, v.WellFormed := by
  cases items with
  | nil =>
    cases h
    simp
  | cons v items =>
    obtain ⟨hv, hrest⟩ := List.forall_mem_cons.1 hitems
    obtain ⟨a, ha, heq⟩ := map_eq_ok_iff.1 h
    cases heq
    exact ⟨by simpa using hread v a hv ha, hrest⟩

/-! ## The section on the cluster -/

/-- A count that is read fits into a signed 64-bit integer. -/
theorem count_lt {v : Value} (hv : v.WellFormed) {n : Nat} (h : count v = .ok n) : n < 2 ^ 63 := by
  cases hv with
  | integer hn =>
    rw [count, natural] at h
    split at h
    · cases h
      omega
    · cases h
  | _ => cases h

theorem cluster_minimum_lt {v : Value} (hv : v.WellFormed) {c : ClusterConfig}
    (h : cluster v = .ok c) : c.minimum < 2 ^ 63 := by
  rw [cluster] at h
  split at h
  · rename_i entries hshape
    have hentries : entries.WellFormed := wellFormed_of_shape? hv hshape
    refine visit_keeps (P := fun c => c.minimum < 2 ^ 63) (fun c key v c' hc hv hentry => ?_)
      hentries.values (by decide) h
    rw [clusterEntry.eq_def] at hentry
    split at hentry
    · obtain ⟨nodes, -, rfl⟩ := map_eq_ok_iff.1 hentry
      exact hc
    · obtain ⟨minimum, hminimum, rfl⟩ := map_eq_ok_iff.1 hentry
      exact count_lt hv hminimum
    · cases hentry
      exact hc
  · rename_i items hshape
    have hitems : ∀ v ∈ items, v.WellFormed := wellFormed_of_shape? hv hshape
    obtain ⟨⟨nodes, items₁⟩, hnodes, h⟩ := bind_eq_ok_iff.1 h
    obtain ⟨⟨minimum, items₂⟩, hminimum, h⟩ := bind_eq_ok_iff.1 h
    cases h
    have hitems₁ := (next_keeps (P := fun _ => True) (fun _ _ _ _ => trivial) hitems hnodes).2
    have hcount := (next_keeps (P := (· < 2 ^ 63)) (fun _ _ hv => count_lt hv) hitems₁ hminimum).1
    cases minimum with
    | none =>
      -- a list may end before the number, whose default then applies
      show 1 < 2 ^ 63
      decide
    | some n => exact hcount n rfl
  · cases h

/-! ## The section on dialing -/

theorem tagged_rest {type tag : String} {variants : List String} {v : Value} (hv : v.WellFormed)
    {variant : String} {rest : Shape} (h : tagged type tag variants v = .ok (variant, rest)) :
    rest.WellFormed := by
  rw [tagged] at h
  split at h
  · rename_i entries hshape
    have hentries : entries.WellFormed := wellFormed_of_shape? hv hshape
    split at h
    · cases h
    · obtain ⟨name, -, heq⟩ := bind_eq_ok_iff.1 h
      cases heq
      exact hentries.filter _
  · rename_i t items hshape
    have hitems : ∀ v ∈ t :: items, v.WellFormed := wellFormed_of_shape? hv hshape
    obtain ⟨name, -, heq⟩ := bind_eq_ok_iff.1 h
    cases heq
    exact (List.forall_mem_cons.1 hitems).2
  · cases h
  · cases h

/-- What holds of everything read holds of a variant's fields. -/
theorem variantFields_keeps {P : α → Prop} {read : Value → Except SchemaError α}
    (hread : ∀ v a, v.WellFormed → read v = .ok a → P a) {name : String} {fields : List String}
    {shape : Shape} (hshape : shape.WellFormed) {values : List α}
    (h : variantFields name fields read shape = .ok values) : ∀ a ∈ values, P a := by
  cases shape with
  | named entries =>
    obtain ⟨found, hfound, h⟩ := bind_eq_ok_iff.1 h
    have hvalues : ∀ p ∈ found, P p.2 := by
      refine visit_keeps (P := fun found : List (String × α) => ∀ p ∈ found, P p.2)
        (fun found key v found' hold hv hentry => ?_) hshape.values (by simp) hfound
      split at hentry
      · obtain ⟨a, ha, rfl⟩ := map_eq_ok_iff.1 hentry
        exact List.forall_mem_append.2 ⟨hold, List.forall_mem_singleton.2 (hread v a hv ha)⟩
      · cases hentry
        exact hold
    intro a ha
    obtain ⟨f, -, hf⟩ := exists_of_mapM_eq_ok h ha
    split at hf
    · rename_i a' hlookup
      cases hf
      obtain ⟨before, after, rfl, -⟩ := List.lookup_eq_some_iff.1 hlookup
      exact hvalues (f, a) (by simp)
    · cases hf
  | listed items =>
    obtain ⟨values', hvalues, h⟩ := bind_eq_ok_iff.1 h
    split at h
    · cases h
    · split at h
      · cases h
      · cases h
        intro a ha
        obtain ⟨v, hv, hva⟩ := exists_of_mapM_eq_ok hvalues ha
        exact hread v a (hshape v (List.mem_of_mem_take hv)) hva

/-- The names of endpoints are the keys of their table. -/
theorem names_of_mapM {entries : Entries} {endpoints : List (String × Net.SocketAddress)}
    (h : (entries.mapM fun (name, v) => (socketAddress v).map fun a => (name, a)) =
      .ok endpoints) : endpoints.map Prod.fst = entries.keys := by
  induction entries generalizing endpoints with
  | nil =>
    cases h
    rfl
  | cons e rest ih =>
    rw [List.mapM_cons] at h
    obtain ⟨p, hp, h⟩ := bind_eq_ok_iff.1 h
    obtain ⟨ps, hps, h⟩ := bind_eq_ok_iff.1 h
    cases h
    obtain ⟨a, -, rfl⟩ := map_eq_ok_iff.1 hp
    exact congrArg (e.1 :: ·) (ih hps)

/-- Each endpoint is named once. -/
theorem endpoints_nodup {v : Value} (hv : v.WellFormed)
    {es : List (String × Net.SocketAddress)} (h : endpoints v = .ok es) :
    (es.map Prod.fst).Nodup := by
  rw [endpoints] at h
  split at h
  · rename_i entries hshape
    have hentries : entries.WellFormed := wellFormed_of_shape? hv hshape
    rw [names_of_mapM h]
    exact hentries.nodup
  · cases h

end Schema

/-- No endpoint stands twice in the table. -/
def ProxyConfig.Distinct : ProxyConfig → Prop
  | static endpoints => (endpoints.map Prod.fst).Nodup
  | _ => True

namespace Schema

theorem proxy_distinct {v : Value} (hv : v.WellFormed) {p : ProxyConfig} (h : proxy v = .ok p) :
    p.Distinct := by
  obtain ⟨⟨variant, shape⟩, htagged, h⟩ := bind_eq_ok_iff.1 h
  have hshape := tagged_rest hv htagged
  simp only at h
  split at h
  · obtain ⟨fields, -, heq⟩ := bind_eq_ok_iff.1 h
    cases heq
    trivial
  · obtain ⟨fields, -, heq⟩ := bind_eq_ok_iff.1 h
    cases heq
    trivial
  · obtain ⟨fields, hfields, heq⟩ := bind_eq_ok_iff.1 h
    cases heq
    have hnodup := variantFields_keeps
      (P := fun es : List (String × Net.SocketAddress) => (es.map Prod.fst).Nodup)
      (fun _ _ hv => endpoints_nodup hv) hshape hfields
    cases fields with
    | nil => exact List.nodup_nil
    | cons es rest => exact hnodup es List.mem_cons_self

/-! ## Configurations -/

/-- What has been read so far is in bounds and without repetitions. -/
structure Partial.WellFormed (c : Partial) : Prop where
  minimum_lt : ∀ s ∈ c.cluster, s.minimum < 2 ^ 63
  distinct : ∀ p ∈ c.proxy, p.Distinct

theorem Partial.WellFormed.entry {c c' : Partial} (h : c.WellFormed) {key : String} {v : Value}
    (hv : v.WellFormed) (hentry : Schema.entry c key v = .ok c') : c'.WellFormed := by
  rw [Schema.entry.eq_def] at hentry
  split at hentry
  · obtain ⟨s, hs, rfl⟩ := map_eq_ok_iff.1 hentry
    exact ⟨by simpa using cluster_minimum_lt hv hs, h.distinct⟩
  · obtain ⟨s, -, rfl⟩ := map_eq_ok_iff.1 hentry
    exact ⟨h.minimum_lt, h.distinct⟩
  · obtain ⟨s, hs, rfl⟩ := map_eq_ok_iff.1 hentry
    exact ⟨h.minimum_lt, by simpa using proxy_distinct hv hs⟩
  · cases hentry
    exact h

end Schema

namespace Config

/-- The number of nodes that must remain is in bounds, and no endpoint stands twice in a table. -/
structure WellFormed (c : Config) : Prop where
  minimum_lt : c.cluster.minimum < 2 ^ 63
  distinct : c.proxy.Distinct

/-- A configuration read from well-formed entries is well formed. -/
theorem wellFormed_of_config {entries : Entries} (hentries : entries.WellFormed) {c : Config}
    (h : Schema.config entries = .ok c) : c.WellFormed := by
  obtain ⟨p, hvisit, h⟩ := bind_eq_ok_iff.1 h
  have hp : p.WellFormed := Schema.visit_keeps
    (fun _ _ _ _ hold hv hentry => hold.entry hv hentry) hentries.values
    ⟨by simp, by simp⟩ hvisit
  split at h
  · cases h
  · rename_i cluster hcluster
    cases h
    refine ⟨hp.minimum_lt cluster hcluster, ?_⟩
    cases hproxy : p.proxy with
    | none => trivial
    | some proxy => exact hp.distinct proxy hproxy

theorem ofEntries_eq_ok_iff {entries : Entries} {c : Config} :
    ofEntries entries = .ok c ↔ Schema.config entries = .ok c ∧ c.check = .ok () := by
  rw [ofEntries]
  cases hconfig : Schema.config entries with
  | error e => simp
  | ok c' =>
    simp only [map_eq_ok_iff, Except.ok.injEq]
    constructor
    · rintro ⟨_, hcheck, rfl⟩
      exact ⟨rfl, hcheck⟩
    · rintro ⟨rfl, hcheck⟩
      exact ⟨(), hcheck, rfl⟩

/-- A text is accepted if it parses, fits the schema and passes the checks. -/
theorem parse_eq_ok_iff {text : String} {c : Config} :
    parse text = .ok c ↔
      ∃ entries, Toml.parse? text = some entries ∧ Schema.config entries = .ok c ∧
        c.check = .ok () := by
  rw [parse]
  cases Toml.parse? text with
  | none => simp
  | some entries => simp [ofEntries_eq_ok_iff]

/-- Accepted configurations are well formed. -/
theorem wellFormed_of_parse {text : String} {c : Config} (h : parse text = .ok c) :
    c.WellFormed := by
  obtain ⟨entries, hparse, hconfig, -⟩ := parse_eq_ok_iff.1 h
  exact wellFormed_of_config (Toml.wellFormed_of_parse? hparse) hconfig

end Config

end QuorumKeeper
