import QuorumKeeper.Config.Render
import QuorumKeeper.Proofs.ConfigValues
import QuorumKeeper.Proofs.SocketAddresses

/-!
# Configurations survive writing

An accepted configuration can be written, and what is written is accepted as the same configuration
(`Config.parse_render`), absent fields still absent. The sections make a tree (`Config.entries`),
and reading that tree gives the parts back one by one. A static table may be written in any order of
its endpoints.
-/

set_option autoImplicit false

namespace QuorumKeeper

open Toml (Value Entries Field Section fieldEntries Builds)

variable {α β : Type}

/-! ## The tree of a configuration -/

namespace EtcdConfig

/-- The table of the section, with the one below it. -/
def tree (c : EtcdConfig) : Value :=
  match c.credentials with
  | none => .table .header (fieldEntries c.fields)
  | some source =>
    .table (if c.fields.isEmpty then .implied else .header)
      (fieldEntries c.fields ++ [("credentials", .table .header (fieldEntries source.fields))])

theorem fields_nodup (c : EtcdConfig) : (c.fields.map Prod.fst).Nodup := by
  obtain ⟨port, dial, call, name, credentials⟩ := c
  cases port <;> cases dial <;> cases call <;> cases name <;> simp [fields, optionalField]

theorem credentials_not_mem (c : EtcdConfig) : "credentials" ∉ (fieldEntries c.fields).keys := by
  obtain ⟨port, dial, call, name, credentials⟩ := c
  cases port <;> cases dial <;> cases call <;> cases name <;>
    simp [fields, optionalField, fieldEntries, Toml.Entries.keys]

end EtcdConfig

theorem CredentialSource.fields_nodup (s : CredentialSource) : (s.fields.map Prod.fst).Nodup := by
  cases s <;> simp [fields]

/-- The sections of the cluster's settings build its table. -/
theorem EtcdConfig.builds (c : EtcdConfig) {sections : List Section} {entries : Entries}
    (h : Builds sections entries) (hkey : "etcd" ∉ entries.keys) :
    Builds (sections ++ c.sections) (entries ++ [("etcd", c.tree)]) := by
  rw [EtcdConfig.sections, tree]
  cases hcredentials : c.credentials with
  | none => exact h.table hkey c.fields_nodup
  | some source =>
    by_cases hempty : c.fields.isEmpty
    · have hfields : c.fields = [] := List.isEmpty_iff.1 hempty
      simp only [hempty, if_true]
      rw [hfields]
      exact h.through hkey source.fields_nodup
    · have hbuilds := (h.table hkey c.fields_nodup).inner hkey (by decide) c.credentials_not_mem
        source.fields_nodup
      simp only [hempty]
      simpa using hbuilds

namespace ProxyConfig

/-- The fields of the table of endpoints. -/
def endpointFields (endpoints : List (String × Net.SocketAddress)) : List (String × Field) :=
  endpoints.map fun (name, address) => (name, .string address.text)

/-- The entries of the section, the table of endpoints among them. -/
def entries : ProxyConfig → Entries
  | dns domain => [("kind", .string "dns"), ("domain", .string domain)]
  | connect address => [("kind", .string "connect"), ("address", .string address)]
  | static endpoints =>
    [("kind", .string "static"),
      ("endpoints", .table .header (fieldEntries (endpointFields endpoints)))]

/-- The sections of the proxy's settings build its table. -/
theorem builds {p : ProxyConfig} (hp : p.Distinct) {before : List Section} {tree : Entries}
    (h : Builds before tree) (hkey : "proxy" ∉ tree.keys) :
    Builds (before ++ p.sections) (tree ++ [("proxy", .table .header p.entries)]) := by
  cases p with
  | dns domain => exact h.table hkey (by simp)
  | connect address => exact h.table hkey (by simp)
  | static endpoints =>
    have hnames : ((endpointFields endpoints).map Prod.fst).Nodup := by
      have hnames : (endpointFields endpoints).map Prod.fst = endpoints.map Prod.fst := by
        simp [endpointFields]
      rw [hnames]
      exact hp
    have hown : Builds (before ++ [⟨["proxy"], [("kind", .string "static")]⟩])
        (tree ++ [("proxy", .table .header [("kind", .string "static")])]) :=
      h.table hkey (by simp)
    have hbuilds : Builds
        (before ++ [⟨["proxy"], [("kind", .string "static")]⟩] ++
          [⟨["proxy", "endpoints"], endpointFields endpoints⟩])
        (tree ++ [("proxy", .table .header (static endpoints).entries)]) :=
      hown.inner hkey (by decide) (by simp [Toml.Entries.keys]) hnames
    rwa [List.append_assoc] at hbuilds

end ProxyConfig

namespace Config

/-- The tree that the sections of a configuration make. -/
def entries (c : Config) : Entries :=
  ("cluster", .table .header (fieldEntries (clusterSection c.cluster).fields)) ::
    ((match c.etcd with
      | none => []
      | some etcd => [("etcd", etcd.tree)]) ++ [("proxy", .table .header c.proxy.entries)])

theorem builds {c : Config} (h : c.proxy.Distinct) : Builds c.sections c.entries := by
  have hcluster : Builds [clusterSection c.cluster]
      [("cluster", .table .header (fieldEntries (clusterSection c.cluster).fields))] :=
    Builds.nil.table (by simp [Toml.Entries.keys]) (by simp)
  rw [sections, entries]
  cases c.etcd with
  | none => exact ProxyConfig.builds h hcluster (by simp [Toml.Entries.keys])
  | some etcd =>
    have hetcd := etcd.builds hcluster (by simp [Toml.Entries.keys])
    have hproxy := ProxyConfig.builds h hetcd (by simp [Toml.Entries.keys])
    simpa using hproxy

end Config

/-! ## Writing -/

theorem CredentialSource.isWritable_fields (s : CredentialSource) :
    ∀ f ∈ s.fields, f.2.isWritable = true := by
  cases s <;> simp [fields, Field.isWritable]

theorem EtcdConfig.isWritable_optionalField (key : String) {write : α → Field}
    (hwrite : ∀ a, (write a).isWritable = true) (o : Option α) :
    ∀ f ∈ optionalField key write o, f.2.isWritable = true := by
  cases o with
  | none => simp [optionalField]
  | some a => simpa [optionalField] using hwrite a

/-- Every field of the cluster's settings can be written. -/
theorem EtcdConfig.isWritable_fields (c : EtcdConfig) :
    ∀ f ∈ c.fields, f.2.isWritable = true := by
  have hport : ∀ p : UInt16, (Field.integer p.toNat).isWritable = true := fun p => by
    have hp : p.toNat < 65536 := p.toNat_lt
    exact decide_eq_true (Nat.lt_trans hp (by decide))
  simp only [fields, List.forall_mem_append]
  exact ⟨⟨⟨isWritable_optionalField _ hport _, isWritable_optionalField _ (fun _ => rfl) _⟩,
    isWritable_optionalField _ (fun _ => rfl) _⟩, isWritable_optionalField _ (fun _ => rfl) _⟩

/-- No section has a name of more than two parts. -/
theorem writable_of_fields {path : List String} {fields : List (String × Field)} (hpath : path ≠ [])
    (hlength : path.length ≤ 2) (h : ∀ f ∈ fields, f.2.isWritable = true) :
    Section.Writable ⟨path, fields⟩ :=
  ⟨hpath, Nat.le_trans hlength (by decide), h⟩

theorem EtcdConfig.writable_sections (c : EtcdConfig) : ∀ s ∈ c.sections, s.Writable := by
  have hown : Section.Writable ⟨["etcd"], c.fields⟩ :=
    writable_of_fields (by simp) (by simp) c.isWritable_fields
  rw [sections]
  cases c.credentials with
  | none => simpa using hown
  | some source =>
    have hbelow : Section.Writable ⟨["etcd", "credentials"], source.fields⟩ :=
      writable_of_fields (by simp) (by simp) source.isWritable_fields
    by_cases hempty : c.fields.isEmpty
    · simpa [hempty] using hbelow
    · simpa [hempty] using ⟨hown, hbelow⟩

theorem ProxyConfig.isWritable_endpointFields (endpoints : List (String × Net.SocketAddress)) :
    ∀ f ∈ endpointFields endpoints, f.2.isWritable = true := by
  intro f hf
  obtain ⟨e, -, rfl⟩ := List.mem_map.1 hf
  rfl

theorem ProxyConfig.writable_sections (p : ProxyConfig) : ∀ s ∈ p.sections, s.Writable := by
  have hproxy : ∀ fields : List (String × Field), (∀ f ∈ fields, f.2.isWritable = true) →
      Section.Writable ⟨["proxy"], fields⟩ := fun _ => writable_of_fields (by simp) (by simp)
  cases p with
  | dns domain => simpa [sections] using hproxy _ (by simp [Field.isWritable])
  | connect address => simpa [sections] using hproxy _ (by simp [Field.isWritable])
  | static endpoints =>
    have hbelow : Section.Writable ⟨["proxy", "endpoints"], endpointFields endpoints⟩ :=
      writable_of_fields (by simp) (by simp) (isWritable_endpointFields endpoints)
    exact List.forall_mem_cons.2
      ⟨hproxy _ (by simp [Field.isWritable]), List.forall_mem_singleton.2 hbelow⟩

namespace Config

/-- Of all fields, only the number of nodes that must remain could be out of bounds. -/
theorem writable_sections {c : Config} (h : c.cluster.minimum < 2 ^ 63) :
    ∀ s ∈ c.sections, s.Writable := by
  have hcluster : (clusterSection c.cluster).Writable :=
    writable_of_fields (by simp) (by simp) (by simpa [Field.isWritable] using h)
  rw [sections]
  refine List.forall_mem_cons.2 ⟨hcluster, fun s hs => ?_⟩
  rcases List.mem_append.1 hs with hs | hs
  · cases hetcd : c.etcd with
    | none => simp [hetcd] at hs
    | some etcd =>
      rw [hetcd] at hs
      exact etcd.writable_sections s hs
  · exact c.proxy.writable_sections s hs

/-- A configuration with a count that fits can be written. -/
theorem render?_eq {c : Config} (h : c.cluster.minimum < 2 ^ 63) : c.render? = some c.render := by
  have hall : (c.sections.all fun s => s.fields.all (·.2.isWritable)) = true := by
    rw [List.all_eq_true]
    intro s hs
    exact List.all_eq_true.2 (writable_sections h s hs).fields
  rw [render?, Toml.print?, hall]
  rfl

/-- A written configuration parses back to its entries. -/
theorem parse?_render {c : Config} (h : c.WellFormed) : Toml.parse? c.render = some c.entries :=
  Toml.parse?_print (builds h.distinct) (writable_sections h.minimum_lt)

end Config

/-! ## Reading the tree -/

namespace Schema

/-- Entries are visited from left to right. -/
theorem visit_append (entry : α → String → Value → Except SchemaError α) (start : α)
    (entries entries' : Entries) :
    visit entry start (entries ++ entries') =
      visit entry start entries >>= fun a => visit entry a entries' :=
  List.foldlM_append

/-- A field that may be absent is read as such. -/
theorem visit_optional {entry : α → String → Value → Except SchemaError α} {key : String}
    {write : β → Field} {start : α} (step : Option β → α) (hnone : step none = start)
    (hsome : ∀ b, entry start key (write b).value = .ok (step (some b))) (o : Option β) :
    visit entry start (fieldEntries (EtcdConfig.optionalField key write o)) = .ok (step o) := by
  cases o with
  | none => exact congrArg Except.ok hnone.symm
  | some b =>
    have hvisit : visit entry start (fieldEntries (EtcdConfig.optionalField key write (some b))) =
        entry start key (write b).value >>= pure := rfl
    rw [hvisit, hsome]
    rfl

theorem texts_strings (items : List String) : texts (.array (items.map .string)) = .ok items := by
  have hread : (items.map Value.string).mapM text = .ok items := by
    induction items with
    | nil => rfl
    | cons s rest ih =>
      rw [List.map_cons, List.mapM_cons, ih]
      rfl
  exact hread

theorem natural_ok {bound n : Nat} (h : n ≤ bound) (expected : String) :
    natural bound expected (.integer n) = .ok n := by
  rw [natural, if_pos (by omega), Int.toNat_natCast]

theorem cluster_entries {c : ClusterConfig} (h : c.minimum < 2 ^ 63) :
    cluster (.table .header (fieldEntries (Config.clusterSection c).fields)) = .ok c := by
  have hcount : count (.integer c.minimum) = .ok c.minimum :=
    natural_ok (Nat.le_of_lt_succ (Nat.lt_trans h (by decide))) "usize"
  have hnodes : clusterEntry {} "control_plane_nodes" (.array (c.nodes.map .string)) =
      .ok { nodes := c.nodes } := by
    rw [clusterEntry, texts_strings]
    rfl
  have hminimum : clusterEntry { nodes := c.nodes } "minimum_remaining_nodes"
      (.integer c.minimum) = .ok c := by
    rw [clusterEntry, hcount]
    rfl
  show (clusterEntry {} "control_plane_nodes" (.array (c.nodes.map .string)) >>= fun c' =>
    clusterEntry c' "minimum_remaining_nodes" (.integer c.minimum) >>= pure) = _
  rw [hnodes]
  show (clusterEntry { nodes := c.nodes } _ _ >>= pure) = _
  rw [hminimum]
  rfl

theorem credentials_entries (s : CredentialSource) :
    credentials (.table .header (fieldEntries s.fields)) = .ok s := by
  cases s <;> rfl

theorem etcdEntry_port (p : UInt16) :
    etcdEntry {} "port" (.integer p.toNat) = .ok { port := some p } := by
  have hport : port (.integer p.toNat) = .ok p := by
    rw [port, natural_ok (Nat.le_of_lt_succ p.toNat_lt)]
    exact congrArg Except.ok (UInt16.ofNat_toNat)
  rw [etcdEntry, hport]
  rfl

theorem etcd_fields (c : EtcdConfig) :
    visit etcdEntry {} (fieldEntries c.fields) = .ok { c with credentials := none } := by
  obtain ⟨port, dial, call, name, credentials⟩ := c
  have hport : visit etcdEntry {}
      (fieldEntries (EtcdConfig.optionalField "port" (fun p => .integer p.toNat) port)) =
        .ok { port } :=
    visit_optional (fun o => ({ port := o } : EtcdConfig)) rfl etcdEntry_port port
  have hdial : visit etcdEntry { port }
      (fieldEntries (EtcdConfig.optionalField "dial_timeout" .string dial)) =
        .ok { port, dialTimeout := dial } :=
    visit_optional (fun o => ({ port, dialTimeout := o } : EtcdConfig)) rfl (fun _ => rfl) dial
  have hcall : visit etcdEntry { port, dialTimeout := dial }
      (fieldEntries (EtcdConfig.optionalField "call_timeout" .string call)) =
        .ok { port, dialTimeout := dial, callTimeout := call } :=
    visit_optional (fun o => ({ port, dialTimeout := dial, callTimeout := o } : EtcdConfig)) rfl
      (fun _ => rfl) call
  have hname : visit etcdEntry { port, dialTimeout := dial, callTimeout := call }
      (fieldEntries (EtcdConfig.optionalField "server_name" .string name)) =
        .ok { port, dialTimeout := dial, callTimeout := call, serverName := name } :=
    visit_optional
      (fun o => ({ port, dialTimeout := dial, callTimeout := call, serverName := o } : EtcdConfig))
      rfl (fun _ => rfl) name
  have happend := visit_append etcdEntry
  simp only [EtcdConfig.fields, fieldEntries, List.map_append] at happend hport hdial hcall hname ⊢
  simp only [happend, hport, ok_bind, hdial, hcall, hname]

/-- The cluster's table is read back. -/
theorem etcd_tree (c : EtcdConfig) : etcd c.tree = .ok c := by
  have hfields := etcd_fields c
  obtain ⟨port, dial, call, name, credentials⟩ := c
  cases credentials with
  | none => exact hfields
  | some source =>
    have hcredentials := credentials_entries source
    show visit etcdEntry {} (fieldEntries _ ++ [("credentials", .table .header _)]) = _
    rw [visit_append, hfields]
    show (Schema.credentials _).map _ >>= pure = _
    rw [hcredentials]
    rfl

theorem endpoints_entries (es : List (String × Net.SocketAddress)) :
    endpoints (.table .header (fieldEntries (ProxyConfig.endpointFields es))) = .ok es := by
  have hread : (fieldEntries (ProxyConfig.endpointFields es)).mapM
      (fun (e : String × Value) => (socketAddress e.2).map fun a => (e.1, a)) = .ok es := by
    induction es with
    | nil => rfl
    | cons e rest ih =>
      have haddress : socketAddress (.string e.2.text) = .ok e.2 := by
        rw [socketAddress, e.2.parse?_text]
      have hcons : fieldEntries (ProxyConfig.endpointFields (e :: rest)) =
          (e.1, .string e.2.text) :: fieldEntries (ProxyConfig.endpointFields rest) := rfl
      rw [hcons, List.mapM_cons, ih]
      simp only [haddress]
      rfl
  exact hread

/-- The proxy's table is read back. -/
theorem proxy_entries (p : ProxyConfig) : proxy (.table .header p.entries) = .ok p := by
  cases p with
  | dns domain => rfl
  | connect address => rfl
  | static es =>
    have hread := endpoints_entries es
    rw [ProxyConfig.entries]
    generalize Value.table .header (fieldEntries (ProxyConfig.endpointFields es)) = v at hread ⊢
    have hvisit : visit (fun (found : List (String × List (String × Net.SocketAddress))) key v =>
        if ["endpoints"].contains key then (endpoints v).map fun a => found ++ [(key, a)]
        else .ok found) [] [("endpoints", v)] = .ok [("endpoints", es)] := by
      show (endpoints v).map _ >>= pure = _
      rw [hread]
      rfl
    have hfields : variantFields "ProxyConfig::Static" ["endpoints"] endpoints
        (.named [("endpoints", v)]) = .ok [es] := by
      rw [variantFields, hvisit]
      rfl
    show (variantFields "ProxyConfig::Static" ["endpoints"] endpoints
        (.named [("endpoints", v)]) >>= fun fields => pure (ProxyConfig.static (fields.getD 0 []))) = _
    rw [hfields]
    rfl

/-- The whole table is read back. -/
theorem config_entries {c : Config} (h : c.cluster.minimum < 2 ^ 63) :
    config c.entries = .ok c := by
  have hcluster : ∀ p : Partial, entry p "cluster"
      (.table .header (fieldEntries (Config.clusterSection c.cluster).fields)) =
        .ok { p with cluster := some c.cluster } := fun p => by
    rw [entry, cluster_entries h]
    rfl
  have hproxy : ∀ p : Partial, entry p "proxy" (.table .header c.proxy.entries) =
      .ok { p with proxy := some c.proxy } := fun p => by
    rw [entry, proxy_entries]
    rfl
  have hvisit : visit entry {} c.entries =
      .ok { cluster := some c.cluster, etcd := c.etcd, proxy := some c.proxy } := by
    rw [Config.entries]
    cases c.etcd with
    | none =>
      show (entry {} "cluster" _ >>= fun p => entry p "proxy" _ >>= pure) = _
      rw [hcluster, ok_bind, hproxy]
      rfl
    | some etcd =>
      show (entry {} "cluster" _ >>= fun p => (Schema.etcd etcd.tree).map _ >>= fun p =>
        entry p "proxy" _ >>= pure) = _
      rw [hcluster, ok_bind, etcd_tree]
      show (entry _ "proxy" _ >>= pure) = _
      rw [hproxy]
      rfl
  rw [config, hvisit]
  rfl

end Schema

/-! ## Configurations -/

/-- The same section, with the endpoints of a static table in any order. -/
inductive ProxyConfig.Reordered : ProxyConfig → ProxyConfig → Prop where
  | same (p : ProxyConfig) : Reordered p p
  | static {endpoints endpoints' : List (String × Net.SocketAddress)}
      (h : endpoints.Perm endpoints') : Reordered (.static endpoints) (.static endpoints')

theorem ProxyConfig.Reordered.distinct {p p' : ProxyConfig} (h : p.Reordered p')
    (hp : p.Distinct) : p'.Distinct := by
  cases h with
  | same => exact hp
  | static hperm => exact (hperm.map Prod.fst).nodup_iff.1 hp

namespace Config

/-- The same configuration, with the endpoints of a static table in any order. -/
structure Reordered (c c' : Config) : Prop where
  cluster : c'.cluster = c.cluster
  etcd : c'.etcd = c.etcd
  proxy : c.proxy.Reordered c'.proxy

theorem Reordered.wellFormed {c c' : Config} (h : c.Reordered c') (hc : c.WellFormed) :
    c'.WellFormed :=
  ⟨h.cluster ▸ hc.minimum_lt, h.proxy.distinct hc.distinct⟩

/-- The order of the endpoints does not matter to the checks. -/
theorem Reordered.check {c c' : Config} (h : c.Reordered c') : c'.check = c.check := by
  rw [Config.check, Config.check, h.cluster, h.etcd]

/-- An accepted configuration can be written, whatever order its endpoints are taken in, and what is
written is accepted as that configuration. -/
theorem parse_render {text : String} {c c' : Config} (h : parse text = .ok c)
    (hc' : c.Reordered c') :
    ∃ written, c'.render? = some written ∧ parse written = .ok c' := by
  have hwell := hc'.wellFormed (wellFormed_of_parse h)
  obtain ⟨entries, -, -, hcheck⟩ := parse_eq_ok_iff.1 h
  refine ⟨c'.render, render?_eq hwell.minimum_lt, parse_eq_ok_iff.2 ⟨c'.entries, ?_, ?_, ?_⟩⟩
  · exact parse?_render hwell
  · exact Schema.config_entries hwell.minimum_lt
  · rw [hc'.check, hcheck]

/-- A table of fixed endpoints is written in another order than it was read in. -/
theorem static_table_rewritten :
    ∃ written,
      render?
          { cluster := { nodes := ["a\"b", "c\n"] }
            proxy := .static [("", Net.loopback 2), ("a", Net.loopback 1)] } = some written ∧
        parse written = .ok
          { cluster := { nodes := ["a\"b", "c\n"] }
            proxy := .static [("", Net.loopback 2), ("a", Net.loopback 1)] } := by
  have hparse : parse
      "[cluster]
      control_plane_nodes = ['a\"b', \"c\\n\"]
      [proxy]
      kind = 'static'
      endpoints.a = '127.0.0.1:1'
      endpoints.'' = '127.0.0.1:2'" = .ok
        { cluster := { nodes := ["a\"b", "c\n"] }
          proxy := .static [("a", Net.loopback 1), ("", Net.loopback 2)] } := by
    decide +kernel
  exact parse_render hparse ⟨rfl, rfl, .static (.swap _ _ _)⟩

end Config

end QuorumKeeper
