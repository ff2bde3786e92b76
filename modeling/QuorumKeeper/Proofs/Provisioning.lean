import QuorumKeeper.Operator.Run
import QuorumKeeper.Proofs.ConfigValues
import QuorumKeeper.Proofs.StoredCredentials
import QuorumKeeper.Store.InMemory

/-!
# Provisioning

Credentials are made only where none of the three files is found that material needs, and otherwise
provisioning touches nothing. `Holds` says what a directory contains when material is found in it
(`lookup_eq_some_iff`); the other two answers of a look-up are that none of the three files is there
(`lookup_eq_none_iff`) and an error (`lookup_eq_error_iff`). What was made and stored is found by
the next look-up, so a later provisioning finds it and does nothing (`provisioning_is_stable`).
-/

set_option autoImplicit false

namespace QuorumKeeper

open QuorumKeeper.Path FileTree

namespace CredentialSource

variable {t : FileTree} {dir path : String} {m : TlsMaterial}

/-! ## Reading -/

/-- What can be read is there. -/
theorem has_of_read {text : String} (h : t.read path = .ok text) : t.has path = true := by
  unfold FileTree.read at h
  rw [FileTree.has, FileTree.node?]
  cases hplace : t.place path with
  | error fault =>
    rw [hplace] at h
    cases h
  | ok p =>
    cases p with
    | free names =>
      rw [hplace] at h
      cases h
    | taken names node => rfl

theorem readText_eq_ok_iff {text : String} :
    readText t path = .ok text ↔ t.read path = .ok text := by
  unfold readText
  cases t.read path with
  | error fault => simp
  | ok found => simp

/-- Three files are read as material exactly if each is read as its part, and no authority's key
comes of it. -/
theorem readMaterial_eq_ok_iff {ca cert key : String} :
    readMaterial t ca cert key = .ok m ↔ t.read ca = .ok m.ca ∧ t.read cert = .ok m.cert ∧
      t.read key = .ok m.key ∧ m.caKey = none := by
  simp only [readMaterial, bind_eq_ok_iff, readText_eq_ok_iff]
  constructor
  · rintro ⟨caText, hca, certText, hcert, keyText, hkey, h⟩
    cases h
    exact ⟨hca, hcert, hkey, rfl⟩
  · rintro ⟨hca, hcert, hkey, hnone⟩
    refine ⟨m.ca, hca, m.cert, hcert, m.key, hkey, ?_⟩
    rw [← hnone]
    rfl

/-- The authority's key is left out where there is no file for it, and otherwise read from that
file. -/
theorem withCaKey_eq_ok_iff {m' : TlsMaterial} :
    withCaKey t path m = .ok m' ↔ t.has path = false ∧ m' = m ∨
      ∃ text, t.read path = .ok text ∧ m' = { m with caKey := some text } := by
  unfold withCaKey
  cases hhas : t.has path with
  | false =>
    have hunread : ∀ text, t.read path ≠ .ok text := by
      intro text hread
      rw [has_of_read hread] at hhas
      cases hhas
    simp [hunread, eq_comm]
  | true =>
    rw [if_pos rfl]
    cases hread : readText t path with
    | error e =>
      have hunread : ∀ text, t.read path ≠ .ok text := by
        intro text h
        rw [readText_eq_ok_iff.2 h] at hread
        cases hread
      simp [hunread]
    | ok text =>
      rw [readText_eq_ok_iff] at hread
      simp [hread, eq_comm]

/-! ## Looking material up -/

/-- The names of the files without which there is no material. -/
def requiredNames : List String := [caName, certName, keyName]

/-- The directory holds the material: its three files and, if it has an authority's key, the file
with that, or else no such file. -/
structure Holds (t : FileTree) (dir : String) (m : TlsMaterial) : Prop where
  ca : t.read (join dir caName) = .ok m.ca
  cert : t.read (join dir certName) = .ok m.cert
  key : t.read (join dir keyName) = .ok m.key
  caKey : (m.caKey = none ∧ t.has (join dir caKeyName) = false) ∨
    ∃ text, m.caKey = some text ∧ t.read (join dir caKeyName) = .ok text

/-- None of the files is there without which there is no material. -/
def Absent (t : FileTree) (dir : String) : Prop :=
  ∀ name ∈ requiredNames, t.has (join dir name) = false

/-- Some of the files are there without which there is no material, but not all, or a file is there
that cannot be read. -/
def Broken (t : FileTree) (dir : String) : Prop :=
  (∃ name ∈ requiredNames, t.has (join dir name) = true) ∧
    ((∃ name ∈ requiredNames, t.has (join dir name) = false) ∨
      ∃ name ∈ names, t.has (join dir name) = true ∧
        ∃ fault, t.read (join dir name) = .error fault)

/-- The paths of the required files that are there. -/
theorem present_eq (t : FileTree) (dir : String) :
    [join dir caName, join dir certName, join dir keyName].filter t.has =
      (requiredNames.filter fun name => t.has (join dir name)).map (join dir) := by
  have hpaths : [join dir caName, join dir certName, join dir keyName] =
      requiredNames.map (join dir) := rfl
  rw [hpaths, List.filter_map]
  rfl

/-- Where none of the three files is there, nothing is found. -/
theorem lookup_of_absent (h : Absent t dir) :
    (managed dir).lookup t = .ok none := by
  have hnone : requiredNames.filter (fun name => t.has (join dir name)) = [] :=
    List.filter_eq_nil_iff.2 fun name hname => by simp [h name hname]
  simp [lookup, lookupManaged, present_eq, hnone]

/-- If some of the three files are there and some are not, the look-up fails. -/
theorem lookup_of_incomplete (hpresent : ∃ name ∈ requiredNames, t.has (join dir name) = true)
    (hmissing : ∃ name ∈ requiredNames, t.has (join dir name) = false) :
    (managed dir).lookup t =
      .error (.credentials ("incomplete managed credentials in " ++ dir)) := by
  have hsome : (requiredNames.filter fun name => t.has (join dir name)).length ≠ 0 := by
    obtain ⟨name, hname, hhas⟩ := hpresent
    exact Nat.pos_iff_ne_zero.1 (List.length_pos_of_mem (List.mem_filter.2 ⟨hname, hhas⟩))
  have hfew : (requiredNames.filter fun name => t.has (join dir name)).length < 3 := by
    obtain ⟨name, hname, hhas⟩ := hmissing
    exact List.length_filter_lt_length_iff_exists.2 ⟨name, hname, by simp [hhas]⟩
  simp only [lookup, lookupManaged, present_eq, List.length_map]
  rw [if_neg hsome, if_pos hfew]

/-- Where the three files are there, they are read, and then the authority's key. -/
theorem lookup_of_complete (h : ∀ name ∈ requiredNames, t.has (join dir name) = true) :
    (managed dir).lookup t =
      readMaterial t (join dir caName) (join dir certName) (join dir keyName) >>= fun m =>
        (withCaKey t (join dir caKeyName) m).map some := by
  have hall : (requiredNames.filter fun name => t.has (join dir name)).length = 3 := by
    rw [List.filter_eq_self.2 h]
    rfl
  simp only [lookup, lookupManaged, present_eq, List.length_map]
  rw [if_neg (by omega), if_neg (by omega)]
  cases readMaterial t (join dir caName) (join dir certName) (join dir keyName) with
  | error e => rfl
  | ok m => rfl

theorem forall_required {P : String → Prop} :
    (∀ name ∈ requiredNames, P name) ↔ P caName ∧ P certName ∧ P keyName := by
  simp [requiredNames]

/-- Either all three files are there, or one of them is missing. -/
theorem complete_or_missing (t : FileTree) (dir : String) :
    (∀ name ∈ requiredNames, t.has (join dir name) = true) ∨
      ∃ name ∈ requiredNames, t.has (join dir name) = false := by
  by_cases h : ∀ name ∈ requiredNames, t.has (join dir name) = true
  · exact Or.inl h
  · right
    push Not at h
    simpa using h

/-- Either none of the three files is there, or one of them is. -/
theorem absent_or_present (t : FileTree) (dir : String) :
    Absent t dir ∨ ∃ name ∈ requiredNames, t.has (join dir name) = true := by
  by_cases h : Absent t dir
  · exact Or.inl h
  · right
    unfold Absent at h
    push Not at h
    simpa using h

/-- Nothing is found exactly where none of the three files is there. -/
theorem lookup_eq_none_iff : (managed dir).lookup t = .ok none ↔ Absent t dir := by
  refine ⟨fun h => ?_, lookup_of_absent⟩
  rcases absent_or_present t dir with habsent | hpresent
  · exact habsent
  rcases complete_or_missing t dir with hall | hmissing
  · rw [lookup_of_complete hall] at h
    obtain ⟨m, -, hkey⟩ := bind_eq_ok_iff.1 h
    obtain ⟨found, -, hsome⟩ := map_eq_ok_iff.1 hkey
    cases hsome
  · rw [lookup_of_incomplete hpresent hmissing] at h
    cases h

/-- Material is found exactly where the directory holds it. -/
theorem lookup_eq_some_iff : (managed dir).lookup t = .ok (some m) ↔ Holds t dir m := by
  constructor
  · intro h
    rcases absent_or_present t dir with habsent | hpresent
    · rw [lookup_of_absent habsent] at h
      cases h
    rcases complete_or_missing t dir with hall | hmissing
    · rw [lookup_of_complete hall] at h
      obtain ⟨found, hfound, hwith⟩ := bind_eq_ok_iff.1 h
      obtain ⟨m', hm', heq⟩ := map_eq_ok_iff.1 hwith
      obtain rfl : m' = m := Option.some.inj heq
      obtain ⟨hca, hcert, hkey, hnone⟩ := readMaterial_eq_ok_iff.1 hfound
      rcases withCaKey_eq_ok_iff.1 hm' with ⟨hno, rfl⟩ | ⟨text, htext, rfl⟩
      · exact ⟨hca, hcert, hkey, Or.inl ⟨hnone, hno⟩⟩
      · exact ⟨hca, hcert, hkey, Or.inr ⟨text, rfl, htext⟩⟩
    · rw [lookup_of_incomplete hpresent hmissing] at h
      cases h
  · intro h
    rw [lookup_of_complete (forall_required.2
      ⟨has_of_read h.ca, has_of_read h.cert, has_of_read h.key⟩)]
    refine bind_eq_ok_iff.2 ⟨{ m with caKey := none },
      readMaterial_eq_ok_iff.2 ⟨h.ca, h.cert, h.key, rfl⟩, map_eq_ok_iff.2 ⟨m, ?_, rfl⟩⟩
    rcases h.caKey with ⟨hnone, hno⟩ | ⟨text, hsome, htext⟩
    · exact withCaKey_eq_ok_iff.2 (Or.inl ⟨hno, by rw [← hnone]⟩)
    · exact withCaKey_eq_ok_iff.2 (Or.inr ⟨text, htext, by rw [← hsome]⟩)

theorem forall_names {P : String → Prop} :
    (∀ name ∈ names, P name) ↔ (∀ name ∈ requiredNames, P name) ∧ P caKeyName := by
  simp [names, requiredNames, and_assoc]

/-- A directory whose files are all there, and of which none is unreadable, holds material. -/
theorem exists_holds (hall : ∀ name ∈ requiredNames, t.has (join dir name) = true)
    (hread : ∀ name ∈ names, t.has (join dir name) = true →
      ∃ text, t.read (join dir name) = .ok text) : ∃ m, Holds t dir m := by
  obtain ⟨hrequired, hcaKey⟩ := forall_names.1 hread
  have htexts : ∀ name ∈ requiredNames, ∃ text, t.read (join dir name) = .ok text :=
    fun name hname => hrequired name hname (hall name hname)
  obtain ⟨⟨ca, hca⟩, ⟨cert, hcert⟩, ⟨key, hkey⟩⟩ := forall_required.1 htexts
  cases hhas : t.has (join dir caKeyName) with
  | false => exact ⟨{ ca, cert, key }, hca, hcert, hkey, Or.inl ⟨rfl, hhas⟩⟩
  | true =>
    obtain ⟨text, htext⟩ := hcaKey hhas
    exact ⟨{ ca, cert, key, caKey := some text }, hca, hcert, hkey, Or.inr ⟨text, rfl, htext⟩⟩

/-- A directory that holds material is not broken. -/
theorem Holds.not_broken (h : Holds t dir m) : ¬ Broken t dir := by
  have hreads : ∀ name ∈ requiredNames, ∃ text, t.read (join dir name) = .ok text :=
    forall_required.2 ⟨⟨_, h.ca⟩, ⟨_, h.cert⟩, ⟨_, h.key⟩⟩
  have hall : ∀ name ∈ names, t.has (join dir name) = true →
      ∃ text, t.read (join dir name) = .ok text := by
    refine forall_names.2 ⟨fun name hname _ => hreads name hname, fun hhas => ?_⟩
    rcases h.caKey with ⟨-, hno⟩ | ⟨text, -, htext⟩
    · rw [hno] at hhas
      cases hhas
    · exact ⟨text, htext⟩
  rintro ⟨-, ⟨name, hname, hmissing⟩ | ⟨name, hname, hhas, fault, hfault⟩⟩
  · obtain ⟨text, htext⟩ := hreads name hname
    rw [has_of_read htext] at hmissing
    cases hmissing
  · obtain ⟨text, htext⟩ := hall name hname hhas
    rw [htext] at hfault
    cases hfault

/-- A look-up fails exactly where the directory is broken. -/
theorem lookup_eq_error_iff :
    (∃ e, (managed dir).lookup t = .error e) ↔ Broken t dir := by
  constructor
  · rintro ⟨e, he⟩
    have hpresent := (absent_or_present t dir).resolve_left fun habsent => by
      rw [lookup_of_absent habsent] at he
      cases he
    refine ⟨hpresent, ?_⟩
    -- if all files were there and none of them unreadable, material would be found
    by_contra hsound
    push Not at hsound
    obtain ⟨hall, hread⟩ := hsound
    obtain ⟨m, hm⟩ := exists_holds (by simpa using hall) fun name hname hhas => by
      cases htext : t.read (join dir name) with
      | error fault => exact absurd htext (hread name hname hhas fault)
      | ok text => exact ⟨text, rfl⟩
    rw [lookup_eq_some_iff.2 hm] at he
    cases he
  · intro h
    cases hlookup : (managed dir).lookup t with
    | error e => exact ⟨e, rfl⟩
    | ok found =>
      cases found with
      | none =>
        obtain ⟨name, hname, hhas⟩ := h.1
        rw [lookup_eq_none_iff.1 hlookup name hname] at hhas
        cases hhas
      | some m => exact absurd h (lookup_eq_some_iff.1 hlookup).not_broken

/-! ## Making material -/

variable {mint : String → Except ClientError TlsMaterial} {source : CredentialSource}

/-- Material of the user's own is there, or it is an error that it is not. -/
theorem lookup_external_ne_none {ca cert key : String} :
    (external ca cert key).lookup t ≠ .ok none := by
  intro h
  simp only [lookup, lookupExternal] at h
  split at h
  · cases h
  · obtain ⟨m, -, hsome⟩ := map_eq_ok_iff.1 h
    cases hsome

/-- Material that is found is provided as it is. -/
theorem provide_of_found (h : source.lookup t = .ok (some m)) :
    source.provide mint t = .ok (.existing m) := by
  unfold provide
  rw [h]

/-- A source whose look-up fails provides nothing else than that error. -/
theorem provide_of_failed {e : ClientError} (h : source.lookup t = .error e) :
    source.provide mint t = .error e := by
  unfold provide
  rw [h]

/-- Material is made exactly for a directory that has none of the required files. -/
theorem provide_eq_generated_iff :
    source.provide mint t = .ok (.generated m) ↔
      ∃ dir, source = managed dir ∧ Absent t dir ∧ mint clientName = .ok m := by
  unfold provide
  cases source with
  | external ca cert key =>
    cases hlookup : (external ca cert key).lookup t with
    | error e => simp
    | ok found =>
      cases found with
      | none => exact absurd hlookup lookup_external_ne_none
      | some m' => simp
  | managed dir =>
    have hiff : ∀ {P : Prop}, (∃ dir', managed dir = managed dir' ∧ Absent t dir' ∧ P) ↔
        (managed dir).lookup t = .ok none ∧ P := by simp [lookup_eq_none_iff]
    rw [hiff]
    cases hlookup : (managed dir).lookup t with
    | error e => simp
    | ok found =>
      cases found with
      | some m' => simp
      | none => simp [map_eq_ok_iff]

/-- A secret file that stands is for its owner only. -/
theorem Stands.mode? {f : StoredFile} (h : Stands t dir f) (hsecret : f.secret = true) :
    t.mode? (join dir f.name) = some privateMode := by
  obtain ⟨mode, hnode, hmode⟩ := h
  rw [FileTree.mode?, hnode, hmode hsecret]
  rfl

end CredentialSource

namespace Operator.Surroundings

open CredentialSource

variable {σ : Type} {s : Surroundings σ} {c : Config} {source : CredentialSource} {dir : String}
  {m : TlsMaterial}

/-- What is printed where credentials are found. -/
def alreadyPresent : Reply where
  out := "credentials already present\n"

/-- The command does nothing where material is found. -/
theorem provision_of_found (hsource : c.credentials = some source)
    (h : source.lookup s.files = .ok (some m)) : s.provision c = (alreadyPresent, s) := by
  simp only [provision, hsource, provide_of_found h]
  rfl

/-- The command reports a look-up that fails, and does nothing. -/
theorem provision_of_failed (hsource : c.credentials = some source) {e : ClientError}
    (h : source.lookup s.files = .error e) :
    s.provision c = (.failed "" [] (.ofClient e), s) := by
  simp only [provision, hsource, provide_of_failed h]

/-- If material is made and the command succeeds, it was stored. -/
theorem persist_of_provision (hsource : c.credentials = some source)
    (hprovide : source.provide s.mint s.files = .ok (.generated m))
    (hcode : (s.provision c).1.code = 0) : (source.persist m s.files).1 = .ok () ∧
      (s.provision c).2.files = (source.persist m s.files).2 := by
  simp only [provision, hsource, hprovide] at hcode ⊢
  split at hcode
  · simp [Reply.failed] at hcode
  · rename_i files hpersist
    simp [hpersist]

/-- Nothing changes with an external source. -/
theorem provision_external {ca cert key : String}
    (hsource : c.credentials = some (external ca cert key)) : (s.provision c).2 = s := by
  cases hlookup : (external ca cert key).lookup s.files with
  | error e => rw [provision_of_failed hsource hlookup]
  | ok found =>
    cases found with
    | none => exact absurd hlookup lookup_external_ne_none
    | some m => rw [provision_of_found hsource hlookup]

/-- The command carried out once for every way to make credentials in a list: the replies, and the
surroundings in the end. -/
def provisionEach (s : Surroundings σ) (c : Config) :
    List (String → Except ClientError TlsMaterial) → List Reply × Surroundings σ
  | [] => ([], s)
  | mint :: rest =>
    let first := { s with mint }.provision c
    let others := first.2.provisionEach c rest
    (first.1 :: others.1, others.2)

/-- Where material is found, it is found by every later command, and no file changes. -/
theorem provisionEach_of_found (hsource : c.credentials = some source)
    (h : source.lookup s.files = .ok (some m))
    (mints : List (String → Except ClientError TlsMaterial)) :
    (s.provisionEach c mints).1 = mints.map (fun _ => alreadyPresent) ∧
      (s.provisionEach c mints).2.files = s.files := by
  induction mints generalizing s with
  | nil => exact ⟨rfl, rfl⟩
  | cons mint rest ih =>
    -- the first command changes no file, so the others find what it found
    have hfirst : { s with mint }.provision c = (alreadyPresent, { s with mint }) :=
      provision_of_found hsource h
    obtain ⟨hreplies, hfiles⟩ := ih (s := { s with mint }) h
    rw [provisionEach, hfirst]
    exact ⟨congrArg _ hreplies, hfiles⟩

/-- Material that was made and stored is found, and its keys are for their owner only. -/
theorem found_of_provision (hsource : c.credentials = some (managed dir))
    (habsent : Absent s.files dir) (hmint : s.mint clientName = .ok m) (hkey : m.caKey ≠ none)
    (hcode : (s.provision c).1.code = 0) :
    (managed dir).lookup (s.provision c).2.files = .ok (some m) ∧
      ∀ name ∈ [keyName, caKeyName], (s.provision c).2.files.mode? (join dir name) = some 0o600 := by
  have hprovide : (managed dir).provide s.mint s.files = .ok (.generated m) :=
    provide_eq_generated_iff.2 ⟨dir, rfl, habsent, hmint⟩
  obtain ⟨hpersist, hfiles⟩ := persist_of_provision hsource hprovide hcode
  obtain ⟨text, htext⟩ := Option.ne_none_iff_exists'.1 hkey
  have hstands := (node?_persist hpersist).1
  have hclient : Stands ((managed dir).persist m s.files).2 dir
      { name := keyName, text := m.key, secret := true } := hstands _ (by simp [filesOf])
  have hca : Stands ((managed dir).persist m s.files).2 dir
      { name := caKeyName, text, secret := true } := hstands _ (by simp [filesOf, htext])
  rw [hfiles]
  -- the key of the authority was written too, so no older one can come in its place
  refine ⟨lookup_of_keyed hpersist htext, fun name hname => ?_⟩
  rcases List.mem_pair.1 hname with rfl | rfl
  · exact hclient.mode? rfl
  · exact hca.mode? rfl

/-- Surroundings in which material is stored: it is found, its keys are for their owner only, and
every later command finds it and changes no file. -/
structure Provisioned (s : Surroundings σ) (c : Config) (dir : String) (m : TlsMaterial) :
    Prop where
  found : (managed dir).lookup s.files = .ok (some m)
  restricted : ∀ name ∈ [keyName, caKeyName], s.files.mode? (join dir name) = some 0o600
  stays : ∀ mints, (s.provisionEach c mints).1 = mints.map (fun _ => alreadyPresent) ∧
    (s.provisionEach c mints).2.files = s.files

/-- What the command does with a directory, if this is the material that would be made. -/
structure ProvisionsDirectory (s : Surroundings σ) (c : Config) (dir : String) (m : TlsMaterial) :
    Prop where
  found : ∀ found, (managed dir).lookup s.files = .ok (some found) →
    s.provision c = (alreadyPresent, s)
  failed : ∀ e, (managed dir).lookup s.files = .error e →
    s.provision c = (.failed "" [] (.ofClient e), s)
  failed_iff : (∃ e, (managed dir).lookup s.files = .error e) ↔ Broken s.files dir
  generated_iff : (∃ made, (managed dir).provide s.mint s.files = .ok (.generated made)) ↔
    Absent s.files dir
  stored : Absent s.files dir → (s.provision c).1.code = 0 → (s.provision c).2.Provisioned c dir m

/-- Files of the user's own are left alone: nothing is made for them, and nothing is stored. -/
structure LeavesAlone (s : Surroundings σ) (c : Config) (source : CredentialSource) : Prop where
  unchanged : (s.provision c).2 = s
  unstored : ∀ stored, source.persist stored s.files = (.ok (), s.files)
  unmade : ∀ made, source.provide s.mint s.files ≠ .ok (.generated made)

/-- The command with a directory. -/
theorem provisionsDirectory (hsource : c.credentials = some (managed dir))
    (hmint : s.mint clientName = .ok m) (hkey : m.caKey ≠ none) :
    s.ProvisionsDirectory c dir m where
  found _ hfound := provision_of_found hsource hfound
  failed _ he := provision_of_failed hsource he
  failed_iff := lookup_eq_error_iff
  generated_iff := by
    constructor
    · rintro ⟨made, hmade⟩
      obtain ⟨dir', hdir, habsent, -⟩ := provide_eq_generated_iff.1 hmade
      cases hdir
      exact habsent
    · exact fun habsent => ⟨m, provide_eq_generated_iff.2 ⟨dir, rfl, habsent, hmint⟩⟩
  stored habsent hcode := by
    obtain ⟨hfound, hmodes⟩ := found_of_provision hsource habsent hmint hkey hcode
    exact ⟨hfound, hmodes, provisionEach_of_found hsource hfound⟩

/-- The command with files of the user's own. -/
theorem leavesAlone {ca cert key : String} (hsource : c.credentials = some (external ca cert key)) :
    s.LeavesAlone c (external ca cert key) where
  unchanged := provision_external hsource
  unstored _ := rfl
  unmade made hmade := by
    obtain ⟨dir, hdir, -⟩ := provide_eq_generated_iff.1 hmade
    cases hdir

/-- Where making material succeeds and gives it an authority's key, this is what the command does.
With a directory, it changes nothing if material is found or the look-up fails, which is when the
directory is broken; material is made exactly if the directory has none of the required files,
whatever else it has; and if that succeeds, what was made is found, its keys are for their owner
only, and all later commands find it and change no file. With files of the user's own, nothing is
ever made, stored or changed. -/
theorem provisioning_is_stable (s : Surroundings σ) (c : Config) (m : TlsMaterial)
    (hmint : s.mint clientName = .ok m) (hkey : m.caKey ≠ none) :
    (∀ dir, c.credentials = some (managed dir) → s.ProvisionsDirectory c dir m) ∧
    ∀ ca cert key, c.credentials = some (external ca cert key) →
      s.LeavesAlone c (external ca cert key) :=
  ⟨fun _ hsource => provisionsDirectory hsource hmint hkey,
    fun _ _ _ hsource => leavesAlone hsource⟩

/-- Over a readable key left by an authority, material is made, and it replaces that key. -/
theorem left_key_replaced :
    let made : TlsMaterial := { ca := "A", cert := "B", key := "C", caKey := some "D" }
    let left : FileNode := .dir [(caKeyName, .file (Text.utf8 "old") 0o644)]
    let s : Surroundings Cluster :=
      { files := { entries := [("d", left)] }, mint := fun _ => .ok made,
        store := fun _ => Cluster.store, state := {} }
    let c : Config := { cluster := {}, etcd := some { credentials := some (managed "d") } }
    s.files.mode? (join "d" caKeyName) = some 0o644 ∧ (s.provision c).1.code = 0 ∧
      (managed "d").lookup (s.provision c).2.files = .ok (some made) ∧
      (s.provision c).2.files.mode? (join "d" caKeyName) = some 0o600 := by
  intro made left s c
  have hmode : s.files.mode? (join "d" caKeyName) = some 0o644 := by decide +kernel
  have habsent : Absent s.files "d" := by
    unfold Absent
    decide +kernel
  have hcode : (s.provision c).1.code = 0 := by decide +kernel
  have hmade := (provisioning_is_stable s c made rfl (by decide)).1 "d" rfl
  have hstored := hmade.stored habsent hcode
  exact ⟨hmode, hcode, hstored.found, hstored.restricted caKeyName (by decide)⟩

end Operator.Surroundings

end QuorumKeeper
