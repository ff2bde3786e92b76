import QuorumKeeper.Proofs.Provisioning

/-!
# Answers of a look-up

A look-up in a directory depends on what is read under four names alone (`reading`). It finds
material exactly if each file is read as its part of that material (`holds_iff_reading`), and it
fails with one of the errors that `LookupFails` lists, in the order in which the files are read
(`lookup_eq_error_iff_fails`). So two trees in which the files read alike give one answer
(`ReadsAlike.lookup_eq`).
-/

set_option autoImplicit false

namespace QuorumKeeper

open QuorumKeeper.Path FileTree

namespace CredentialSource

variable {t t' : FileTree} {dir : String} {m : TlsMaterial} {e : ClientError}

/-! ## What is read -/

/-- What is read under a name of a directory, if something is there. -/
def reading (t : FileTree) (dir name : String) : Option (Except FileFault String) :=
  if t.has (join dir name) then some (t.read (join dir name)) else none

theorem reading_eq_none_iff {name : String} :
    reading t dir name = none ↔ t.has (join dir name) = false := by
  unfold reading
  cases t.has (join dir name) <;> simp

theorem has_iff_reading {name : String} :
    t.has (join dir name) = true ↔ reading t dir name ≠ none := by
  rw [ne_eq, reading_eq_none_iff, Bool.not_eq_false]

/-- A text is read exactly if the file is there and has that text. -/
theorem reading_eq_ok_iff {name text : String} :
    reading t dir name = some (.ok text) ↔ t.read (join dir name) = .ok text := by
  unfold reading
  cases hhas : t.has (join dir name) with
  | true => simp
  | false =>
    refine iff_of_false nofun fun hread => ?_
    rw [has_of_read hread] at hhas
    cases hhas

/-- What is read under a name depends on what is there alone. -/
theorem reading_congr {name : String} (h : t'.node? (join dir name) = t.node? (join dir name)) :
    reading t' dir name = reading t dir name := by
  unfold reading
  rw [FileTree.has, FileTree.has, h]
  cases hnode : t.node? (join dir name) with
  | none => rfl
  | some node => rw [read_congr (h.trans hnode) hnode]

/-- The text that material has for the file of a name. -/
def part (m : TlsMaterial) (name : String) : Option String :=
  if name = caName then some m.ca
  else if name = certName then some m.cert
  else if name = keyName then some m.key
  else m.caKey

/-- A directory holds material exactly if each file is read as its part, and is not there if there
is no such part. -/
theorem holds_iff_reading : Holds t dir m ↔
    ∀ name ∈ names, reading t dir name = (part m name).map .ok := by
  have hparts : part m caName = some m.ca ∧ part m certName = some m.cert ∧
      part m keyName = some m.key ∧ part m caKeyName = m.caKey := by
    simp [part, caName, certName, keyName, caKeyName]
  obtain ⟨hca, hcert, hkey, hcaKey⟩ := hparts
  rw [forall_names, forall_required, hca, hcert, hkey, hcaKey]
  simp only [Option.map_some, reading_eq_ok_iff]
  constructor
  · intro h
    refine ⟨⟨h.ca, h.cert, h.key⟩, ?_⟩
    rcases h.caKey with ⟨hnone, hno⟩ | ⟨text, hsome, htext⟩
    · rw [hnone]
      exact reading_eq_none_iff.2 hno
    · rw [hsome]
      exact reading_eq_ok_iff.2 htext
  · rintro ⟨⟨ca, cert, key⟩, caKey⟩
    refine ⟨ca, cert, key, ?_⟩
    cases hsome : m.caKey with
    | none =>
      rw [hsome] at caKey
      exact Or.inl ⟨rfl, reading_eq_none_iff.1 caKey⟩
    | some text =>
      rw [hsome] at caKey
      exact Or.inr ⟨text, rfl, reading_eq_ok_iff.1 caKey⟩

/-! ## How a look-up fails -/

/-- The names of files are the required ones and that of the authority's key. -/
theorem mem_names_iff {name : String} : name ∈ names ↔ name ∈ requiredNames ∨ name = caKeyName := by
  simp [names, requiredNames, or_assoc]

/-- The error of a look-up that finds some of the three files and not all. -/
def incompleteFailure (dir : String) : ClientError :=
  .credentials ("incomplete managed credentials in " ++ dir)

/-- The error of a file that cannot be read. -/
def readFailure (dir name : String) (fault : FileFault) : ClientError :=
  .credentials ("failed to read " ++ join dir name ++ ": " ++ fault.message)

/-- The look-up fails with this error: some of the three files are there and some are not; or all of
them are there, and this one, of all files, is the first that cannot be read. -/
inductive LookupFails (t : FileTree) (dir : String) : ClientError → Prop where
  | incomplete (present : ∃ name ∈ requiredNames, reading t dir name ≠ none)
      (missing : ∃ name ∈ requiredNames, reading t dir name = none) :
      LookupFails t dir (incompleteFailure dir)
  | unreadable (complete : ∀ name ∈ requiredNames, reading t dir name ≠ none)
      {earlier later : List String} {name : String} (order : names = earlier ++ name :: later)
      (readable : ∀ other ∈ earlier, ∃ text, reading t dir other = some (.ok text))
      {fault : FileFault} (failure : reading t dir name = some (.error fault)) :
      LookupFails t dir (readFailure dir name fault)

/-- The names up to one of them. -/
theorem split_names {earlier later : List String} {name : String}
    (order : names = earlier ++ name :: later) :
    (earlier = [] ∧ name = caName) ∨ (earlier = [caName] ∧ name = certName) ∨
      (earlier = [caName, certName] ∧ name = keyName) ∨
      (earlier = requiredNames ∧ name = caKeyName) := by
  rcases earlier with _ | ⟨a, _ | ⟨b, _ | ⟨c, rest⟩⟩⟩
  · simp_all [names]
  · simp_all [names]
  · simp_all [names]
  · cases rest with
    | nil => simp_all [names, requiredNames]
    | cons d rest => simp_all [names]

/-- No name comes before itself. -/
theorem notMem_earlier {earlier later : List String} {name : String}
    (order : names = earlier ++ name :: later) : name ∉ earlier := by
  have hdistinct : (earlier ++ name :: later).Nodup := order ▸ (by decide : names.Nodup)
  exact fun hmem => (List.nodup_append.1 hdistinct).2.2 _ hmem _ List.mem_cons_self rfl

/-- Only files that are required come before any other one. -/
theorem subset_required {earlier later : List String} {name : String}
    (order : names = earlier ++ name :: later) : earlier ⊆ requiredNames := by
  rcases split_names order with ⟨rfl, -⟩ | ⟨rfl, -⟩ | ⟨rfl, -⟩ | ⟨rfl, -⟩ <;> simp [requiredNames]

/-- A file that cannot be read fails with its own error. -/
theorem readText_of_reading {name : String} {fault : FileFault}
    (h : reading t dir name = some (.error fault)) :
    readText t (join dir name) = .error (readFailure dir name fault) := by
  unfold reading at h
  split at h
  · rw [readText, Option.some.inj h]
    rfl
  · cases h

/-- A look-up fails with the first file that cannot be read. -/
theorem lookup_of_unreadable (hall : ∀ name ∈ requiredNames, reading t dir name ≠ none)
    {earlier later : List String} {name : String} (order : names = earlier ++ name :: later)
    (hreadable : ∀ other ∈ earlier, ∃ text, reading t dir other = some (.ok text))
    {fault : FileFault} (hfault : reading t dir name = some (.error fault)) :
    (managed dir).lookup t = .error (readFailure dir name fault) := by
  have hfailure := readText_of_reading hfault
  have htext : ∀ other ∈ earlier, ∃ text, readText t (join dir other) = .ok text := by
    intro other hother
    obtain ⟨text, hread⟩ := hreadable other hother
    exact ⟨text, readText_eq_ok_iff.2 (reading_eq_ok_iff.1 hread)⟩
  rw [lookup_of_complete fun name hname => has_iff_reading.2 (hall name hname), readMaterial]
  -- the files are read in this order, and the first that cannot be read decides
  rcases split_names order with ⟨rfl, rfl⟩ | ⟨rfl, rfl⟩ | ⟨rfl, rfl⟩ | ⟨rfl, rfl⟩
  · rw [hfailure]
    rfl
  · obtain ⟨ca, hca⟩ := htext caName (by decide)
    rw [hca, hfailure]
    rfl
  · obtain ⟨ca, hca⟩ := htext caName (by decide)
    obtain ⟨cert, hcert⟩ := htext certName (by decide)
    rw [hca, hcert, hfailure]
    rfl
  · obtain ⟨⟨ca, hca⟩, ⟨cert, hcert⟩, ⟨key, hkey⟩⟩ := forall_required.1 htext
    have hthere : t.has (join dir caKeyName) = true :=
      has_iff_reading.2 (by rw [hfault]; exact Option.some_ne_none _)
    rw [hca, hcert, hkey]
    show (withCaKey t (join dir caKeyName) { ca, cert, key }).map some = _
    rw [withCaKey, if_pos hthere, hfailure]
    rfl

/-- What is somewhere in a list is somewhere for the first time. -/
theorem exists_first {α : Type} {p : α → Prop} {l : List α} (h : ∃ x ∈ l, p x) :
    ∃ earlier x later, l = earlier ++ x :: later ∧ p x ∧ ∀ y ∈ earlier, ¬ p y := by
  classical
  have hfound : (l.find? fun x => decide (p x)).isSome = true :=
    List.find?_isSome.2 (by simpa using h)
  obtain ⟨x, hx⟩ := Option.isSome_iff_exists.1 hfound
  obtain ⟨hp, earlier, later, rfl, hearlier⟩ := List.find?_eq_some_iff_append.1 hx
  exact ⟨earlier, x, later, rfl, by simpa using hp, by simpa using hearlier⟩

/-- In a complete directory that is broken, some file is the first that cannot be read. -/
theorem exists_unreadable (hall : ∀ name ∈ requiredNames, reading t dir name ≠ none)
    (hbroken : Broken t dir) : ∃ earlier name later, names = earlier ++ name :: later ∧
      (∀ other ∈ earlier, ∃ text, reading t dir other = some (.ok text)) ∧
        ∃ fault, reading t dir name = some (.error fault) := by
  have hsome : ∃ name ∈ names, ∃ fault, reading t dir name = some (.error fault) := by
    rcases hbroken.2 with ⟨name, hname, hmissing⟩ | ⟨name, hname, hhas, fault, hfault⟩
    · exact absurd (reading_eq_none_iff.2 hmissing) (hall name hname)
    · exact ⟨name, hname, fault, by rw [reading, if_pos hhas, hfault]⟩
  obtain ⟨earlier, name, later, order, hfault, hearlier⟩ := exists_first hsome
  refine ⟨earlier, name, later, order, fun other hother => ?_, hfault⟩
  obtain ⟨found, hfound⟩ := Option.ne_none_iff_exists'.1 (hall other (subset_required order hother))
  cases found with
  | ok text => exact ⟨text, hfound⟩
  | error fault => exact absurd ⟨fault, hfound⟩ (hearlier other hother)

/-- A look-up fails with an error exactly as listed. -/
theorem lookup_eq_error_iff_fails : (managed dir).lookup t = .error e ↔ LookupFails t dir e := by
  constructor
  · intro h
    have hbroken := lookup_eq_error_iff.1 ⟨e, h⟩
    obtain ⟨there, hthere, hhas⟩ := hbroken.1
    rcases complete_or_missing t dir with hall | ⟨name, hname, hmissing⟩
    · have hall' := fun name hname => has_iff_reading.1 (hall name hname)
      obtain ⟨earlier, name, later, order, hreadable, fault, hfault⟩ :=
        exists_unreadable hall' hbroken
      rw [lookup_of_unreadable hall' order hreadable hfault] at h
      cases h
      exact .unreadable hall' order hreadable hfault
    · rw [lookup_of_incomplete hbroken.1 ⟨name, hname, hmissing⟩] at h
      cases h
      exact .incomplete ⟨there, hthere, has_iff_reading.1 hhas⟩
        ⟨name, hname, reading_eq_none_iff.2 hmissing⟩
  · intro h
    cases h with
    | incomplete present missing =>
      obtain ⟨there, hthere, hread⟩ := present
      obtain ⟨name, hname, hmissing⟩ := missing
      exact lookup_of_incomplete ⟨there, hthere, has_iff_reading.2 hread⟩
        ⟨name, hname, reading_eq_none_iff.1 hmissing⟩
    | unreadable complete order readable failure =>
      exact lookup_of_unreadable complete order readable failure

/-! ## Trees that a look-up does not tell apart -/

/-- The four files read in the second tree as in the first. -/
def ReadsAlike (t t' : FileTree) (dir : String) : Prop :=
  ∀ name ∈ names, reading t' dir name = reading t dir name

/-- Nothing else than what is read under the four names counts for a look-up. -/
theorem ReadsAlike.lookup_eq (h : ReadsAlike t t' dir) :
    (managed dir).lookup t' = (managed dir).lookup t := by
  have hrequired : ∀ name ∈ requiredNames, reading t' dir name = reading t dir name :=
    (forall_names.1 h).1
  cases hlookup : (managed dir).lookup t with
  | error e =>
    refine lookup_eq_error_iff_fails.2 ?_
    cases lookup_eq_error_iff_fails.1 hlookup with
    | incomplete present missing =>
      obtain ⟨there, hthere, hread⟩ := present
      obtain ⟨name, hname, hmissing⟩ := missing
      exact .incomplete ⟨there, hthere, (hrequired there hthere).trans_ne hread⟩
        ⟨name, hname, (hrequired name hname).trans hmissing⟩
    | unreadable complete order readable failure =>
      refine .unreadable (fun name hname => (hrequired name hname).trans_ne (complete name hname))
        order (fun other hother => ?_) ((h _ (by simp [order])).trans failure)
      rw [h other (by simp [order, hother])]
      exact readable other hother
  | ok found =>
    cases found with
    | none =>
      refine lookup_of_absent fun name hname => reading_eq_none_iff.1 ?_
      rw [hrequired name hname, reading_eq_none_iff]
      exact lookup_eq_none_iff.1 hlookup name hname
    | some m =>
      have hholds := holds_iff_reading.1 (lookup_eq_some_iff.1 hlookup)
      exact lookup_eq_some_iff.2 (holds_iff_reading.2 fun name hname =>
        (h name hname).trans (hholds name hname))

/-- A look-up does not tell the second tree from the first: the files read alike, or it fails with
one error in both. -/
def Unnoticed (t t' : FileTree) (dir : String) : Prop :=
  ReadsAlike t t' dir ∨ ∃ e, LookupFails t dir e ∧ LookupFails t' dir e

end CredentialSource

end QuorumKeeper
