import QuorumKeeper.Credentials.Store
import QuorumKeeper.Proofs.FileTrees

/-!
# Credentials that were stored

Storing material writes its files one after the other, and a file written later leaves those before
it alone (`node?_storeFiles`). So the three files that are always written are read back as they were
given. The authority's key is another matter: material without one writes no file for it, and what
stands under that name, such as the key of material stored earlier, is read as part of the new
material (`lookup_of_keyless`). `stored_read_back_iff` says when all is read back as stored.
-/

set_option autoImplicit false

namespace QuorumKeeper

open QuorumKeeper.Path FileTree

namespace CredentialSource

/-! ## Writing files -/

variable {t t' : FileTree} {dir : String} {m : TlsMaterial}

/-- The file stands below the base with its text, for its owner only if it is secret. -/
def Stands (t : FileTree) (dir : String) (f : StoredFile) : Prop :=
  ∃ mode, t.node? (join dir f.name) = some (.file (Text.utf8 f.text) mode) ∧
    (f.secret = true → mode = privateMode)

/-- The error of a file that cannot be written. -/
def writeFailure (dir : String) (f : StoredFile) (fault : FileFault) : ClientError :=
  .credentials ("failed to write " ++ join dir f.name ++ ": " ++ fault.message)

/-- The error of a secret file whose access mode cannot be set. -/
def restrictFailure (dir : String) (f : StoredFile) (fault : FileFault) : ClientError :=
  .credentials ("failed to restrict " ++ join dir f.name ++ ": " ++ fault.message)

/-- Why a file is not stored, and what there is under its name: what was there before; a beginning
of its text; or, if it is secret, its whole text with the access mode that it got from being
written. -/
inductive Blocked (dir : String) (f : StoredFile) (before after : FileTree) :
    ClientError → Prop where
  | untouched (fault : FileFault)
      (same : after.node? (join dir f.name) = before.node? (join dir f.name)) :
      Blocked dir f before after (writeFailure dir f fault)
  | torn {kept : List UInt8} (order : kept <+: Text.utf8 f.text) (short : kept ≠ Text.utf8 f.text)
      (node : after.node? (join dir f.name) =
        some (.file kept ((before.mode? (join dir f.name)).getD plainMode))) (why : Denial) :
      Blocked dir f before after (writeFailure dir f (.denied why))
  | unrestricted (secret : f.secret = true)
      (node : after.node? (join dir f.name) =
        some (.file (Text.utf8 f.text) ((before.mode? (join dir f.name)).getD plainMode)))
      (why : Denial) : Blocked dir f before after (restrictFailure dir f (.denied why))

/-- Storing a file leaves everything under other names alone. Either the file stands there, or it is
blocked. -/
theorem storeFile_cases {f : StoredFile} (hname : IsName f.name) {answer : Except ClientError Unit}
    (h : storeFile dir f t = (answer, t')) : t.AgreesExcept t' dir f.name ∧
      (answer = .ok () ∧ Stands t' dir f ∨ ∃ e, answer = .error e ∧ Blocked dir f t t' e) := by
  unfold storeFile at h
  cases hwrite : t.tryWrite (join dir f.name) (Text.utf8 f.text) with
  | mk outcome written =>
    simp only [hwrite] at h
    cases wrote_of_tryWrite hname hwrite with
    | nothing same fault =>
      cases h
      rw [same]
      exact ⟨fun _ _ _ => rfl, Or.inr ⟨_, rfl, .untouched fault rfl⟩⟩
    | part order short node others why =>
      cases h
      exact ⟨others, Or.inr ⟨_, rfl, .torn order short node why⟩⟩
    | whole node others =>
      cases hsecret : f.secret with
      | false =>
        rw [hsecret] at h
        cases h
        exact ⟨others, Or.inl ⟨rfl, _, node, by simp [hsecret]⟩⟩
      | true =>
        rw [hsecret] at h
        obtain ⟨restricted, hmode, hnode, hagrees⟩ | ⟨why, hmode⟩ :=
          node?_setMode hname privateMode node
        · simp only [hmode, if_true] at h
          cases h
          exact ⟨fun other hother hne => (hagrees other hother hne).trans (others other hother hne),
            Or.inl ⟨rfl, privateMode, hnode, fun _ => rfl⟩⟩
        · simp only [hmode, if_true] at h
          cases h
          exact ⟨others, Or.inr ⟨_, rfl, .unrestricted hsecret node why⟩⟩

/-- A file that is stored stands under its name, and everything under other names is left alone. -/
theorem node?_storeFile {f : StoredFile} (hname : IsName f.name)
    (h : storeFile dir f t = (.ok (), t')) : Stands t' dir f ∧ t.AgreesExcept t' dir f.name := by
  obtain ⟨hagrees, ⟨-, hstands⟩ | ⟨e, he, -⟩⟩ := storeFile_cases hname h
  · exact ⟨hstands, hagrees⟩
  · cases he

/-- Files are stored if the first one is, and then the rest. -/
theorem storeFiles_cons_eq_ok_iff {f : StoredFile} {rest : List StoredFile} :
    storeFiles dir (f :: rest) t = (.ok (), t') ↔
      ∃ made, storeFile dir f t = (.ok (), made) ∧ storeFiles dir rest made = (.ok (), t') := by
  rw [storeFiles]
  cases hfirst : storeFile dir f t with
  | mk answer made =>
    cases answer with
    | error e => simp
    | ok u => simp

/-- Files with different names all stand in the directory once they are written, and what stands
under other names stays as it was. -/
theorem node?_storeFiles {files : List StoredFile} (hnames : ∀ f ∈ files, IsName f.name)
    (hdistinct : (files.map StoredFile.name).Nodup) (h : storeFiles dir files t = (.ok (), t')) :
    (∀ f ∈ files, Stands t' dir f) ∧ ∀ other, IsName other → other ∉ files.map StoredFile.name →
      t'.node? (join dir other) = t.node? (join dir other) := by
  induction files generalizing t with
  | nil =>
    cases h
    exact ⟨by simp, fun other _ _ => rfl⟩
  | cons f rest ih =>
    rw [List.map_cons, List.nodup_cons] at hdistinct
    obtain ⟨made, hfirst, hstored⟩ := storeFiles_cons_eq_ok_iff.1 h
    have hf := hnames f List.mem_cons_self
    obtain ⟨⟨mode, hstands, hmode⟩, hagrees⟩ := node?_storeFile hf hfirst
    obtain ⟨hrest, hothers⟩ := ih (fun g hg => hnames g (List.mem_cons_of_mem f hg))
      hdistinct.2 hstored
    refine ⟨fun g hg => ?_, fun other hother hne => ?_⟩
    · rcases List.mem_cons.1 hg with rfl | hg
      -- the first file is under none of the names that are written after it
      · exact ⟨mode, (hothers g.name hf hdistinct.1).trans hstands, hmode⟩
      · exact hrest g hg
    · rw [List.map_cons, List.mem_cons, not_or] at hne
      exact (hothers other hother hne.2).trans (hagrees other hother hne.1)

/-! ## The files of material -/

/-- The names of the files in which material is kept. -/
def names : List String := [caName, certName, keyName, caKeyName]

/-- The names of the files can be used as entries of a directory. -/
theorem isName_of_mem_names : ∀ name ∈ names, IsName name := by
  simp only [names, List.forall_mem_cons, List.not_mem_nil, false_implies, implies_true, and_true]
  refine ⟨?_, ?_, ?_, ?_⟩ <;> exact ⟨by decide, by decide, by decide, by decide⟩

/-- The files come in one order, and the last of them can be left out. -/
theorem filesOf_order (m : TlsMaterial) : (filesOf m).map StoredFile.name <+: names := by
  cases h : m.caKey with
  | none => exact ⟨[caKeyName], by simp [filesOf, names, h]⟩
  | some text => exact ⟨[], by simp [filesOf, names, h]⟩

/-- The files of material have names of entries. -/
theorem isName_of_mem_filesOf : ∀ f ∈ filesOf m, IsName f.name := by
  intro f hf
  exact isName_of_mem_names _ ((filesOf_order m).subset (List.mem_map_of_mem hf))

/-- Material without an authority's key has no file for it. -/
theorem caKeyName_notMem (h : m.caKey = none) : caKeyName ∉ (filesOf m).map StoredFile.name := by
  simp [filesOf, h, caKeyName, caName, certName, keyName]

/-- The directory in which material is stored, before its files are written. -/
def prepared (dir : String) (t : FileTree) : FileTree :=
  (t.makeDirs dir).2

/-- Stored material stands in its files, and without an authority's key the name of that file keeps
what it had. -/
theorem node?_persist (h : ((managed dir).persist m t).1 = .ok ()) :
    (∀ f ∈ filesOf m, Stands ((managed dir).persist m t).2 dir f) ∧
      (m.caKey = none → ((managed dir).persist m t).2.node? (join dir caKeyName) =
        (prepared dir t).node? (join dir caKeyName)) := by
  unfold persist at h ⊢
  unfold prepared
  cases hdirs : t.makeDirs dir with
  | mk answer made =>
    cases answer with
    | error fault =>
      simp only [hdirs] at h
      cases h
    | ok u =>
      simp only [hdirs] at h ⊢
      have hstored : storeFiles dir (filesOf m) made =
          (.ok (), (storeFiles dir (filesOf m) made).2) := Prod.ext h rfl
      have hdistinct : ((filesOf m).map StoredFile.name).Nodup :=
        (by decide : names.Nodup).sublist (filesOf_order m).sublist
      obtain ⟨hstands, hothers⟩ := node?_storeFiles isName_of_mem_filesOf hdistinct hstored
      refine ⟨hstands, fun hkey => ?_⟩
      exact hothers caKeyName (isName_of_mem_names _ (by decide)) (caKeyName_notMem hkey)

/-! ## Reading them back -/

/-- A file that stands is there. -/
theorem Stands.has {f : StoredFile} (h : Stands t dir f) : t.has (join dir f.name) = true := by
  obtain ⟨mode, hnode, -⟩ := h
  rw [FileTree.has, hnode]
  rfl

/-- A file that stands is read as its text. -/
theorem Stands.readText {f : StoredFile} (h : Stands t dir f) :
    readText t (join dir f.name) = .ok f.text := by
  obtain ⟨mode, hnode, -⟩ := h
  rw [CredentialSource.readText, read_text hnode]

/-- The authority's key is read from what stands under its name alone. -/
theorem withCaKey_congr {path : String} (h : t'.node? path = t.node? path) (m : TlsMaterial) :
    withCaKey t' path m = withCaKey t path m := by
  unfold withCaKey CredentialSource.readText
  rw [FileTree.has, FileTree.has, h]
  cases hnode : t.node? path with
  | none => rfl
  | some node => rw [read_congr (h.trans hnode) hnode]

/-- Where the three files stand that are always written, material is found, and with it the
authority's key from whatever stands under the name of that. -/
theorem lookupManaged_of_stands
    (hfiles : ∀ f ∈ filesOf m, Stands t dir f) :
    lookupManaged t dir = (withCaKey t (join dir caKeyName) { m with caKey := none }).map some := by
  have hca : Stands t dir { name := caName, text := m.ca } := hfiles _ (by simp [filesOf])
  have hcert : Stands t dir { name := certName, text := m.cert } := hfiles _ (by simp [filesOf])
  have hkey : Stands t dir { name := keyName, text := m.key, secret := true } :=
    hfiles _ (by simp [filesOf])
  have hread : readMaterial t (join dir caName) (join dir certName) (join dir keyName) =
      .ok { m with caKey := none } := by
    unfold readMaterial
    rw [hca.readText, hcert.readText, hkey.readText]
    rfl
  simp [lookupManaged, hca.has, hcert.has, hkey.has, hread]

/-- Material with an authority's key is read back as it was stored. -/
theorem lookup_of_keyed (h : ((managed dir).persist m t).1 = .ok ()) {text : String}
    (hkey : m.caKey = some text) :
    (managed dir).lookup ((managed dir).persist m t).2 = .ok (some m) := by
  obtain ⟨hstands, -⟩ := node?_persist h
  have hfile : Stands ((managed dir).persist m t).2 dir
      { name := caKeyName, text, secret := true } := hstands _ (by simp [filesOf, hkey])
  have hm : { m with caKey := some text } = m := by rw [← hkey]
  rw [lookup, lookupManaged_of_stands hstands, withCaKey, if_pos hfile.has, hfile.readText]
  simp [Except.map, hm]

/-- Material without an authority's key is read back with what stood under the name of that key. -/
theorem lookup_of_keyless (h : ((managed dir).persist m t).1 = .ok ()) (hkey : m.caKey = none) :
    (managed dir).lookup ((managed dir).persist m t).2 =
      (withCaKey (prepared dir t) (join dir caKeyName) m).map some := by
  obtain ⟨hstands, hkept⟩ := node?_persist h
  have hm : { m with caKey := none } = m := by rw [← hkey]
  rw [lookup, lookupManaged_of_stands hstands, withCaKey_congr (hkept hkey), hm]

/-- The key of an authority is added, if there is a file for it and it can be read. -/
theorem withCaKey_eq_self_iff {path : String} (hkey : m.caKey = none) :
    withCaKey t path m = .ok m ↔ t.has path = false := by
  unfold withCaKey
  cases hhas : t.has path with
  | false => simp
  | true =>
    rw [if_pos rfl]
    cases readText t path with
    | error e => simp
    | ok text =>
      have hne : { m with caKey := some text } ≠ m := by
        intro heq
        rw [← heq] at hkey
        cases hkey
      simp [hne]

/-- Material whose storing succeeds is read back as it was stored exactly if it has an authority's
key, or nothing stands under the name of that key when the files are written. In any case the rest
is read back, and a key that was not stored is the one that stood there. -/
theorem stored_read_back_iff (dir : String) (m : TlsMaterial) (t : FileTree)
    (h : ((managed dir).persist m t).1 = .ok ()) :
    ((managed dir).lookup ((managed dir).persist m t).2 = .ok (some m) ↔
      m.caKey ≠ none ∨ (prepared dir t).has (join dir caKeyName) = false) ∧
    (m.caKey = none → (managed dir).lookup ((managed dir).persist m t).2 =
      (withCaKey (prepared dir t) (join dir caKeyName) m).map some) := by
  refine ⟨?_, lookup_of_keyless h⟩
  cases hkey : m.caKey with
  | some text => simp [lookup_of_keyed h hkey]
  | none =>
    rw [lookup_of_keyless h hkey, ← withCaKey_eq_self_iff hkey]
    cases withCaKey (prepared dir t) (join dir caKeyName) m with
    | error e => simp [Except.map]
    | ok found => simp [Except.map]

/-- A storing that was seen to succeed. -/
theorem eq_ok_of_isOk {answer : Except ClientError Unit} (h : answer.isOk = true) :
    answer = .ok () := by
  cases answer with
  | ok u => rfl
  | error e => cases h

/-- Material with an authority's key takes the place of older material with one. -/
theorem renewed_material_read_back :
    let old : TlsMaterial := { ca := "A", cert := "B", key := "C", caKey := some "D" }
    let new : TlsMaterial := { ca := "E", cert := "F", key := "G", caKey := some "H" }
    let t := ((managed "d").persist old {}).2
    ((managed "d").persist new t).1 = .ok () ∧
      (managed "d").lookup ((managed "d").persist new t).2 = .ok (some new) := by
  intro old new t
  have h : ((managed "d").persist new t).1 = .ok () := eq_ok_of_isOk (by decide +kernel)
  exact ⟨h, (stored_read_back_iff "d" new t h).1.2 (Or.inl (by decide))⟩

/-- Material without an authority's key is read back with the key of older material. -/
theorem older_key_read_back : ¬ ∀ (dir : String) (m : TlsMaterial) (t : FileTree),
    ((managed dir).persist m t).1 = .ok () →
      (managed dir).lookup ((managed dir).persist m t).2 = .ok (some m) := by
  intro hall
  let old : TlsMaterial := { ca := "A", cert := "B", key := "C", caKey := some "D" }
  let new : TlsMaterial := { ca := "E", cert := "F", key := "G" }
  let t := ((managed "d").persist old {}).2
  have hfound := hall "d" new t (eq_ok_of_isOk (by decide +kernel))
  have hother : ((managed "d").lookup ((managed "d").persist new t).2).toOption =
      some (some { new with caKey := some "D" }) := by decide +kernel
  have hsame := hother.symm.trans (congrArg Except.toOption hfound)
  revert hsame
  decide

end CredentialSource

end QuorumKeeper
