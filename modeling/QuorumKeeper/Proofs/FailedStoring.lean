import QuorumKeeper.Proofs.Directories
import QuorumKeeper.Proofs.LookupAnswers

/-!
# Storing that fails

Material is stored file by file, each in its place, and nothing is undone. A storing that fails has
stopped at one file (`Stopped`): those before it are written, those after it are as they were, and
under its own name there is one of the three things that `Blocked` tells apart.

A directory that held material can therefore hold a mixture afterwards (`Holds.mixed`). What is left
behind, what a look-up finds in it, and exactly when it answers as before the storing, is what
`lookup_after_failed_persist` says.
-/

set_option autoImplicit false

namespace QuorumKeeper

open QuorumKeeper.Path FileTree

namespace CredentialSource

variable {t t' before reached after : FileTree} {dir : String} {m : TlsMaterial} {e : ClientError}
  {f : StoredFile} {written : List StoredFile}

/-! ## Where storing stops -/

/-- Storing has stopped: of the files, those before this one are written, and this one is not
stored. -/
structure Stopped (dir : String) (files : List StoredFile) (before reached after : FileTree)
    (written : List StoredFile) (f : StoredFile) (e : ClientError) : Prop where
  order : written ++ [f] <+: files
  stored : storeFiles dir written before = (.ok (), reached)
  failed : storeFile dir f reached = (.error e, after)

/-- Files that are not all stored stop at one of them. -/
theorem storeFiles_eq_error {files : List StoredFile}
    (h : storeFiles dir files t = (.error e, t')) :
    ∃ written f reached, Stopped dir files t reached t' written f e := by
  induction files generalizing t with
  | nil => cases h
  | cons f rest ih =>
    rw [storeFiles] at h
    cases hfirst : storeFile dir f t with
    | mk answer made =>
      rw [hfirst] at h
      cases answer with
      | error e' =>
        cases h
        exact ⟨[], f, t, ⟨rest, rfl⟩, rfl, hfirst⟩
      | ok u =>
        obtain ⟨written, g, reached, hstopped⟩ := ih h
        refine ⟨f :: written, g, reached, List.cons_prefix_cons.2 ⟨rfl, hstopped.order⟩, ?_,
          hstopped.failed⟩
        exact storeFiles_cons_eq_ok_iff.2 ⟨made, hfirst, hstopped.stored⟩

/-- What was under the name of a blocked file counts alone. -/
theorem Blocked.congr (h : Blocked dir f reached after e)
    (hsame : reached.node? (join dir f.name) = before.node? (join dir f.name)) :
    Blocked dir f before after e := by
  have hmode : reached.mode? (join dir f.name) = before.mode? (join dir f.name) := by
    rw [mode?, mode?, hsame]
  cases h with
  | untouched fault same => exact .untouched fault (same.trans hsame)
  | torn order short node why => exact .torn order short (hmode ▸ node) why
  | unrestricted secret node why => exact .unrestricted secret (hmode ▸ node) why

/-- Where nothing is under the name of a blocked file, nothing has changed there. -/
theorem Blocked.same_of_missing (h : Blocked dir f before after e)
    (hmissing : after.has (join dir f.name) = false) :
    after.node? (join dir f.name) = before.node? (join dir f.name) := by
  cases h with
  | untouched fault same => exact same
  | torn order short node why =>
    rw [FileTree.has, node] at hmissing
    cases hmissing
  | unrestricted secret node why =>
    rw [FileTree.has, node] at hmissing
    cases hmissing

namespace Stopped

variable (h : Stopped dir (filesOf m) before reached after written f e)
include h

/-- The names of the files that are written come first, and that of the blocked one is next. -/
theorem order_names : written.map StoredFile.name ++ [f.name] <+: names := by
  have horder := (h.order.map StoredFile.name).trans (filesOf_order m)
  rwa [List.map_append] at horder

/-- The blocked file is one of the four. -/
theorem name_mem : f.name ∈ names :=
  h.order_names.subset (List.mem_append_right _ List.mem_cons_self)

/-- The blocked file is none of those that are written. -/
theorem name_notMem : f.name ∉ written.map StoredFile.name := by
  obtain ⟨later, order⟩ := h.order_names
  rw [List.append_assoc, List.singleton_append] at order
  exact notMem_earlier order.symm

theorem written_names : written.map StoredFile.name <+: names :=
  (List.prefix_append _ _).trans h.order_names

theorem mem_names {g : StoredFile} (hg : g ∈ written) : g.name ∈ names :=
  h.written_names.subset (List.mem_map_of_mem hg)

/-- Up to the blocked file all is written, and the rest is as it was. -/
theorem effect : (∀ g ∈ written, Stands reached dir g) ∧
    ∀ other, IsName other → other ∉ written.map StoredFile.name →
      reached.node? (join dir other) = before.node? (join dir other) :=
  node?_storeFiles (fun _ hg => isName_of_mem_names _ (h.mem_names hg))
    ((by decide : names.Nodup).sublist h.written_names.sublist) h.stored

/-- The blocked file is all that changes after that. -/
theorem failed_cases : reached.AgreesExcept after dir f.name ∧ Blocked dir f reached after e := by
  obtain ⟨hagrees, ⟨hok, -⟩ | ⟨e', he, hblocked⟩⟩ :=
    storeFile_cases (isName_of_mem_names _ h.name_mem) h.failed
  · cases hok
  · cases he
    exact ⟨hagrees, hblocked⟩

/-- The files that are written stand in the end. -/
theorem stands : ∀ g ∈ written, Stands after dir g := by
  intro g hg
  obtain ⟨mode, hnode, hmode⟩ := h.effect.1 g hg
  have hne : g.name ≠ f.name := fun heq => h.name_notMem (heq ▸ List.mem_map_of_mem hg)
  exact ⟨mode, (h.failed_cases.1 _ (isName_of_mem_names _ (h.mem_names hg)) hne).trans hnode, hmode⟩

/-- Under the names of no file that was tried there is what was there before. -/
theorem others (other : String) (hother : IsName other)
    (hunwritten : other ∉ written.map StoredFile.name) (hne : other ≠ f.name) :
    after.node? (join dir other) = before.node? (join dir other) :=
  (h.failed_cases.1 other hother hne).trans (h.effect.2 other hother hunwritten)

/-- The blocked file, seen from the tree in which storing began. -/
theorem blocked : Blocked dir f before after e :=
  h.failed_cases.2.congr (h.effect.2 _ (isName_of_mem_names _ h.name_mem) h.name_notMem)

/-- If no file is written, the blocked one is the first of all. -/
theorem name_eq_of_nil (hwritten : written = []) : f.name = caName := by
  subst hwritten
  exact (List.cons_prefix_cons.1 h.order_names).1

/-- If any file is written, the authority's certificate is. -/
theorem caName_written (hwritten : written ≠ []) : caName ∈ written.map StoredFile.name := by
  obtain ⟨g, rest, rfl⟩ := List.exists_cons_of_ne_nil hwritten
  have hfirst := (List.cons_prefix_cons.1 h.order_names).1
  rw [← hfirst]
  exact List.mem_cons_self

end Stopped

/-! ## Mixtures -/

/-- The material with the text of one file in place of its own. -/
def replaced (m : TlsMaterial) (f : StoredFile) : TlsMaterial :=
  if f.name = caName then { m with ca := f.text }
  else if f.name = certName then { m with cert := f.text }
  else if f.name = keyName then { m with key := f.text }
  else { m with caKey := some f.text }

/-- The material with the texts of files in place of its own. -/
def mixed (m : TlsMaterial) (files : List StoredFile) : TlsMaterial :=
  files.foldl replaced m

/-- The text of one file takes the place of one part. -/
theorem part_replaced {name : String} (hf : f.name ∈ names) (hname : name ∈ names) :
    part (replaced m f) name = if name = f.name then some f.text else part m name := by
  simp only [names, List.mem_cons, List.not_mem_nil, or_false] at hf hname
  rcases hf with hf | hf | hf | hf <;> rcases hname with rfl | rfl | rfl | rfl <;>
    simp [part, replaced, hf, caName, certName, keyName, caKeyName]

/-- Where material is found, a file that is written takes the place of its part. -/
theorem Holds.replaced (h : Holds t dir m) (hname : f.name ∈ names)
    (hread : t'.read (join dir f.name) = .ok f.text) (hagrees : t.AgreesExcept t' dir f.name) :
    Holds t' dir (replaced m f) := by
  rw [holds_iff_reading] at h ⊢
  intro name hmem
  rw [part_replaced hname hmem]
  split
  · rename_i heq
    rw [heq]
    exact reading_eq_ok_iff.2 hread
  · rename_i hne
    rw [reading_congr (hagrees name (isName_of_mem_names _ hmem) hne)]
    exact h name hmem

/-- Where material is found, files that are written take the places of its parts. -/
theorem Holds.mixed (h : Holds t dir m) (hnames : ∀ f ∈ written, f.name ∈ names)
    (hstored : storeFiles dir written t = (.ok (), t')) : Holds t' dir (mixed m written) := by
  induction written generalizing t m with
  | nil =>
    cases hstored
    exact h
  | cons f rest ih =>
    obtain ⟨made, hfirst, hrest⟩ := storeFiles_cons_eq_ok_iff.1 hstored
    have hname := hnames f List.mem_cons_self
    obtain ⟨⟨mode, hnode, -⟩, hagrees⟩ := node?_storeFile (isName_of_mem_names _ hname) hfirst
    have hfound := h.replaced hname (read_text hnode) hagrees
    exact ih hfound (fun g hg => hnames g (List.mem_cons_of_mem f hg)) hrest

/-! ## What a look-up notices -/

namespace Stopped

variable (h : Stopped dir (filesOf m) before reached after written f e)
include h

/-- If none of the three files is there afterwards, no file was written, and the blocked one, which
is the first, was not touched. -/
theorem readsAlike_of_absent (hafter : Absent after dir) : ReadsAlike before after dir := by
  have hnone := hafter caName (by decide)
  have hwritten : written = [] := by
    by_contra hne
    obtain ⟨g, hg, hname⟩ := List.mem_map.1 (h.caName_written hne)
    have hhas := (h.stands g hg).has
    rw [hname, hnone] at hhas
    cases hhas
  have hfirst := h.name_eq_of_nil hwritten
  subst hwritten
  intro name hname
  refine reading_congr ?_
  by_cases heq : name = caName
  · rw [heq, ← hfirst]
    exact h.blocked.same_of_missing (hfirst ▸ hnone)
  · exact h.others name (isName_of_mem_names _ hname) (by simp) (hfirst ▸ heq)

/-- A look-up answers in both trees alike exactly if it does not notice what was written. -/
theorem lookup_eq_iff : (managed dir).lookup after = (managed dir).lookup before ↔
    Unnoticed before after dir := by
  constructor
  · intro hsame
    cases hlookup : (managed dir).lookup before with
    | error e' =>
      exact Or.inr ⟨e', lookup_eq_error_iff_fails.1 hlookup,
        lookup_eq_error_iff_fails.1 (hsame.trans hlookup)⟩
    | ok found =>
      refine Or.inl ?_
      cases found with
      | none =>
        exact h.readsAlike_of_absent (lookup_eq_none_iff.1 (hsame.trans hlookup))
      | some old =>
        -- in both trees each file is read as its part of the one material
        have hold := holds_iff_reading.1 (lookup_eq_some_iff.1 hlookup)
        have hnew := holds_iff_reading.1 (lookup_eq_some_iff.1 (hsame.trans hlookup))
        exact fun name hname => (hnew name hname).trans (hold name hname).symm
  · rintro (halike | ⟨e', hbefore, hafter⟩)
    · exact halike.lookup_eq
    · rw [lookup_eq_error_iff_fails.2 hbefore, lookup_eq_error_iff_fails.2 hafter]

end Stopped

/-! ## Failed storing -/

theorem absent_of_node? (h : ∀ name ∈ requiredNames, t.node? (join dir name) = none) :
    Absent t dir := by
  intro name hname
  rw [FileTree.has, h name hname]
  rfl

/-- A directory that cannot be made holds nothing, before and after. -/
theorem absent_of_makeDirs_error {fault : FileFault} (h : t.makeDirs dir = (.error fault, t')) :
    Absent t dir ∧ Absent t' dir := by
  have hnone : ∀ name ∈ requiredNames,
      t.node? (join dir name) = none ∧ t'.node? (join dir name) = none := by
    intro name hname
    exact node?_of_makeDirs_error (isName_of_mem_names _ (mem_names_iff.2 (Or.inl hname))) h
  exact ⟨absent_of_node? fun name hname => (hnone name hname).1,
    absent_of_node? fun name hname => (hnone name hname).2⟩

/-- A directory that holds material is there, and making it does nothing. -/
theorem prepared_of_present {name : String} (hname : name ∈ names)
    (hhas : t.has (join dir name) = true) : prepared dir t = t := by
  obtain ⟨node, hnode⟩ := Option.isSome_iff_exists.1 hhas
  have hisName := isName_of_mem_names _ hname
  obtain ⟨hcheck, path, entries, hopens⟩ := exists_opens_of_node? hisName hnode
  rw [prepared, makeDirs_of_opens hopens hisName hcheck]

/-- The error of a directory that cannot be made. -/
def createFailure (dir : String) (fault : FileFault) : ClientError :=
  .credentials ("failed to create " ++ dir ++ ": " ++ fault.message)

/-- Storing fails because the directory cannot be made, or because it stops at a file. -/
theorem persist_eq_error (h : ((managed dir).persist m t).1 = .error e) :
    (∃ fault, t.makeDirs dir = (.error fault, ((managed dir).persist m t).2) ∧
      e = createFailure dir fault) ∨
    ∃ written f reached, Stopped dir (filesOf m) (prepared dir t) reached
      ((managed dir).persist m t).2 written f e := by
  unfold persist at h ⊢
  unfold prepared
  cases hdirs : t.makeDirs dir with
  | mk answer made =>
    cases answer with
    | error fault =>
      simp only [hdirs] at h ⊢
      cases h
      exact Or.inl ⟨fault, rfl, rfl⟩
    | ok u =>
      simp only [hdirs] at h ⊢
      exact Or.inr (storeFiles_eq_error (Prod.ext h rfl))

namespace Stopped

variable (h : Stopped dir (filesOf m) (prepared dir t) reached after written f e)
include h

/-- A look-up answers as before if making the directory has not changed its answer, and what was
written is not noticed. -/
theorem lookup_unchanged_iff : (managed dir).lookup after = (managed dir).lookup t ↔
    (managed dir).lookup (prepared dir t) = (managed dir).lookup t ∧
      Unnoticed (prepared dir t) after dir := by
  rw [← h.lookup_eq_iff]
  refine ⟨fun hsame => ?_, fun ⟨hprepared, hsame⟩ => hsame.trans hprepared⟩
  have hprepared : (managed dir).lookup (prepared dir t) = (managed dir).lookup t := by
    rcases absent_or_present t dir with habsent | ⟨name, hname, hhas⟩
    · -- nothing is found after the storing either, so the directory reads as when it was made
      have hnone := hsame.trans (lookup_of_absent habsent)
      have halike := h.readsAlike_of_absent (lookup_eq_none_iff.1 hnone)
      exact halike.lookup_eq.symm.trans hsame
    · rw [prepared_of_present (mem_names_iff.2 (Or.inl hname)) hhas]
  exact ⟨hprepared, hsame.trans hprepared.symm⟩

end Stopped

/-! ## Failed storing over material -/

/-- All material has the parts that are required. -/
theorem exists_part {name : String} (hname : name ∈ requiredNames) :
    ∃ text, part m name = some text := by
  simp only [requiredNames, List.mem_cons, List.not_mem_nil, or_false] at hname
  rcases hname with rfl | rfl | rfl <;> simp [part, caName, certName, keyName]

/-- Material that is found after storing has stopped over older material: the older one, in which
the files that were written have taken the places of its parts, and what is read of the blocked file
has taken the place of its own. If that cannot be read, a look-up fails for it. -/
structure Mixes (dir : String) (old : TlsMaterial) (t after : FileTree) (written : List StoredFile)
    (f : StoredFile) : Prop where
  kept : after.node? (join dir f.name) = t.node? (join dir f.name) →
    (managed dir).lookup after = .ok (some (mixed old written))
  overwritten : ∀ text, after.read (join dir f.name) = .ok text →
    (managed dir).lookup after = .ok (some (mixed old (written ++ [{ f with text }])))
  unreadable : ∀ fault, reading after dir f.name = some (.error fault) →
    (managed dir).lookup after = .error (readFailure dir f.name fault)

namespace Stopped

variable (h : Stopped dir (filesOf m) before reached after written f e)
include h

theorem reading_of_ne {name : String} (hname : name ∈ names) (hne : name ≠ f.name) :
    reading after dir name = reading reached dir name :=
  reading_congr (h.failed_cases.1 name (isName_of_mem_names _ hname) hne)

/-- Where a file cannot be read that was blocked over material, a look-up gets as far as that file.
-/
theorem lookup_of_unreadable {old : TlsMaterial} (hreached : Holds reached dir old)
    {fault : FileFault}
    (hfault : reading after dir f.name = some (.error fault)) :
    (managed dir).lookup after = .error (readFailure dir f.name fault) := by
  have hread : ∀ name ∈ requiredNames, name ≠ f.name →
      ∃ text, reading after dir name = some (.ok text) := by
    intro name hname hne
    have hmem := mem_names_iff.2 (Or.inl hname)
    obtain ⟨text, hpart⟩ := exists_part (m := old) hname
    refine ⟨text, ?_⟩
    rw [h.reading_of_ne hmem hne, holds_iff_reading.1 hreached name hmem, hpart]
    rfl
  obtain ⟨earlier, later, order⟩ := List.append_of_mem h.name_mem
  refine CredentialSource.lookup_of_unreadable (fun name hname => ?_) order
    (fun name hearlier => ?_) hfault
  · by_cases hne : name = f.name
    · rw [hne, hfault]
      nofun
    · obtain ⟨text, htext⟩ := hread name hname hne
      rw [htext]
      nofun
  · have hne : name ≠ f.name := fun heq => notMem_earlier order (heq ▸ hearlier)
    exact hread name (subset_required order hearlier) hne

/-- What is found after storing has stopped over material. -/
theorem mixes {old : TlsMaterial} (hold : Holds before dir old) :
    Mixes dir old before after written f := by
  have hreached := hold.mixed (fun _ hg => h.mem_names hg) h.stored
  refine ⟨fun hsame => ?_, fun text hread => ?_, fun fault hfault => ?_⟩
  · refine lookup_eq_some_iff.2 (holds_iff_reading.2 fun name hname => ?_)
    rw [← holds_iff_reading.1 hreached name hname]
    by_cases hne : name = f.name
    · rw [hne]
      exact reading_congr (hsame.trans
        (h.effect.2 _ (isName_of_mem_names _ h.name_mem) h.name_notMem).symm)
    · exact h.reading_of_ne hname hne
  · rw [mixed, List.foldl_append]
    exact lookup_eq_some_iff.2 (hreached.replaced (f := { f with text }) h.name_mem hread
      h.failed_cases.1)
  · exact h.lookup_of_unreadable hreached hfault

end Stopped

/-- What storing leaves behind that stops at a file. -/
structure LeavesBehind (dir : String) (m : TlsMaterial) (t after : FileTree)
    (written : List StoredFile) (f : StoredFile) (e : ClientError) : Prop where
  stopped : ∃ reached, Stopped dir (filesOf m) (prepared dir t) reached after written f e
  stands : ∀ g ∈ written, Stands after dir g
  blocked : Blocked dir f (prepared dir t) after e
  others : ∀ other, IsName other → other ∉ written.map StoredFile.name → other ≠ f.name →
    after.node? (join dir other) = (prepared dir t).node? (join dir other)
  mixes : ∀ old, (managed dir).lookup t = .ok (some old) → Mixes dir old t after written f
  unchanged_iff : (managed dir).lookup after = (managed dir).lookup t ↔
    (managed dir).lookup (prepared dir t) = (managed dir).lookup t ∧
      Unnoticed (prepared dir t) after dir

/-- Storing that fails either could not make the directory, which held nothing, and then nothing is
found as before; or it has stopped at a file. Then the files before that one are written and not
taken back, whatever is under its own name, and material that was found is mixed with the new. -/
theorem lookup_after_failed_persist (dir : String) (m : TlsMaterial) (t : FileTree)
    (e : ClientError) (h : ((managed dir).persist m t).1 = .error e) :
    (∃ fault, (t.makeDirs dir).1 = .error fault ∧ e = createFailure dir fault ∧
        (managed dir).lookup t = .ok none ∧
        (managed dir).lookup ((managed dir).persist m t).2 = .ok none) ∨
      ∃ written f, LeavesBehind dir m t ((managed dir).persist m t).2 written f e := by
  rcases persist_eq_error h with ⟨fault, hunmade, he⟩ | ⟨written, f, reached, hstopped⟩
  · obtain ⟨hbefore, hafter⟩ := absent_of_makeDirs_error hunmade
    exact Or.inl ⟨fault, by rw [hunmade], he, lookup_of_absent hbefore, lookup_of_absent hafter⟩
  · refine Or.inr ⟨written, f, ⟨reached, hstopped⟩, hstopped.stands, hstopped.blocked,
      hstopped.others, fun old hold => ?_, hstopped.lookup_unchanged_iff⟩
    have hholds := lookup_eq_some_iff.1 hold
    have hprepared : prepared dir t = t := prepared_of_present (by decide) (has_of_read hholds.ca)
    rw [hprepared] at hstopped
    exact hstopped.mixes hholds

/-- A storing that was seen to fail. -/
theorem exists_error_of_isOk {answer : Except ClientError Unit} (h : answer.isOk = false) :
    ∃ e, answer = .error e := by
  cases answer with
  | ok u => cases h
  | error e => exact ⟨e, rfl⟩

/-- A look-up that was seen to answer. -/
theorem eq_ok_of_toOption {α : Type} {answer : Except ClientError α} {a : α}
    (h : answer.toOption = some a) : answer = .ok a := by
  cases answer with
  | ok found => exact congrArg _ (Option.some.inj h)
  | error e => cases h

/-- The client's key may not be written, by a process without the permission to. The two
certificates are, and what is found afterwards is the older key with certificates that it does not
belong to. -/
theorem mixed_after_sealed_key :
    let t : FileTree :=
      { entries := [("d", .dir [("ca.crt", .file (Text.utf8 "A") plainMode),
          ("client.crt", .file (Text.utf8 "B") plainMode),
          ("client.key", .file (Text.utf8 "C") 0o400)])]
        obstacles := [(["d", "client.key"], .closed .permissionDenied)] }
    let m : TlsMaterial := { ca := "E", cert := "F", key := "G" }
    let after := ((managed "d").persist m t).2
    ∃ e written f, ((managed "d").persist m t).1 = .error e ∧
      LeavesBehind "d" m t after written f e ∧
      (managed "d").lookup t = .ok (some { ca := "A", cert := "B", key := "C" }) ∧
      (managed "d").lookup after = .ok (some { ca := "E", cert := "F", key := "C" }) := by
  intro t m after
  obtain ⟨e, he⟩ : ∃ e, ((managed "d").persist m t).1 = .error e :=
    exists_error_of_isOk (by decide +kernel)
  have hbefore : (managed "d").lookup t = .ok (some { ca := "A", cert := "B", key := "C" }) :=
    eq_ok_of_toOption (by decide +kernel)
  have hafter : (managed "d").lookup after = .ok (some { ca := "E", cert := "F", key := "C" }) :=
    eq_ok_of_toOption (by decide +kernel)
  obtain ⟨fault, -, -, hnone, -⟩ | ⟨written, f, hleft⟩ := lookup_after_failed_persist "d" m t e he
  · rw [hbefore] at hnone
    cases hnone
  · exact ⟨e, written, f, he, hleft, hbefore, hafter⟩

/-- A directory has the place of the authority's key, and nothing else is there. The three other
files are written and not taken back, so a look-up that found nothing fails now. -/
theorem failed_persist_noticed : ¬ ∀ (dir : String) (m : TlsMaterial) (t : FileTree)
    (e : ClientError), ((managed dir).persist m t).1 = .error e →
      (managed dir).lookup ((managed dir).persist m t).2 = (managed dir).lookup t := by
  intro hall
  let t : FileTree := { entries := [("d", .dir [("ca.key", .dir [])])] }
  let m : TlsMaterial := { ca := "A", cert := "B", key := "C", caKey := some "D" }
  obtain ⟨e, he⟩ : ∃ e, ((managed "d").persist m t).1 = .error e :=
    exists_error_of_isOk (by decide +kernel)
  have hbefore : ((managed "d").lookup t).isOk = true := by decide +kernel
  have hafter : ((managed "d").lookup ((managed "d").persist m t).2).isOk = false := by
    decide +kernel
  rw [hall "d" m t e he, hbefore] at hafter
  cases hafter

end CredentialSource

end QuorumKeeper
