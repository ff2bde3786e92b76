import QuorumKeeper.Proofs.FileTrees
import Mathlib.Data.List.Chain
import Mathlib.Data.List.TakeWhile

/-!
# Making directories

A directory is made together with those above it, as far as they are missing. Where it is there
already, nothing is made (`FileTree.makeDirs_of_opens`). Where making it fails, some of the
directories above it may have been made, but the directory itself was not there before and is not
there after, and so nothing is below its path (`FileTree.node?_of_makeDirs_error`).

The last point rests on the order in which directories are tried: whatever path leads to a directory
passes through the directories above it, and `FileTree.isChain_ancestors` says so of the paths that
are tried one after the other.
-/

set_option autoImplicit false

namespace QuorumKeeper

/-! ## Ways to a directory -/

namespace FileNode

variable {root : FileNode} {names path parts : List String} {entries : List (String × FileNode)}

/-- Parts that stay where they are can be left out on the way to a directory. -/
theorem walk_filter_stays (h : root.walk names parts = .ok (.taken path (dir entries))) :
    root.walk names (parts.filter fun part => !Path.isStay part) =
      .ok (.taken path (dir entries)) := by
  induction parts generalizing names with
  | nil => exact h
  | cons part rest ih =>
    obtain ⟨es, hdir, ⟨names', hstride⟩ | ⟨-, heq, -⟩⟩ := walk_cons_cases h
    · have hrest := ih ((hstride.walk_eq hdir rest).symm.trans h)
      cases hstays : Path.isStay part with
      | true =>
        rw [List.filter_cons_of_neg (by simp [hstays])]
        cases hstride with
        | stay stays => exact hrest
        | up stays up => simp [hstays] at stays
        | into stays up short taken => simp [hstays] at stays
      | false =>
        rw [List.filter_cons_of_pos (by simp [hstays]), hstride.walk_eq hdir]
        exact hrest
    · cases heq

/-- Parts that stay where they are can be left out at the end of a way to a directory. -/
theorem walk_of_append_stays {stays : List String} (hstays : ∀ part ∈ stays, Path.isStay part = true)
    (h : root.walk names (parts ++ stays) = .ok (.taken path (dir entries))) :
    root.walk names parts = .ok (.taken path (dir entries)) := by
  induction stays generalizing parts with
  | nil => simpa using h
  | cons part rest ih =>
    rw [List.append_cons] at h
    have hpart := ih (fun other hother => hstays other (List.mem_cons_of_mem part hother)) h
    obtain ⟨path', es, hbefore⟩ := walk_before_last hpart
    have hstride : Stride es path' part path' := .stay (hstays part List.mem_cons_self)
    have hdir := get?_of_walk hbefore
    rw [walk_append hbefore, hstride.walk_eq hdir] at hpart
    obtain ⟨node, hnode, heq⟩ := walk_nil_eq_ok_iff.1 hpart
    cases heq
    rw [hdir] at hnode
    cases hnode
    exact hbefore

end FileNode

namespace Path

theorem isStay_empty : isStay "" = true := by
  decide

/-- What is cut off at the end of the parts are empty parts. -/
theorem trimEnd_append (parts : List String) :
    ∃ stays, parts = trimEnd parts ++ stays ∧ ∀ part ∈ stays, isStay part = true := by
  refine ⟨(parts.reverse.takeWhile (· = "")).reverse, ?_, fun part hpart => ?_⟩
  · rw [trimEnd, ← List.reverse_append, List.takeWhile_append_dropWhile, List.reverse_reverse]
  · have hempty := List.mem_takeWhile_imp (List.mem_reverse.1 hpart)
    rw [decide_eq_true_eq] at hempty
    rw [hempty]
    exact isStay_empty

/-- Cutting empty parts off at the end takes nothing else away. -/
theorem filter_trimEnd (parts : List String) :
    (trimEnd parts).filter (fun part => !isStay part) = parts.filter fun part => !isStay part := by
  obtain ⟨stays, hparts, hstays⟩ := trimEnd_append parts
  have hnone : stays.filter (fun part => !isStay part) = [] :=
    List.filter_eq_nil_iff.2 fun part hpart => by simp [hstays part hpart]
  conv_rhs => rw [hparts, List.filter_append, hnone, List.append_nil]

end Path

namespace FileTree

open QuorumKeeper.Path FileNode

variable {t t' : FileTree} {start parts : List String} {base name : String} {fault : FileFault}

/-- A directory is there exactly if the way leads to one. -/
theorem isDirAt_iff : t.isDirAt start parts = true ↔
    ∃ path entries, t.root.walk start parts = .ok (.taken path (.dir entries)) := by
  unfold isDirAt
  split
  · rename_i names node hwalk
    cases node with
    | file content mode => simp [hwalk, isDir]
    | dir entries => simp [hwalk, isDir]
  · rename_i hother
    simp only [Bool.false_eq_true, false_iff, not_exists]
    exact fun path entries hwalk => hother path _ hwalk

/-- In every tree in which the first parts lead to a directory, the second ones do. -/
def Above (start parts above : List String) : Prop :=
  ∀ t : FileTree, t.isDirAt start parts = true → t.isDirAt start above = true

/-- A way to a directory passes through the one above it. -/
theorem above_append_single (start parts : List String) (last : String) :
    Above start (parts ++ [last]) parts := by
  intro t h
  obtain ⟨path, entries, hwalk⟩ := isDirAt_iff.1 h
  exact isDirAt_iff.2 (walk_before_last hwalk)

/-- Parts that stay where they are can be left out of a way to a directory. -/
theorem above_filter_stays (start parts : List String) :
    Above start parts (parts.filter fun part => !isStay part) := by
  intro t h
  obtain ⟨path, entries, hwalk⟩ := isDirAt_iff.1 h
  exact isDirAt_iff.2 ⟨path, entries, walk_filter_stays hwalk⟩

/-- The beginnings of a way lie above one another. -/
theorem isChain_prefixes (start reversed : List String) :
    (prefixes reversed).IsChain (Above start) := by
  induction reversed with
  | nil => exact .nil
  | cons last rest ih =>
    cases rest with
    | nil => exact .singleton _
    | cons name rest =>
      refine .cons_cons ?_ ih
      rw [List.reverse_cons]
      exact above_append_single start _ last

/-- A way and its own beginnings lie above one another. -/
theorem isChain_names_prefixes (start names : List String) :
    (names :: prefixes (names.reverse.drop 1)).IsChain (Above start) := by
  cases hreversed : names.reverse with
  | nil => exact .singleton names
  | cons last rest =>
    have hnames : names = (last :: rest).reverse := by rw [← hreversed, List.reverse_reverse]
    rw [hnames]
    exact isChain_prefixes start (last :: rest)

/-- The directories that are tried lie above one another. -/
theorem isChain_ancestors (start : List String) (path : String) :
    (ancestors path).IsChain (Above start) := by
  obtain ⟨hnames, hrest⟩ := List.isChain_cons.1
    (isChain_names_prefixes start ((parts path).filter fun part => !isStay part))
  refine List.isChain_cons.2 ⟨fun above habove t h => hnames above habove t ?_, hrest⟩
  rw [← filter_trimEnd]
  exact above_filter_stays start _ t h

/-! ## Making them -/

/-- A directory that is there need not be made. -/
theorem makeFirst_of_isDirAt (h : t.isDirAt start parts = true) (above : List (List String)) :
    makeFirst start (parts :: above) t = (.ok (), t) := by
  obtain ⟨path, entries, hwalk⟩ := isDirAt_iff.1 h
  simp [makeFirst, makeDir, hwalk, h]

/-- A directory is left out where nothing but a directory would do, or because one above it is. -/
theorem makeFirst_eq_error {above : List (List String)}
    (h : makeFirst start (parts :: above) t = (.error fault, t')) :
    t'.isDirAt start parts = false ∨ makeFirst start above t = (.error fault, t') := by
  have hlast {made : FileTree} {fault' : FileFault}
      (h : (if made.isDirAt start parts then (Except.ok (), made) else (.error fault', made)) =
        (Except.error fault, t')) : t'.isDirAt start parts = false := by
    split at h
    · cases h
    · rename_i hno
      cases h
      simpa using hno
  rw [makeFirst] at h
  split at h
  · cases h
  · split at h
    · rename_i hfirst
      rw [← h]
      exact Or.inr hfirst
    · split at h
      · cases h
      · exact Or.inl (hlast h)
  · exact Or.inl (hlast h)

/-- A directory that cannot be made is not there afterwards. -/
theorem isDirAt_of_makeFirst_error {above : List (List String)}
    (hchain : (parts :: above).IsChain (Above start))
    (h : makeFirst start (parts :: above) t = (.error fault, t')) :
    t'.isDirAt start parts = false := by
  induction above generalizing parts with
  | nil =>
    rcases makeFirst_eq_error h with hno | hfirst
    · exact hno
    · cases hfirst
  | cons next rest ih =>
    rcases makeFirst_eq_error h with hno | hfirst
    · exact hno
    · -- a way to the directory would pass through the one above it
      obtain ⟨habove, hrest⟩ := List.isChain_cons_cons.1 hchain
      rw [← Bool.not_eq_true]
      intro hdir
      have hnext := habove t' hdir
      rw [ih hrest hfirst] at hnext
      cases hnext

theorem current_makeDir (h : t.makeDir start parts = .ok t') : t'.current = t.current := by
  unfold makeDir at h
  split at h
  · cases h
  · cases h
  · split at h
    · cases h
    · cases h
      exact current_put t _ _

/-- Relative paths start where they did, whatever directories are made. -/
theorem current_makeFirst (start : List String) (tried : List (List String)) (t : FileTree) :
    (makeFirst start tried t).2.current = t.current := by
  induction tried generalizing t with
  | nil => rfl
  | cons parts above ih =>
    rw [makeFirst]
    split
    · rename_i hmade
      exact current_makeDir hmade
    · have habove := ih t
      split
      · rename_i hfirst
        rw [hfirst] at habove
        exact habove
      · rename_i hfirst
        rw [hfirst] at habove
        split
        · rename_i hmade
          exact (current_makeDir hmade).trans habove
        · split <;> exact habove
    · split <;> rfl

/-! ## Directories and what is below them -/

variable {path : List String} {entries : List (String × FileNode)}

theorem trimEnd_parts_of_slash (front : String) :
    trimEnd (Path.parts (front ++ "/")) = trimEnd (Path.parts front) := by
  rw [parts_of_slash, trimEnd, List.reverse_append, List.reverse_singleton, List.singleton_append,
    List.dropWhile_cons_of_pos (by simp), ← trimEnd]

/-- A path below which there is a directory leads to it, also without what is cut off at its end. -/
theorem Opens.isDirAt (h : t.Opens base path entries) (hname : IsName name) (hbase : base ≠ "") :
    t.isDirAt (t.start base) (trimEnd (Path.parts base)) = true := by
  obtain ⟨hempty, -⟩ | ⟨front, -, -, hsteps, hfront⟩ := join_cases base hname
  · exact absurd hempty hbase
  · have htrim : trimEnd (Path.parts base) = trimEnd (Path.parts front) := by
      rcases hfront with rfl | rfl
      · rfl
      · exact trimEnd_parts_of_slash front
    obtain ⟨stays, hparts, hstays⟩ := trimEnd_append (Path.parts front)
    rw [Opens, hsteps, hparts] at h
    rw [htrim]
    exact isDirAt_iff.2 ⟨path, entries, walk_of_append_stays hstays h⟩

/-- Where names below the base can be used, making the base is making the first of its ancestors. -/
theorem makeDirs_eq_makeFirst (t : FileTree) (hname : IsName name) (hbase : base ≠ "")
    (hcheck : checkPath (join base name) = .ok ()) :
    t.makeDirs base = makeFirst (t.start base) (ancestors base) t := by
  rw [makeDirs, if_neg hbase, checkPath_of_join hname hbase hcheck]

/-- Where a name is looked for in a directory, making that directory does nothing. -/
theorem makeDirs_of_opens (h : t.Opens base path entries) (hname : IsName name)
    (hcheck : checkPath (join base name) = .ok ()) : t.makeDirs base = (.ok (), t) := by
  by_cases hbase : base = ""
  · rw [makeDirs, if_pos hbase]
  · rw [makeDirs_eq_makeFirst t hname hbase hcheck]
    exact makeFirst_of_isDirAt (h.isDirAt hname hbase) _

/-- Below a directory that cannot be made there is nothing, neither before nor after those above it
were made. -/
theorem node?_of_makeDirs_error (hname : IsName name)
    (h : t.makeDirs base = (.error fault, t')) :
    t.node? (join base name) = none ∧ t'.node? (join base name) = none := by
  refine ⟨Option.eq_none_iff_forall_ne_some.2 fun node hnode => ?_,
    Option.eq_none_iff_forall_ne_some.2 fun node hnode => ?_⟩
  · obtain ⟨hcheck, path, entries, hopen⟩ := exists_opens_of_node? hname hnode
    rw [makeDirs_of_opens hopen hname hcheck] at h
    cases h
  · obtain ⟨hcheck, path, entries, hopen⟩ := exists_opens_of_node? hname hnode
    by_cases hbase : base = ""
    · rw [makeDirs, if_pos hbase] at h
      cases h
    · rw [makeDirs_eq_makeFirst t hname hbase hcheck] at h
      have hcurrent := current_makeFirst (t.start base) (ancestors base) t
      have hno := isDirAt_of_makeFirst_error (isChain_ancestors (t.start base) base) h
      -- the tree in which the directory would be starts the path where the first one does
      rw [h] at hcurrent
      have hstart : t'.start base = t.start base := by rw [start, start, hcurrent]
      have hdir := hopen.isDirAt hname hbase
      rw [hstart, hno] at hdir
      cases hdir

end FileTree

end QuorumKeeper
