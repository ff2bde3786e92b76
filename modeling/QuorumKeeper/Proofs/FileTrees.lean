import QuorumKeeper.Files.Tree
import Mathlib.Data.List.Basic

/-!
# Laws of file trees

A file that is put into a directory is found there, and nothing else below that directory's path
changes (`FileTree.Opens.put`). The path may run through any parts, also through points that lead
back up: what it passes on its way are directories, and a new file leaves every directory where it
was (`FileNode.extends_put`).

`Path.IsName` says of a text that it names an entry of a directory. `FileTree.wrote_of_tryWrite` and
`FileTree.node?_setMode` are what the proofs about stored files use: they say all that a write and a
change of mode can do, whatever the system denies.
-/

set_option autoImplicit false

namespace QuorumKeeper

namespace Path

/-! ## Names below a path -/

/-- The text names an entry of a directory. -/
structure IsName (name : String) : Prop where
  noSlash : '/' ∉ name.toList
  stays : isStay name = false
  notUp : name ≠ ".."
  short : name.utf8ByteSize ≤ maxNameSize

/-- The parts to follow before a name below the path. -/
def steps (base : String) : List String :=
  if base = "" then [] else if endsInSlash base then (parts base).dropLast else parts base

/-- Splitting at slashes gives one part at least. -/
theorem splitSlashes_ne_nil (cs : List Char) : splitSlashes cs ≠ [] := by
  induction cs with
  | nil => simp [splitSlashes]
  | cons c rest ih =>
    unfold splitSlashes
    split
    · simp
    · split <;> simp

/-- A slash separates the parts before it from those after it. -/
theorem splitSlashes_append_slash (cs ds : List Char) :
    splitSlashes (cs ++ '/' :: ds) = splitSlashes cs ++ splitSlashes ds := by
  induction cs with
  | nil => simp [splitSlashes]
  | cons c rest ih =>
    by_cases hc : c = '/'
    · simp [splitSlashes, hc, ih]
    · obtain ⟨part, others, hsplit⟩ := List.exists_cons_of_ne_nil (splitSlashes_ne_nil rest)
      simp [splitSlashes, hc, ih, hsplit]

/-- A text without slashes is one part. -/
theorem splitSlashes_of_noSlash {cs : List Char} (h : '/' ∉ cs) : splitSlashes cs = [cs] := by
  induction cs with
  | nil => rfl
  | cons c rest ih =>
    rw [List.mem_cons, not_or] at h
    rw [splitSlashes, if_neg (Ne.symm h.1), ih h.2]

variable {base name : String}

theorem IsName.ne_empty (h : IsName name) : name ≠ "" := by
  rintro rfl
  cases h.stays

/-- A name is a path of one part. -/
theorem IsName.parts_eq (h : IsName name) : parts name = [name] := by
  rw [parts, splitSlashes_of_noSlash h.noSlash]
  simp

/-- A name is a relative path. -/
theorem IsName.isAbsolute_eq (h : IsName name) : isAbsolute name = false := by
  have hslash := h.noSlash
  unfold isAbsolute
  cases hname : name.toList with
  | nil => rfl
  | cons c rest =>
    rw [hname, List.mem_cons, not_or] at hslash
    simpa using Ne.symm hslash.1

theorem parts_append_slash (base name : String) :
    parts (base ++ "/" ++ name) = parts base ++ parts name := by
  simp [parts, splitSlashes_append_slash]

theorem exists_of_endsInSlash (h : endsInSlash base = true) : ∃ front, base = front ++ "/" := by
  rw [endsInSlash, beq_iff_eq, List.getLast?_eq_some_iff] at h
  obtain ⟨front, hfront⟩ := h
  exact ⟨String.ofList front, String.toList_injective (by simp [hfront])⟩

theorem parts_of_slash (front : String) : parts (front ++ "/") = parts front ++ [""] := by
  have hsplit := parts_append_slash front ""
  simpa [parts, splitSlashes] using hsplit

/-- A path below a base that does not end in a slash gets one; else there is one already. -/
theorem join_cases (base : String) (h : IsName name) :
    (base = "" ∧ join base name = name ∧ steps base = []) ∨
      ∃ front, base ≠ "" ∧ join base name = front ++ "/" ++ name ∧ steps base = parts front ∧
        (base = front ∨ base = front ++ "/") := by
  unfold join steps
  rw [if_neg (by simp [h.isAbsolute_eq])]
  by_cases hempty : base = ""
  · exact Or.inl (by simp [hempty])
  · right
    cases hslash : endsInSlash base with
    | true =>
      obtain ⟨front, rfl⟩ := exists_of_endsInSlash hslash
      refine ⟨front, hempty, by simp [hempty], ?_, Or.inr rfl⟩
      simp [hempty, parts_of_slash]
    | false => exact ⟨base, hempty, by simp [hempty], by simp [hempty], Or.inl rfl⟩

/-- What stands before a name in its path below the base. -/
def stem (base : String) : String :=
  if base = "" || endsInSlash base then base else base ++ "/"

theorem join_eq_stem_append (base : String) (h : IsName name) :
    join base name = stem base ++ name := by
  unfold join stem
  rw [if_neg (by simp [h.isAbsolute_eq])]
  split <;> rfl

theorem exists_stem_eq (base : String) : ∃ rest, stem base = base ++ rest := by
  unfold stem
  split
  · exact ⟨"", by simp⟩
  · exact ⟨"/", rfl⟩

/-- The path of a name below the base goes through the steps of the base and ends in the name. -/
theorem parts_join (base : String) (h : IsName name) :
    parts (join base name) = steps base ++ [name] := by
  rcases join_cases base h with ⟨-, hjoin, hsteps⟩ | ⟨front, -, hjoin, hsteps, -⟩
  · rw [hjoin, hsteps, h.parts_eq, List.nil_append]
  · rw [hjoin, hsteps, parts_append_slash, h.parts_eq]

theorem isAbsolute_append {front : String} (h : front ≠ "") (rest : String) :
    isAbsolute (front ++ rest) = isAbsolute front := by
  obtain ⟨c, cs, hfront⟩ := List.exists_cons_of_ne_nil (fun h' => h (String.toList_eq_nil_iff.1 h'))
  simp [isAbsolute, hfront]

/-- A path below the base starts where the base does. -/
theorem isAbsolute_join (base : String) (h : IsName name) :
    isAbsolute (join base name) = isAbsolute base := by
  rcases join_cases base h with ⟨rfl, hjoin, -⟩ | ⟨front, hbase, hjoin, -, rfl | rfl⟩
  · rw [hjoin, h.isAbsolute_eq]
    rfl
  · rw [hjoin, String.append_assoc, isAbsolute_append hbase]
  · rw [hjoin, isAbsolute_append hbase]

theorem endsInSlash_append (front : String) (h : IsName name) :
    endsInSlash (front ++ name) = false := by
  have hname : name.toList ≠ [] := fun h' => h.ne_empty (String.toList_eq_nil_iff.1 h')
  rw [endsInSlash, String.toList_append, List.getLast?_append_of_ne_nil _ hname, beq_eq_false_iff_ne]
  exact fun hlast => h.noSlash (List.mem_of_getLast? hlast)

/-- The path of a name does not end in a slash. -/
theorem endsInSlash_join (base : String) (h : IsName name) :
    endsInSlash (join base name) = false := by
  rcases join_cases base h with ⟨-, hjoin, -⟩ | ⟨front, -, hjoin, -, -⟩
  · simpa [hjoin] using endsInSlash_append "" h
  · rw [hjoin]
    exact endsInSlash_append _ h

end Path

/-! ## Nodes -/

namespace FileNode

variable {entries : List (String × FileNode)} {name other : String} {node : FileNode}

theorem lookup_cons_of_ne (h : other ≠ name) :
    List.lookup other ((name, node) :: entries) = entries.lookup other := by
  rw [List.lookup_cons, beq_eq_false_iff_ne.2 h]

/-- An entry that was set is found under its name. -/
theorem lookup_setEntry_self (name : String) (node : FileNode)
    (entries : List (String × FileNode)) :
    (setEntry name node entries).lookup name = some node := by
  induction entries with
  | nil => exact List.lookup_cons_self
  | cons e rest ih =>
    obtain ⟨key, value⟩ := e
    by_cases hkey : key = name
    · rw [setEntry, if_pos hkey, List.lookup_cons_self]
    · rw [setEntry, if_neg hkey, lookup_cons_of_ne (Ne.symm hkey), ih]

/-- Setting an entry leaves those under other names alone. -/
theorem lookup_setEntry_of_ne (h : other ≠ name) (node : FileNode)
    (entries : List (String × FileNode)) :
    (setEntry name node entries).lookup other = entries.lookup other := by
  induction entries with
  | nil => exact lookup_cons_of_ne h
  | cons e rest ih =>
    obtain ⟨key, value⟩ := e
    by_cases hkey : key = name
    · rw [setEntry, if_pos hkey, ← hkey, lookup_cons_of_ne (hkey ▸ h), lookup_cons_of_ne (hkey ▸ h)]
    · rw [setEntry, if_neg hkey, List.lookup_cons, List.lookup_cons, ih]

/-- A way into a directory goes through one of its entries. -/
theorem get?_cons_dir (name : String) (rest : List String) (entries : List (String × FileNode)) :
    get? (name :: rest) (dir entries) = (entries.lookup name).bind (get? rest) := by
  rw [get?]
  cases entries.lookup name with
  | none => rfl
  | some child => rfl

theorem get?_file {path : List String} {content : List UInt8} {mode : Nat}
    (h : get? path (file content mode) = some node) : node = file content mode := by
  cases path with
  | nil => exact (Option.some.inj h).symm
  | cons name rest => cases h

/-- Where a directory is reached, the way to it begins with a directory. -/
theorem exists_entries_of_get? {name : String} {rest : List String} {root : FileNode}
    (h : get? (name :: rest) root = some node) :
    ∃ entries child, root = dir entries ∧ entries.lookup name = some child ∧
      get? rest child = some node := by
  cases root with
  | file content mode => cases h
  | dir entries =>
    rw [get?_cons_dir, Option.bind_eq_some_iff] at h
    obtain ⟨child, hchild, hrest⟩ := h
    exact ⟨entries, child, rfl, hchild, hrest⟩

/-- At the end of a way to a directory, one more name leads to its entry. -/
theorem get?_append_name {path : List String} {root : FileNode} (name : String)
    (h : get? path root = some (dir entries)) : get? (path ++ [name]) root = entries.lookup name := by
  induction path generalizing root with
  | nil =>
    obtain rfl : root = dir entries := Option.some.inj h
    rw [List.nil_append, get?_cons_dir]
    cases entries.lookup name with
    | none => rfl
    | some child => rfl
  | cons step rest ih =>
    obtain ⟨es, child, rfl, hchild, hrest⟩ := exists_entries_of_get? h
    rw [List.cons_append, get?_cons_dir, hchild]
    exact ih hrest

/-- What is put below an entry changes that entry alone. -/
theorem put_cons_dir {rest : List String} {child : FileNode} (new : FileNode)
    (h : entries.lookup name = some child) :
    put new (name :: rest) (dir entries) = dir (setEntry name (put new rest child) entries) := by
  rw [put, h]
  rfl

theorem put_name (new : FileNode) (name : String) (entries : List (String × FileNode)) :
    put new [name] (dir entries) = dir (setEntry name new entries) := by
  simp [put]

/-- What is put into a directory becomes an entry of it. -/
theorem get?_put {path : List String} {root : FileNode} (new : FileNode) (name : String)
    (h : get? path root = some (dir entries)) :
    get? path (put new (path ++ [name]) root) = some (dir (setEntry name new entries)) := by
  induction path generalizing root with
  | nil =>
    obtain rfl : root = dir entries := Option.some.inj h
    rw [List.nil_append, put_name]
    rfl
  | cons step rest ih =>
    obtain ⟨es, child, rfl, hchild, hrest⟩ := exists_entries_of_get? h
    rw [List.cons_append, put_cons_dir new hchild, get?_cons_dir, lookup_setEntry_self]
    exact ih hrest

/-- Every directory of the first tree is one of the second, with at least the same names. -/
def Extends (old new : FileNode) : Prop :=
  ∀ path entries, get? path old = some (dir entries) →
    ∃ entries', get? path new = some (dir entries') ∧
      ∀ name, (entries.lookup name).isSome → (entries'.lookup name).isSome

/-- An entry may be replaced by one that extends it. -/
theorem extends_setEntry {new : FileNode}
    (h : ∀ child, entries.lookup name = some child → child.Extends new) :
    (dir entries).Extends (dir (setEntry name new entries)) := by
  intro path es hes
  cases path with
  | nil =>
    obtain rfl : entries = es := dir.inj (Option.some.inj hes)
    refine ⟨_, rfl, fun other hother => ?_⟩
    by_cases heq : other = name
    · rw [heq, lookup_setEntry_self]
      rfl
    · rwa [lookup_setEntry_of_ne heq]
  | cons step rest =>
    rw [get?_cons_dir, Option.bind_eq_some_iff] at hes
    obtain ⟨child, hchild, hrest⟩ := hes
    by_cases heq : step = name
    · rw [heq] at hchild ⊢
      rw [get?_cons_dir, lookup_setEntry_self]
      exact h child hchild rest es hrest
    · rw [get?_cons_dir, lookup_setEntry_of_ne heq, hchild]
      exact ⟨es, hrest, fun _ hother => hother⟩

/-- A file has no directories that could be lost. -/
theorem file_extends (content : List UInt8) (mode : Nat) (new : FileNode) :
    (file content mode).Extends new := by
  intro path es hes
  cases get?_file hes

/-- A file that takes the place of no directory leaves all directories where they were. -/
theorem extends_put {path : List String} {root : FileNode}
    (h : get? path root = some (dir entries)) (hfile : ∀ es, entries.lookup name ≠ some (dir es))
    (content : List UInt8) (mode : Nat) :
    root.Extends (put (file content mode) (path ++ [name]) root) := by
  induction path generalizing root with
  | nil =>
    obtain rfl : root = dir entries := Option.some.inj h
    rw [List.nil_append, put_name]
    refine extends_setEntry fun child hchild => ?_
    -- no directory had stood under the name, so none is lost there
    cases child with
    | file content' mode' => exact file_extends content' mode' _
    | dir es => exact absurd hchild (hfile es)
  | cons step rest ih =>
    obtain ⟨es, child, rfl, hchild, hrest⟩ := exists_entries_of_get? h
    rw [List.cons_append, put_cons_dir _ hchild]
    refine extends_setEntry fun child' hchild' => ?_
    obtain rfl : child = child' := Option.some.inj (hchild.symm.trans hchild')
    exact ih hrest

/-! ## Following a path -/

/-- One more part leads on from a directory with these entries: it stays where it is, leads up, or
names an entry. -/
inductive Stride (entries : List (String × FileNode)) (names : List String) (part : String) :
    List String → Prop where
  | stay (stays : Path.isStay part = true) : Stride entries names part names
  | up (stays : Path.isStay part = false) (up : part = "..") :
      Stride entries names part names.dropLast
  | into (stays : Path.isStay part = false) (up : part ≠ "..")
      (short : part.utf8ByteSize ≤ maxNameSize) (taken : (entries.lookup part).isSome) :
      Stride entries names part (names ++ [part])

variable {root : FileNode} {names names' parts path : List String} {part : String}

/-- More entries do not keep a part from leading on. -/
theorem Stride.mono {entries' : List (String × FileNode)} (h : Stride entries names part names')
    (hmore : ∀ name, (entries.lookup name).isSome → (entries'.lookup name).isSome) :
    Stride entries' names part names' := by
  cases h with
  | stay stays => exact .stay stays
  | up stays up => exact .up stays up
  | into stays up short taken => exact .into stays up short (hmore part taken)

/-- A part that leads on from a directory can be taken off the way. -/
theorem Stride.walk_eq (h : Stride entries names part names')
    (hdir : root.get? names = some (dir entries)) (rest : List String) :
    root.walk names (part :: rest) = root.walk names' rest := by
  rw [walk]
  cases h with
  | stay stays => simp [hdir, stays]
  | up stays up =>
    subst up
    simp [hdir, stays]
  | into stays up short taken => simp [hdir, stays, up, Nat.not_lt.2 short, taken]

/-- A walk that gets somewhere takes its first part from a directory. It goes on from there, or it
ends at a name that the directory does not have. -/
theorem walk_cons_cases {rest : List String} {place : Place}
    (h : root.walk names (part :: rest) = .ok place) :
    ∃ entries, root.get? names = some (dir entries) ∧
      ((∃ names', Stride entries names part names') ∨
        (rest = [] ∧ place = .free (names ++ [part]) ∧ entries.lookup part = none)) := by
  rw [walk] at h
  split at h
  · cases h
  · cases h
  · rename_i entries hdir
    refine ⟨entries, hdir, ?_⟩
    split at h
    · rename_i stays
      exact Or.inl ⟨_, .stay stays⟩
    rename_i stays
    rw [Bool.not_eq_true] at stays
    split at h
    · rename_i up
      exact Or.inl ⟨_, .up stays up⟩
    rename_i up
    split at h
    · cases h
    rename_i short
    split at h
    · rename_i taken
      exact Or.inl ⟨_, .into stays up (Nat.not_lt.1 short) taken⟩
    rename_i free
    split at h
    · rename_i last
      cases h
      exact Or.inr ⟨List.isEmpty_iff.1 last, rfl, Option.not_isSome_iff_eq_none.1 free⟩
    · cases h

/-- A way without parts ends where it starts. -/
theorem walk_nil_eq_ok_iff {place : Place} :
    root.walk names [] = .ok place ↔ ∃ node, root.get? names = some node ∧ place = .taken names node := by
  rw [walk]
  split
  · rename_i node hnode
    simp [hnode, eq_comm]
  · rename_i hnone
    simp [hnone]

/-- A last part that the directory does not have leads to a free name. -/
theorem walk_free (hdir : root.get? names = some (dir entries)) (stays : Path.isStay part = false)
    (up : part ≠ "..") (short : part.utf8ByteSize ≤ maxNameSize)
    (free : entries.lookup part = none) : root.walk names [part] = .ok (.free (names ++ [part])) := by
  rw [walk]
  simp [hdir, stays, up, Nat.not_lt.2 short, free]

/-- Parts that lead to a node are followed before those after them. -/
theorem walk_append (h : root.walk names parts = .ok (.taken path node)) (rest : List String) :
    root.walk names (parts ++ rest) = root.walk path rest := by
  induction parts generalizing names with
  | nil =>
    obtain ⟨node', -, heq⟩ := walk_nil_eq_ok_iff.1 h
    cases heq
    rfl
  | cons part others ih =>
    obtain ⟨entries, hdir, ⟨names', hstride⟩ | ⟨-, heq, -⟩⟩ := walk_cons_cases h
    · rw [List.cons_append, hstride.walk_eq hdir]
      exact ih ((hstride.walk_eq hdir others).symm.trans h)
    · cases heq

/-- Before its last part, a walk that gets somewhere has come to a directory. -/
theorem walk_before_last {last : String} {place : Place}
    (h : root.walk names (parts ++ [last]) = .ok place) :
    ∃ path entries, root.walk names parts = .ok (.taken path (dir entries)) := by
  induction parts generalizing names with
  | nil =>
    obtain ⟨entries, hdir, -⟩ := walk_cons_cases h
    exact ⟨names, entries, walk_nil_eq_ok_iff.2 ⟨_, hdir, rfl⟩⟩
  | cons part others ih =>
    obtain ⟨entries, hdir, ⟨names', hstride⟩ | ⟨hrest, -⟩⟩ := walk_cons_cases h
    · rw [hstride.walk_eq hdir]
      exact ih ((hstride.walk_eq hdir _).symm.trans h)
    · simp at hrest

/-- A way that leads to a node leads to what stands at its names. -/
theorem get?_of_walk (h : root.walk names parts = .ok (.taken path node)) :
    root.get? path = some node := by
  induction parts generalizing names with
  | nil =>
    obtain ⟨node', hnode, heq⟩ := walk_nil_eq_ok_iff.1 h
    cases heq
    exact hnode
  | cons part others ih =>
    obtain ⟨entries, hdir, ⟨names', hstride⟩ | ⟨-, heq, -⟩⟩ := walk_cons_cases h
    · exact ih ((hstride.walk_eq hdir _).symm.trans h)
    · cases heq

/-- The way to a directory is open in every tree that extends the first one. -/
theorem Extends.walk {new : FileNode} (hext : root.Extends new)
    (h : root.walk names parts = .ok (.taken path (dir entries))) :
    ∃ entries', new.walk names parts = .ok (.taken path (dir entries')) := by
  induction parts generalizing names with
  | nil =>
    obtain ⟨node', hnode, heq⟩ := walk_nil_eq_ok_iff.1 h
    cases heq
    obtain ⟨entries', hentries', -⟩ := hext path entries hnode
    exact ⟨entries', walk_nil_eq_ok_iff.2 ⟨_, hentries', rfl⟩⟩
  | cons part others ih =>
    obtain ⟨es, hdir, ⟨names', hstride⟩ | ⟨-, heq, -⟩⟩ := walk_cons_cases h
    · -- a directory of the old tree lets the same part through in the new one
      obtain ⟨es', hdir', hmore⟩ := hext names es hdir
      rw [(hstride.mono hmore).walk_eq hdir']
      exact ih ((hstride.walk_eq hdir _).symm.trans h)
    · cases heq

end FileNode

/-! ## Files in a directory -/

namespace FileTree

open QuorumKeeper.Path FileNode

/-- The path leads to the directory at these names, which has these entries. -/
def Opens (t : FileTree) (base : String) (path : List String)
    (entries : List (String × FileNode)) : Prop :=
  t.root.walk (t.start base) (steps base) = .ok (.taken path (.dir entries))

/-- Below the base, the second tree differs from the first at most under the name. -/
def AgreesExcept (t t' : FileTree) (base name : String) : Prop :=
  ∀ other, IsName other → other ≠ name → t'.node? (join base other) = t.node? (join base other)

/-- What is put below the root is put into it. -/
theorem root_put (t : FileTree) {names : List String} (node : FileNode) (h : names ≠ []) :
    (t.put names node).root = FileNode.put node names t.root := by
  obtain ⟨name, rest, rfl⟩ := List.exists_cons_of_ne_nil h
  rfl

/-- Relative paths start where they did, whatever is put into the tree. -/
theorem current_put (t : FileTree) (names : List String) (node : FileNode) :
    (t.put names node).current = t.current := by
  unfold FileTree.put
  split <;> rfl

variable {t t' : FileTree} {base name : String} {path : List String}
  {entries : List (String × FileNode)} {content : List UInt8} {mode : Nat}

/-- A name below the base is looked for at the end of the base's steps. -/
theorem place_join (t : FileTree) (hname : IsName name) (hcheck : checkPath (join base name) = .ok ()) :
    t.place (join base name) = t.root.walk (t.start base) (steps base ++ [name]) := by
  rw [place, hcheck, parts_join base hname, start, isAbsolute_join base hname]
  rfl

/-- A path can be used if it is neither empty nor too long and has no character with code zero. -/
theorem checkPath_eq_ok_iff {p : String} :
    checkPath p = .ok () ↔ '\x00' ∉ p.toList ∧ p ≠ "" ∧ p.utf8ByteSize ≤ maxPathSize := by
  unfold checkPath
  split
  · simp_all
  · split
    · simp_all
    · split
      · simp_all
      · simp_all

/-- Where a name can be used below the base, the base can be used. -/
theorem checkPath_of_join (hname : IsName name) (hbase : base ≠ "")
    (h : checkPath (join base name) = .ok ()) : checkPath base = .ok () := by
  obtain ⟨rest, hstem⟩ := exists_stem_eq base
  rw [join_eq_stem_append base hname, hstem, checkPath_eq_ok_iff] at h
  obtain ⟨hclean, -, hshort⟩ := h
  simp only [String.toList_append, List.mem_append, not_or, String.utf8ByteSize_append] at hclean hshort
  exact checkPath_eq_ok_iff.2 ⟨hclean.1.1, hbase, by omega⟩

theorem node?_of_checkPath {p : String} {fault : FileFault} (h : checkPath p = .error fault) :
    t.node? p = none := by
  rw [node?, place, h]

/-- The place of what is at a path. -/
theorem exists_place_of_node? {p : String} {node : FileNode} (h : t.node? p = some node) :
    ∃ names, t.place p = .ok (.taken names node) := by
  unfold node? at h
  split at h
  · rename_i names node' hplace
    obtain rfl := Option.some.inj h
    exact ⟨names, hplace⟩
  · cases h

/-- A name below the base that leads anywhere lies in a directory. -/
theorem exists_opens (hname : IsName name) {p : Place} (h : t.place (join base name) = .ok p) :
    checkPath (join base name) = .ok () ∧ ∃ path entries, t.Opens base path entries := by
  have hcheck : checkPath (join base name) = .ok () := by
    cases hcheck : checkPath (join base name) with
    | ok u => rfl
    | error fault =>
      rw [place, hcheck] at h
      cases h
  rw [place_join t hname hcheck] at h
  exact ⟨hcheck, walk_before_last h⟩

namespace Opens

/-- A name that the directory has leads to its entry. -/
theorem place_of_some (h : t.Opens base path entries) (hname : IsName name)
    (hcheck : checkPath (join base name) = .ok ()) {node : FileNode}
    (hentry : entries.lookup name = some node) :
    t.place (join base name) = .ok (.taken (path ++ [name]) node) := by
  have hdir := get?_of_walk h
  have hstride : Stride entries path name (path ++ [name]) :=
    .into hname.stays hname.notUp hname.short (by rw [hentry]; rfl)
  rw [place_join t hname hcheck, walk_append h, hstride.walk_eq hdir]
  exact walk_nil_eq_ok_iff.2 ⟨node, (get?_append_name name hdir).trans hentry, rfl⟩

/-- A name that the directory does not have is free. -/
theorem place_of_none (h : t.Opens base path entries) (hname : IsName name)
    (hcheck : checkPath (join base name) = .ok ()) (hentry : entries.lookup name = none) :
    t.place (join base name) = .ok (.free (path ++ [name])) := by
  rw [place_join t hname hcheck, walk_append h]
  exact walk_free (get?_of_walk h) hname.stays hname.notUp hname.short hentry

/-- Below a path that is open, names are those of the directory. -/
theorem node?_join (h : t.Opens base path entries) (hname : IsName name)
    (hcheck : checkPath (join base name) = .ok ()) :
    t.node? (join base name) = entries.lookup name := by
  cases hentry : entries.lookup name with
  | none => rw [node?, h.place_of_none hname hcheck hentry]
  | some node => rw [node?, h.place_of_some hname hcheck hentry]

/-- A file that takes the place of no directory leaves the path open. -/
theorem put (h : t.Opens base path entries) (hfile : ∀ es, entries.lookup name ≠ some (.dir es))
    (content : List UInt8) (mode : Nat) :
    (t.put (path ++ [name]) (.file content mode)).Opens base path
      (setEntry name (.file content mode) entries) := by
  have hdir := get?_of_walk h
  have hroot : (t.put (path ++ [name]) (.file content mode)).root =
      FileNode.put (.file content mode) (path ++ [name]) t.root := root_put t _ (by simp)
  have hstart : (t.put (path ++ [name]) (.file content mode)).start base = t.start base := by
    rw [start, start, current_put]
  obtain ⟨entries', hwalk⟩ := (extends_put hdir hfile content mode).walk h
  have hentries := (get?_of_walk hwalk).symm.trans (get?_put _ name hdir)
  cases hentries
  rw [Opens, hroot, hstart]
  exact hwalk

/-- A file that is put into the directory is found there, and nothing else below the path
changes. -/
theorem node?_put (h : t.Opens base path entries) (hname : IsName name)
    (hcheck : checkPath (join base name) = .ok ())
    (hfile : ∀ es, entries.lookup name ≠ some (.dir es)) (content : List UInt8) (mode : Nat) :
    (t.put (path ++ [name]) (.file content mode)).node? (join base name) =
        some (.file content mode) ∧
      t.AgreesExcept (t.put (path ++ [name]) (.file content mode)) base name := by
  have hput := h.put hfile content mode
  refine ⟨?_, fun other hother hne => ?_⟩
  · rw [hput.node?_join hname hcheck, lookup_setEntry_self]
  · cases hcheck' : checkPath (join base other) with
    | error fault => rw [node?_of_checkPath hcheck', node?_of_checkPath hcheck']
    | ok u =>
      rw [hput.node?_join hother hcheck', h.node?_join hother hcheck', lookup_setEntry_of_ne hne]

end Opens

/-! ## Changing a file -/

/-- What a write does under a name: nothing, or it leaves a file there with the whole content or,
if the system stops it, with a beginning of that. Nothing else below the base changes. -/
inductive Wrote (t t' : FileTree) (base name : String) (content : List UInt8) (mode : Nat) :
    Except FileFault Unit → Prop where
  | nothing (same : t' = t) (fault : FileFault) : Wrote t t' base name content mode (.error fault)
  | whole (node : t'.node? (join base name) = some (.file content mode))
      (others : t.AgreesExcept t' base name) : Wrote t t' base name content mode (.ok ())
  | part {kept : List UInt8} (order : kept <+: content) (short : kept ≠ content)
      (node : t'.node? (join base name) = some (.file kept mode))
      (others : t.AgreesExcept t' base name) (why : Denial) :
      Wrote t t' base name content mode (.error (.denied why))

/-- What the obstacle at a file lets through of a write. -/
theorem wrote_of_fill (h : t.Opens base path entries) (hname : IsName name)
    (hcheck : checkPath (join base name) = .ok ())
    (hfile : ∀ es, entries.lookup name ≠ some (.dir es)) {answer : Except FileFault Unit}
    (hfill : t.fill (path ++ [name]) mode content = (answer, t')) :
    Wrote t t' base name content mode answer := by
  have hput (kept : List UInt8) := h.node?_put hname hcheck hfile kept mode
  unfold fill at hfill
  split at hfill
  · cases hfill
    exact .nothing rfl _
  · rename_i room why hfull
    split at hfill
    · cases hfill
      exact .whole (hput content).1 (hput content).2
    · rename_i hroom
      cases hfill
      refine .part (List.take_prefix room content) (fun hall => hroom ?_) (hput _).1 (hput _).2 why
      rw [← hall, List.length_take]
      exact Nat.min_le_left _ _
  · cases hfill
    exact .whole (hput content).1 (hput content).2

theorem mode?_file {p : String} (h : t.node? p = some (.file content mode)) :
    t.mode? p = some mode := by
  rw [mode?, h]
  rfl

/-- A write to a name below the base. A file that was there keeps its mode. -/
theorem wrote_of_tryWrite (hname : IsName name) {answer : Except FileFault Unit}
    (h : t.tryWrite (join base name) content = (answer, t')) :
    Wrote t t' base name content ((t.mode? (join base name)).getD plainMode) answer := by
  rw [tryWrite, if_neg (by simp [endsInSlash_join base hname])] at h
  cases hplace : t.place (join base name) with
  | error fault =>
    rw [hplace] at h
    cases h
    exact .nothing rfl fault
  | ok p =>
    obtain ⟨hcheck, path, entries, hopens⟩ := exists_opens hname hplace
    rw [hplace] at h
    have hnode := hopens.node?_join hname hcheck
    cases hentry : entries.lookup name with
    | none =>
      obtain rfl := Except.ok.inj (hplace.symm.trans (hopens.place_of_none hname hcheck hentry))
      have hmode : t.mode? (join base name) = none := by rw [mode?, hnode, hentry]; rfl
      rw [hmode]
      exact wrote_of_fill hopens hname hcheck (by simp [hentry]) h
    | some node =>
      obtain rfl := Except.ok.inj (hplace.symm.trans (hopens.place_of_some hname hcheck hentry))
      cases node with
      | dir es =>
        cases h
        exact .nothing rfl _
      | file old mode =>
        rw [mode?_file (hnode.trans hentry)]
        exact wrote_of_fill hopens hname hcheck (by simp [hentry]) h

/-- Setting the mode of a file keeps its content and all else below the base, unless the system
denies it. -/
theorem node?_setMode (hname : IsName name) (mode : Nat) {old : Nat}
    (hnode : t.node? (join base name) = some (.file content old)) :
    (∃ t', t.setMode (join base name) mode = .ok t' ∧
      t'.node? (join base name) = some (.file content mode) ∧ t.AgreesExcept t' base name) ∨
    ∃ why, t.setMode (join base name) mode = .error (.denied why) := by
  obtain ⟨names, hplace⟩ := exists_place_of_node? hnode
  obtain ⟨hcheck, path, entries, hopens⟩ := exists_opens hname hplace
  have hentry := (hopens.node?_join hname hcheck).symm.trans hnode
  obtain rfl : path ++ [name] = names := by
    have hsame := hplace.symm.trans (hopens.place_of_some hname hcheck hentry)
    cases hsame
    rfl
  simp only [setMode, hplace]
  split
  · exact Or.inr ⟨_, rfl⟩
  · exact Or.inl ⟨_, rfl, hopens.node?_put hname hcheck (by simp [hentry]) content mode⟩

/-! ## Reading -/

/-- What stands below the base stands in a directory. -/
theorem exists_opens_of_node? {node : FileNode} (hname : IsName name)
    (h : t.node? (join base name) = some node) :
    checkPath (join base name) = .ok () ∧ ∃ path entries, t.Opens base path entries := by
  obtain ⟨names, hplace⟩ := exists_place_of_node? h
  exact exists_opens hname hplace

/-- What is read at a path depends on what is there alone. -/
theorem read_congr {p : String} {node : FileNode} (h : t.node? p = some node)
    (h' : t'.node? p = some node) : t.read p = t'.read p := by
  obtain ⟨names, hplace⟩ := exists_place_of_node? h
  obtain ⟨names', hplace'⟩ := exists_place_of_node? h'
  rw [read, read, hplace, hplace']
  cases node with
  | file content mode => rfl
  | dir es => rfl

/-- A file with the bytes of a text is read as that text. -/
theorem read_text {p text : String} (h : t.node? p = some (.file (Text.utf8 text) mode)) :
    t.read p = .ok text := by
  obtain ⟨names, hplace⟩ := exists_place_of_node? h
  rw [read, hplace]
  simp [Text.ofUtf8?_utf8]

end FileTree

end QuorumKeeper
