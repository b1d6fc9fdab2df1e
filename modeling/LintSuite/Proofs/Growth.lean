import LintSuite.Proofs.Lookup
import Mathlib

/-!
# Making files and directories

Making a node leaves every other location as it is (`get?_set_of_ne`), so the tree has only grown, and
whatever a path led to before it still leads to.  What was made is where the path leads afterwards
(`adds_of_makeDir`, `writes_of_write`).

Making a directory and those it lies in is a run of such steps up to the first refusal
(`makesDirsAbove_makeDirsFrom`).  After a refusal one of the directories is lacking, so nothing below
it can be found (`exists?_eq_false_of_lacking`); and the directory that was made last is empty, so a
path without steps upwards leads nowhere below it (`exists?_of_run`).

### Design decisions

**Growth is what proofs keep.**  A node that is made changes the tree, and what was true of the tree
before has to be carried over.  `Grows` is the weakest relation that lookups respect: a node of the same
shape is where there was one.  Every step here is shown to grow the tree, and chains of steps grow it
by transitivity.

**Steps as a relation.**  Making some directories is a run of single steps that may stop at a refusal
(`MakesDirsAbove`).  What the caller wants to know, that the working directory stayed, that nothing
was lost and what is lacking after a refusal, are fields of one structure each (`Gains`, `Writes`), and
not results that have to be found out again by unfolding.

### What is load-bearing

`get?_set_of_ne`: a location other than the one that was set keeps what it held, if nothing lies in the
node that goes nor in the one that comes.  That new directories are empty and files hold no names is
what makes it apply.
-/

namespace LintSuite.Host

open LintSuite

/-! ### Trees with another node -/

namespace Entries

/-- What is under another name stays there. -/
theorem find?_put_of_ne {name other : RawText} (h : other ≠ name) (node : Node)
    (entries : Entries) : (entries.put name node).find? other = entries.find? other := by
  cases entries with
  | none => simp [put, find?, h.symm]
  | entry n old rest =>
      by_cases hn : n = name
      · subst hn
        simp [put, find?, h.symm]
      · by_cases ho : n = other
        · subst ho
          simp [put, find?, hn]
        · simp [put, find?, hn, ho, find?_put_of_ne h node rest]

end Entries

/-- A node without what lies in it. -/
def Node.bare : Node → Node
  | .dir access _ => .dir access .none
  | other => other

@[simp] theorem Node.bare_dir (access : Access) (entries : Entries) :
    (Node.dir access entries).bare = .dir access .none := rfl

theorem Node.shape_eq_of_bare_eq {node node' : Node} (h : node.bare = node'.bare) :
    node.shape = node'.shape := by
  cases node <;> cases node' <;> simp_all [Node.bare, Node.shape]

/-- Nothing lies in a node that is bare. -/
theorem Node.get?_cons_of_bare {node : Node} (h : node.bare = node) (name : RawText)
    (rest : Location) : node.get? (name :: rest) = none := by
  cases node with
  | dir access entries =>
      obtain rfl : Entries.none = entries := by simpa using h
      rfl
  | file access content => rfl
  | device d => rfl
  | link target => rfl

section Set

variable {tree new : Node} {parent location : Location} {name : RawText} {access : Access}
  {entries : Entries}

theorem Node.get?_set_self (h : tree.get? parent = some (.dir access entries)) :
    (tree.set new (parent ++ [name])).get? (parent ++ [name]) = some new := by
  induction parent generalizing tree with
  | nil =>
      obtain rfl := Option.some.inj h
      rw [List.nil_append, Node.set, Node.get?_singleton, Entries.find?_put_self]
      rfl
  | cons n rest ih =>
      obtain ⟨access', entries', below, rfl, hfind, hrest⟩ := Node.exists_of_get?_cons h
      rw [List.cons_append, Node.set, Node.get?_cons, Entries.find?_put_self, hfind]
      exact ih hrest

/-- **Every other location keeps what it held**, if nothing lies in the node that goes nor in the one
that comes. -/
theorem Node.get?_set_of_ne (h : tree.get? parent = some (.dir access entries))
    (hnew : new.bare = new)
    (hold : ∀ old, tree.get? (parent ++ [name]) = some old → old.bare = old)
    (hne : location ≠ parent ++ [name]) :
    ((tree.set new (parent ++ [name])).get? location).map Node.bare =
      (tree.get? location).map Node.bare := by
  induction parent generalizing tree location with
  | nil =>
      obtain rfl := Option.some.inj h
      rw [List.nil_append, Node.get?_singleton] at hold
      rw [List.nil_append, Node.set]
      cases location with
      | nil => rfl
      | cons n rest =>
          rw [Node.get?_cons, Node.get?_cons]
          by_cases hn : n = name
          · subst hn
            obtain ⟨m, more, rfl⟩ : ∃ m more, rest = m :: more :=
              List.exists_cons_of_ne_nil (by simpa using hne)
            rw [Entries.find?_put_self]
            cases hfind : entries.find? n with
            | none => simp [Node.set, Node.get?_cons_of_bare hnew]
            | some old =>
                simp [Node.set, Node.get?_cons_of_bare hnew, Node.get?_cons_of_bare (hold old hfind)]
          · rw [Entries.find?_put_of_ne hn]
  | cons p parent ih =>
      obtain ⟨access', entries', below, rfl, hfind, hrest⟩ := Node.exists_of_get?_cons h
      rw [List.cons_append, Node.get?_cons, hfind] at hold
      rw [List.cons_append, Node.set, hfind]
      cases location with
      | nil => rfl
      | cons n rest =>
          rw [Node.get?_cons, Node.get?_cons]
          by_cases hn : n = p
          · subst hn
            rw [Entries.find?_put_self, hfind]
            exact ih hrest hold (by simpa using hne)
          · rw [Entries.find?_put_of_ne hn]

end Set

/-- **Trees that agree** but at one location. -/
def AgreeBut (root root' : Node) (location : Location) : Prop :=
  ∀ other ≠ location, (root'.get? other).map Node.bare = (root.get? other).map Node.bare

/-- A tree that agrees with another but where that was free, or had a node of the same shape, has
grown. -/
theorem AgreeBut.grows {root root' : Node} {location : Location}
    (h : AgreeBut root root' location)
    (hshape : ∀ node, root.get? location = some node →
      ∃ node', root'.get? location = some node' ∧ node'.shape = node.shape) :
    Grows root root' := by
  intro other node hnode
  by_cases hother : other = location
  · subst hother
    exact hshape node hnode
  · have hagree := h other hother
    rw [hnode, Option.map_some, Option.map_eq_some_iff] at hagree
    obtain ⟨node', hnode', hbare⟩ := hagree
    exact ⟨node', hnode', Node.shape_eq_of_bare_eq hbare⟩

/-- **A file that takes the place of another** is there, and all else is as it was. -/
theorem agreeBut_set_file {root : Node} {location : Location} {access : Access}
    {old : List UInt8} (content : List UInt8)
    (h : root.get? location = some (.file access old)) :
    (root.set (.file access content) location).get? location = some (.file access content) ∧
      AgreeBut root (root.set (.file access content) location) location := by
  rcases List.eq_nil_or_concat' location with rfl | ⟨parent, name, rfl⟩
  · obtain rfl := Option.some.inj h
    refine ⟨rfl, fun other hother => ?_⟩
    obtain ⟨name, rest, rfl⟩ := List.exists_cons_of_ne_nil hother
    rfl
  · obtain ⟨access', entries, hdir⟩ := exists_dir_of_get?_append (List.cons_ne_nil name []) h
    refine ⟨Node.get?_set_self hdir, fun other hother => ?_⟩
    refine Node.get?_set_of_ne hdir rfl (fun node hnode => ?_) hother
    rw [h] at hnode
    obtain rfl := Option.some.inj hnode
    rfl

theorem AgreeBut.grows_of_file {root root' : Node} {location : Location} {access : Access}
    {old content : List UInt8} (h : AgreeBut root root' location)
    (hold : root.get? location = some (.file access old))
    (hnew : root'.get? location = some (.file access content)) : Grows root root' := by
  refine h.grows fun node hnode => ⟨_, hnew, ?_⟩
  rw [hold] at hnode
  obtain rfl := Option.some.inj hnode
  rfl

namespace FileSystem

variable {fs after : FileSystem}

/-! ### The working directory stays -/

theorem cwd_of_create {parent : Location} {name : RawText} {node : Node}
    (h : fs.create parent name node = .ok after) : after.cwd = fs.cwd := by
  rw [create] at h
  split at h
  · split at h
    · cases h
      rfl
    · cases h
  · cases h

theorem cwd_of_write {p : Path} {content : List UInt8} (h : fs.write p content = .ok after) :
    after.cwd = fs.cwd := by
  rw [write] at h
  split at h
  · split at h
    · split at h
      · cases h
        rfl
      · cases h
    · cases h
      rfl
    · cases h
    · cases h
  · exact cwd_of_create h
  · cases h

/-! ### One node more -/

/-- **One node more**: the file system has changed by a node at a location that was free. -/
structure Adds (fs after : FileSystem) (location : Location) (node : Node) : Prop where
  /-- The working directory stays. -/
  cwd : after.cwd = fs.cwd
  /-- Nothing was there. -/
  free : fs.root.get? location = none
  /-- The node is there. -/
  taken : after.root.get? location = some node
  /-- All else is as it was. -/
  others : AgreeBut fs.root after.root location

theorem Adds.grows {location : Location} {node : Node} (h : Adds fs after location node) :
    Grows fs.root after.root := by
  refine h.others.grows fun old hold => ?_
  rw [h.free] at hold
  simp at hold

theorem exists_dir_of_create {parent : Location} {name : RawText} {node : Node}
    (h : fs.create parent name node = .ok after) :
    ∃ access entries, fs.root.get? parent = some (.dir access entries) ∧
      after = { fs with root := fs.root.set node (parent ++ [name]) } := by
  rw [create] at h
  split at h
  · next access entries hdir =>
      split at h
      · exact ⟨access, entries, hdir, (Except.ok.inj h).symm⟩
      · simp at h
  · simp at h

theorem adds_of_create {parent : Location} {name : RawText} {node : Node} (hnode : node.bare = node)
    (hfree : fs.root.get? (parent ++ [name]) = none)
    (h : fs.create parent name node = .ok after) : Adds fs after (parent ++ [name]) node := by
  obtain ⟨access, entries, hdir, rfl⟩ := exists_dir_of_create h
  refine ⟨rfl, hfree, Node.get?_set_self hdir, fun other hother => ?_⟩
  exact Node.get?_set_of_ne hdir hnode (fun old hold => by simp [hfree] at hold) hother

/-- Where a path leads to what was added, it led to nothing before. -/
theorem Adds.exists?_eq_false {p : Path} {location : Location} {node : Node}
    (h : Adds fs after location node) (hfind : after.find p = .ok (location, node)) :
    fs.exists? p = false := by
  rw [Bool.eq_false_iff, ne_eq, exists?_eq_true_iff]
  rintro ⟨there, old, hold⟩
  obtain ⟨node', hfind', -⟩ := find_of_grows h.grows h.cwd hold
  obtain ⟨rfl, -⟩ := Prod.mk.inj (Except.ok.inj (hfind.symm.trans hfind'))
  have hget := (find_eq_ok_iff.mp hold).2.2
  rw [h.free] at hget
  simp at hget

/-! ### Making directories -/

variable {p q : Path}

/-- **A directory that is made** is empty, and is where its path leads. -/
theorem adds_of_makeDir (hslash : endsInSlash q = false) (h : fs.makeDir q = .ok after) :
    ∃ location, Adds fs after location .emptyDir ∧ after.find q = .ok (location, .emptyDir) := by
  rw [makeDir, placeNew, hslash] at h
  split at h
  · simp at h
  · next parent name hlook =>
      have hadds := adds_of_create rfl (isIn_of_look hlook) h
      have hnoLink : Node.emptyDir.IsNoLink := by simp [Node.IsNoLink, Node.emptyDir]
      exact ⟨_, hadds, find_of_free hadds.grows hadds.cwd hlook hadds.taken hnoLink⟩
  · simp at h

/-- What is there is not refused as lacking. -/
theorem isDir_eq_false_of_makeDir (hslash : endsInSlash q = false)
    (h : fs.makeDir q = .error .notFound) : fs.isDir q = false := by
  rw [Bool.eq_false_iff, ne_eq, isDir_eq_true_iff]
  rintro ⟨there, access, entries, hfind⟩
  obtain ⟨location, found, hlook⟩ := exists_look_entry_of_find hfind
  simp only [makeDir, placeNew, hslash, Bool.false_eq_true, if_false, hlook] at h
  simp at h

/-- **A directory above a path** is made. -/
def MakesAbove (p : Path) (fs after : FileSystem) : Prop :=
  ∃ q, p.Above q ∧ q.bytes ≠ [] ∧ fs.makeDir q = .ok after

/-- **What comes of making the first of some directories**: some of them are made, and if it ends with
a refusal, one of them is lacking, unless there is none. -/
structure MakesDirsAbove (p : Path) (qs : List Path) (fs : FileSystem)
    (result : FileSystem × Option IoError) : Prop where
  /-- Some are made, one after the other. -/
  run : Relation.ReflTransGen (MakesAbove p) fs result.1
  /-- After a refusal one is lacking. -/
  lacking : ∀ e, result.2 = some e → (qs = [] ∧ result.1 = fs) ∨
    ∃ q, p.Above q ∧ q.bytes ≠ [] ∧ result.1.isDir q = false

theorem makesDirsAbove_makeDirsFrom {qs : List Path} (hqs : ∀ q ∈ qs, p.Above q) :
    MakesDirsAbove p qs fs (fs.makeDirsFrom qs) := by
  induction qs with
  | nil => exact ⟨.refl, fun _ _ => .inl ⟨rfl, rfl⟩⟩
  | cons q parents ih =>
      have hq := hqs q List.mem_cons_self
      have habove := ih fun r hr => hqs r (List.mem_cons_of_mem q hr)
      rw [makeDirsFrom]
      split
      · exact ⟨.refl, by simp⟩
      next hne =>
      replace hne : q.bytes ≠ [] := by simpa using hne
      split
      · next after hmade => exact ⟨.single ⟨q, hq, hne, hmade⟩, by simp⟩
      · next hlacking =>
          split
          · next between e hbetween =>
              rw [hbetween] at habove
              refine ⟨habove.run, fun e' _ => .inr ?_⟩
              rcases habove.lacking e rfl with ⟨-, rfl⟩ | hlacks
              · exact ⟨q, hq, hne, isDir_eq_false_of_makeDir (endsInSlash_of_above hq) hlacking⟩
              · exact hlacks
          · next between hbetween =>
              rw [hbetween] at habove
              split
              · next after hmade => exact ⟨habove.run.tail ⟨q, hq, hne, hmade⟩, by simp⟩
              · next e _ =>
                  refine ⟨habove.run, fun e' he => .inr ⟨q, hq, hne, ?_⟩⟩
                  split at he <;> simp_all
      · next e _ _ =>
          refine ⟨.refl, fun e' he => .inr ⟨q, hq, hne, ?_⟩⟩
          split at he <;> simp_all

/-! ### A run of them -/

/-- What a run of such requests leaves of the file system. -/
structure Gains (p : Path) (fs after : FileSystem) : Prop where
  /-- The working directory stays. -/
  cwd : after.cwd = fs.cwd
  /-- Nothing is lost. -/
  grows : Grows fs.root after.root
  /-- What changes are free locations that directories above the path have taken, which were not there
  before. -/
  others : ∀ location,
    (after.root.get? location).map Node.bare = (fs.root.get? location).map Node.bare ∨
      (fs.root.get? location = none ∧ ∃ q access entries, p.Above q ∧ fs.exists? q = false ∧
        after.find q = .ok (location, .dir access entries))

theorem gains_of_run (h : Relation.ReflTransGen (MakesAbove p) fs after) : Gains p fs after := by
  induction h with
  | refl => exact ⟨rfl, .refl _, fun _ => .inl rfl⟩
  | @tail between after _ hmake ih =>
      obtain ⟨q, hq, -, hmade⟩ := hmake
      obtain ⟨taken, hadds, hfind⟩ := adds_of_makeDir (endsInSlash_of_above hq) hmade
      refine ⟨hadds.cwd.trans ih.cwd, ih.grows.trans hadds.grows, fun location => ?_⟩
      by_cases htaken : location = taken
      · subst htaken
        refine .inr ⟨ih.grows.get?_eq_none hadds.free, q, .full, .none, hq, ?_, hfind⟩
        exact exists?_of_grows ih.grows ih.cwd (hadds.exists?_eq_false hfind)
      rcases ih.others location with hsame | ⟨hfree, r, access, entries, hr, hmissing, hdir⟩
      · exact .inl ((hadds.others location htaken).trans hsame)
      · obtain ⟨node', hdir', hshape⟩ := find_of_grows hadds.grows hadds.cwd hdir
        obtain ⟨entries', rfl⟩ := Node.shape_eq_dir_iff.mp hshape
        exact .inr ⟨hfree, r, access, entries', hr, hmissing, hdir'⟩

/-- **A run above a path without steps upwards does not make the path lead anywhere.** -/
theorem exists?_of_run (h : Relation.ReflTransGen (MakesAbove p) fs after)
    (hup : .up ∉ p.components) (hmissing : fs.exists? p = false) : after.exists? p = false := by
  cases h with
  | refl => exact hmissing
  | tail _ hmake =>
      -- The last directory that was made is still empty.
      obtain ⟨q, hq, hne, hmade⟩ := hmake
      obtain ⟨taken, -, hfind⟩ := adds_of_makeDir (endsInSlash_of_above hq) hmade
      rw [Bool.eq_false_iff, ne_eq, exists?_eq_true_iff]
      rintro ⟨there, node, hp⟩
      exact find_ne_ok_of_empty hq hne hfind hup hp

/-- Below a directory that is lacking nothing is found. -/
theorem exists?_eq_false_of_lacking (hq : p.Above q) (hne : q.bytes ≠ [])
    (hlacking : fs.isDir q = false) : fs.exists? p = false := by
  rw [Bool.eq_false_iff, ne_eq, exists?_eq_true_iff]
  rintro ⟨there, node, hp⟩
  obtain ⟨mid, access, entries, hdir, -⟩ := exists_passes_of_above hq hne hp
  rw [isDir_eq_true_iff.mpr ⟨mid, access, entries, hdir⟩] at hlacking
  simp at hlacking

/-! ### Writing a file -/

/-- **What a write does**: the file is where the path leads afterwards, and all else is as it was. -/
structure Writes (fs : FileSystem) (p : Path) (content : List UInt8) (after : FileSystem)
    (location : Location) (access : Access) : Prop where
  /-- The working directory stays. -/
  cwd : after.cwd = fs.cwd
  /-- The file is there. -/
  file : after.find p = .ok (location, .file access content)
  /-- It was there, or it is new. -/
  before : (∃ old, fs.find p = .ok (location, .file access old)) ∨
    (fs.exists? p = false ∧ fs.root.get? location = none ∧ access = .ofFile)
  /-- All else is as it was. -/
  others : AgreeBut fs.root after.root location

theorem Writes.grows {content : List UInt8} {location : Location} {access : Access}
    (h : Writes fs p content after location access) : Grows fs.root after.root := by
  have hnew := (find_eq_ok_iff.mp h.file).2.2
  rcases h.before with ⟨old, hold⟩ | ⟨-, hfree, -⟩
  · exact h.others.grows_of_file (find_eq_ok_iff.mp hold).2.2 hnew
  · refine h.others.grows fun node hnode => ?_
    rw [hfree] at hnode
    simp at hnode

/-- **How a write succeeds**: it writes the file, or there is a device that swallows it. -/
theorem writes_of_write {content : List UInt8} (h : fs.write p content = .ok after) :
    (∃ location access, Writes fs p content after location access) ∨
      ∃ location d, fs.find p = .ok (location, .device d) ∧ after = fs := by
  have hcwd := cwd_of_write h
  rw [write] at h
  split at h
  · next location node hlook =>
      have hfind := find_of_look (by simp) hlook
      cases node with
      | file access old =>
          dsimp only at h
          split_ifs at h with hwrite
          have hroot : after.root = fs.root.set (.file access content) location := by
            rw [← Except.ok.inj h]
          have hold := (find_eq_ok_iff.mp hfind).2.2
          obtain ⟨hnew, hothers⟩ := agreeBut_set_file content hold
          rw [← hroot] at hnew hothers
          obtain ⟨node, hfile, -⟩ := find_of_grows (hothers.grows_of_file hold hnew) hcwd hfind
          rw [(find_eq_ok_iff.mp hfile).2.2] at hnew
          obtain rfl := Option.some.inj hnew
          exact .inl ⟨location, access, hcwd, hfile, .inl ⟨old, hfind⟩, hothers⟩
      | device d => exact .inr ⟨location, d, hfind, (Except.ok.inj h).symm⟩
      | dir access entries => simp at h
      | link target => simp at h
  · next parent name hlook =>
      have hadds := adds_of_create rfl (isIn_of_look hlook) h
      have hfind := find_of_free hadds.grows hadds.cwd hlook hadds.taken (by simp [Node.IsNoLink])
      exact .inl ⟨_, _, hadds.cwd, hfind, .inr ⟨hadds.exists?_eq_false hfind, hadds.free, rfl⟩,
        hadds.others⟩
  · simp at h

/-- A directory is not written. -/
theorem exists_error_of_write_dir {location : Location} {access : Access} {entries : Entries}
    (h : fs.find p = .ok (location, .dir access entries)) (content : List UInt8) :
    ∃ e, fs.write p content = .error e := by
  cases hwrite : fs.write p content with
  | error e => exact ⟨e, rfl⟩
  | ok after =>
      rcases writes_of_write hwrite with ⟨_, _, hwrites⟩ | ⟨_, _, hdevice, -⟩
      · rcases hwrites.before with ⟨old, hold⟩ | ⟨hmissing, -⟩
        · rw [h] at hold
          simp at hold
        · rw [exists?_eq_true_iff.mpr ⟨_, _, h⟩] at hmissing
          simp at hmissing
      · rw [h] at hdevice
        simp at hdevice

end FileSystem

end LintSuite.Host
