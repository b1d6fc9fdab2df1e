import LintSuite.Survey
import LintSuite.Proofs.Path

/-!
# The walk, place by place

The walk of a survey gives paths.  Here it is related to the tree it walks.  What is no directory is a
*leaf*: the names of the directories on the way to it, and its own name (`Leaf`).  The walk is the
list of the paths of some leaves (`filesAmong_eq_map`), each of them once (`nodup_leavesAmong`), and
these are exactly the leaves below directories that are not pruned and that the walk can get down to
(`mem_leavesAmong_iff`).

Directories are taken as a system keeps them: an entry has a proper name, and no two entries of one
directory have the same (`Node.WellNamed`).

### Design decisions

**Locations and paths.**  In a tree a leaf has a location, and the walk gives its path, which is the
path of the root with the names joined to it.  The two are kept apart because the path can be too long
to be looked up where the location is in order, and the walk goes by the path (`Opens`).

**Trees by mutual recursion.**  A node holds entries, and entries hold nodes.  Definitions about trees
come in pairs, and so do their lemmas; each pair is one mutual induction.

### What is load-bearing

`mem_leavesAmong`: a leaf lies below the entry that has its first name, and in a well-named directory
there is one such entry.  That no leaf is given twice and which leaves are given both go by it.
-/

namespace LintSuite

namespace Host

/-- Whether a node is a directory.  A link is not, wherever it leads. -/
def Node.isDir : Node → Bool
  | .dir _ _ => true
  | _ => false

mutual

/-- **Trees as a system keeps them**: every entry of a directory has a name, and none twice. -/
def Node.WellNamed : Node → Prop
  | .dir _ entries => entries.WellNamed
  | _ => True

/-- Entries with names of their own. -/
def Entries.WellNamed : Entries → Prop
  | .none => True
  | .entry name node rest =>
    Path.IsName name ∧ rest.find? name = none ∧ node.WellNamed ∧ rest.WellNamed

end

/-- What is found under a name has that name, and is well named itself. -/
theorem Entries.WellNamed.of_find? {entries : Entries} (h : entries.WellNamed) {name : RawText}
    {node : Node} (hf : entries.find? name = some node) :
    Path.IsName name ∧ node.WellNamed := by
  match entries with
  | .none => simp [Entries.find?] at hf
  | .entry n below rest =>
      rw [Entries.WellNamed] at h
      obtain ⟨hn, -, hbelow, hrest⟩ := h
      rw [Entries.find?] at hf
      split at hf
      · next e =>
          obtain rfl := e
          obtain rfl : below = node := by simpa using hf
          exact ⟨hn, hbelow⟩
      · exact Entries.WellNamed.of_find? hrest hf

theorem Node.get?_cons (access : Access) (entries : Entries) (name : RawText)
    (rest : Location) :
    (Node.dir access entries).get? (name :: rest) =
      (entries.find? name).bind (·.get? rest) := rfl

theorem Node.get?_singleton (access : Access) (entries : Entries) (name : RawText) :
    (Node.dir access entries).get? [name] = entries.find? name := by
  rw [Node.get?_cons]
  cases entries.find? name <;> rfl

/-- What lies further down lies below an entry of a directory. -/
theorem Node.exists_of_get?_cons {tree node : Node} {name : RawText} {rest : Location}
    (h : tree.get? (name :: rest) = some node) :
    ∃ access entries below, tree = .dir access entries ∧ entries.find? name = some below ∧
      below.get? rest = some node := by
  cases tree with
  | dir access entries =>
      obtain ⟨below, hfind, hrest⟩ := Option.bind_eq_some_iff.mp h
      exact ⟨access, entries, below, rfl, hfind, hrest⟩
  | file access content => simp [Node.get?] at h
  | device d => simp [Node.get?] at h
  | link target => simp [Node.get?] at h

/-- Every name on the way to a node of a well named tree is proper. -/
theorem Node.WellNamed.isName {tree : Node} (h : tree.WellNamed) {location : Location}
    {node : Node} (hget : tree.get? location = some node) :
    ∀ name ∈ location, Path.IsName name := by
  induction location generalizing tree with
  | nil => simp
  | cons name rest ih =>
      obtain ⟨access, entries, below, rfl, hfind, hrest⟩ := Node.exists_of_get?_cons hget
      rw [Node.WellNamed] at h
      obtain ⟨hname, hbelow⟩ := h.of_find? hfind
      exact List.forall_mem_cons.mpr ⟨hname, ih hbelow hrest⟩

/-- What lies below a well named tree is well named. -/
theorem Node.WellNamed.of_get? {tree : Node} (h : tree.WellNamed) {location : Location}
    {node : Node} (hget : tree.get? location = some node) : node.WellNamed := by
  induction location generalizing tree with
  | nil => exact Option.some.inj hget ▸ h
  | cons name rest ih =>
      obtain ⟨access, entries, below, rfl, hfind, hrest⟩ := Node.exists_of_get?_cons hget
      rw [Node.WellNamed] at h
      exact ih (h.of_find? hfind).2 hrest

/-- Going down in two steps. -/
theorem Node.get?_append {tree node : Node} {location : Location}
    (h : tree.get? location = some node) (more : Location) :
    tree.get? (location ++ more) = node.get? more := by
  induction location generalizing tree with
  | nil =>
      obtain rfl := Option.some.inj h
      rfl
  | cons name rest ih =>
      obtain ⟨access, entries, below, rfl, hfind, hrest⟩ := Node.exists_of_get?_cons h
      rw [List.cons_append, Node.get?_cons, hfind, Option.bind_some, ih hrest]

end Host

open Host

/-- **A leaf** of a tree: the directories on the way to it, and its name. -/
abbrev Leaf := Location × RawText

/-- The path of a location below a directory. -/
def pathAt (dir : Path) (location : Location) : Path :=
  location.foldl Path.join dir

/-- The path of a leaf below a directory. -/
def leafPath (dir : Path) (leaf : Leaf) : Path :=
  (pathAt dir leaf.1).join leaf.2

theorem pathAt_cons (dir : Path) (name : RawText) (rest : Location) :
    pathAt dir (name :: rest) = pathAt (dir.join name) rest := rfl

/-- A leaf seen from one directory further up. -/
def Leaf.under (name : RawText) (leaf : Leaf) : Leaf :=
  (name :: leaf.1, leaf.2)

theorem Leaf.under_injective (name : RawText) : Function.Injective (Leaf.under name) := by
  rintro ⟨dirs, n⟩ ⟨dirs', n'⟩ h
  simpa [Leaf.under] using h

/-! ### The leaves that the walk gives -/

mutual

/-- The leaves below a node that the walk gives, seen from the directory that holds the node. -/
def leavesBelow (prune : List String) (entered : Bool) (p : Path) (name : RawText) :
    Node → List Leaf
  | .dir access entries =>
    if isPrunedDir prune name || !canList entered p access then []
    else (leavesAmong prune access.execute p entries).map (Leaf.under name)
  | _ => [([], name)]

/-- The leaves among entries of a directory, and below, that the walk gives. -/
def leavesAmong (prune : List String) (entered : Bool) (dir : Path) : Entries → List Leaf
  | .none => []
  | .entry name node rest =>
    leavesBelow prune entered (dir.join name) name node ++ leavesAmong prune entered dir rest

end

mutual

/-- The walk of a node gives the paths of these leaves. -/
theorem filesBelow_eq_map (prune : List String) (entered : Bool) (dir : Path) (name : RawText) :
    (node : Node) → filesBelow prune entered (dir.join name) name node =
      (leavesBelow prune entered (dir.join name) name node).map (leafPath dir)
  | .file _ _ => rfl
  | .device _ => rfl
  | .link _ => rfl
  | .dir access entries => by
    rw [filesBelow, leavesBelow]
    split
    · rfl
    · rw [filesAmong_eq_map prune access.execute (dir.join name) entries, List.map_map]
      rfl

/-- **The walk of a directory gives the paths of its leaves.** -/
theorem filesAmong_eq_map (prune : List String) (entered : Bool) (dir : Path) :
    (entries : Entries) → filesAmong prune entered dir entries =
      (leavesAmong prune entered dir entries).map (leafPath dir)
  | .none => rfl
  | .entry name node rest => by
    rw [filesAmong, leavesAmong, List.map_append, filesBelow_eq_map, filesAmong_eq_map]

end

/-- The name that leads to a leaf first: that of a directory, or its own. -/
def Leaf.firstName (leaf : Leaf) : RawText :=
  leaf.1.head?.getD leaf.2

theorem firstName_of_mem_leavesBelow {prune : List String} {entered : Bool} {p : Path}
    {name : RawText} {node : Node} {leaf : Leaf}
    (h : leaf ∈ leavesBelow prune entered p name node) : leaf.firstName = name := by
  cases node with
  | dir access entries =>
      rw [leavesBelow] at h
      split at h
      · simp at h
      · obtain ⟨below, -, rfl⟩ := List.mem_map.mp h
        rfl
  | file access content =>
      obtain rfl : leaf = ([], name) := by simpa [leavesBelow] using h
      rfl
  | device d =>
      obtain rfl : leaf = ([], name) := by simpa [leavesBelow] using h
      rfl
  | link target =>
      obtain rfl : leaf = ([], name) := by simpa [leavesBelow] using h
      rfl

/-- A leaf lies below the entry that has its first name. -/
theorem mem_leavesAmong {prune : List String} {entered : Bool} {dir : Path} {leaf : Leaf} :
    {entries : Entries} → entries.WellNamed →
      (leaf ∈ leavesAmong prune entered dir entries ↔
        ∃ node, entries.find? leaf.firstName = some node ∧
          leaf ∈ leavesBelow prune entered (dir.join leaf.firstName) leaf.firstName node)
  | .none, _ => by simp [leavesAmong, Entries.find?]
  | .entry name node rest, h => by
    rw [Entries.WellNamed] at h
    obtain ⟨-, hfree, -, hrest⟩ := h
    rw [leavesAmong, List.mem_append, mem_leavesAmong hrest, Entries.find?]
    by_cases hname : name = leaf.firstName
    · subst hname
      simp [hfree]
    · rw [if_neg hname, or_iff_right]
      exact fun hmem => hname (firstName_of_mem_leavesBelow hmem).symm

mutual

theorem nodup_leavesBelow (prune : List String) (entered : Bool) (p : Path) (name : RawText) :
    (node : Node) → node.WellNamed → (leavesBelow prune entered p name node).Nodup
  | .file _ _, _ => List.nodup_singleton _
  | .device _, _ => List.nodup_singleton _
  | .link _, _ => List.nodup_singleton _
  | .dir access entries, h => by
    rw [leavesBelow]
    split
    · exact List.nodup_nil
    · exact (nodup_leavesAmong prune access.execute p entries h).map
        (Leaf.under_injective name)

/-- **No leaf is given twice.** -/
theorem nodup_leavesAmong (prune : List String) (entered : Bool) (dir : Path) :
    (entries : Entries) → entries.WellNamed → (leavesAmong prune entered dir entries).Nodup
  | .none, _ => List.nodup_nil
  | .entry name node rest, h => by
    rw [Entries.WellNamed] at h
    obtain ⟨-, hfree, hnode, hrest⟩ := h
    rw [leavesAmong]
    refine List.Nodup.append (nodup_leavesBelow prune entered _ name node hnode)
      (nodup_leavesAmong prune entered dir rest hrest) ?_
    -- A leaf of both would make the name of this entry that of a later one too.
    intro leaf hbelow hamong
    obtain ⟨other, hfind, -⟩ := (mem_leavesAmong hrest).mp hamong
    rw [firstName_of_mem_leavesBelow hbelow, hfree] at hfind
    simp at hfind

end

/-! ### Which leaves these are -/

/-- **Whether the walk can get down** to a directory below a root: every directory from the root on
is there, may be read, has a path that is not too long, and lets one pass if it is not the last. -/
def Opens (root : Path) (tree : Node) (dirs : Location) : Prop :=
  ∀ above, above <+: dirs → ∃ access entries, tree.get? above = some (.dir access entries) ∧
    access.read = true ∧ (above ≠ dirs → access.execute = true) ∧
    (pathAt root above).bytes.length ≤ pathLimit

/-- Getting down to the root itself. -/
theorem opens_nil {root : Path} {access : Access} {entries : Entries} :
    Opens root (.dir access entries) [] ↔
      access.read = true ∧ root.bytes.length ≤ pathLimit := by
  constructor
  · intro h
    obtain ⟨_, _, hget, hread, -, hsize⟩ := h [] (List.prefix_refl _)
    obtain ⟨rfl, rfl⟩ : access = _ ∧ entries = _ := by simpa [Node.get?] using hget
    exact ⟨hread, hsize⟩
  · rintro ⟨hread, hsize⟩ above habove
    obtain rfl := List.prefix_nil.mp habove
    exact ⟨access, entries, rfl, hread, fun h => absurd rfl h, hsize⟩

/-- Getting further down is getting past the root, and then down from the directory below it. -/
theorem opens_cons {root : Path} {access : Access} {entries : Entries} {name : RawText}
    {dirs : Location} :
    Opens root (.dir access entries) (name :: dirs) ↔
      (access.read = true ∧ root.bytes.length ≤ pathLimit) ∧ access.execute = true ∧
        ∃ below, entries.find? name = some below ∧ Opens (root.join name) below dirs := by
  constructor
  · intro h
    obtain ⟨_, _, hget, hread, hpass, hsize⟩ := h [] List.nil_prefix
    obtain ⟨rfl, rfl⟩ : access = _ ∧ entries = _ := by simpa [Node.get?] using hget
    refine ⟨⟨hread, hsize⟩, hpass (by simp), ?_⟩
    obtain ⟨_, _, hget', -⟩ := h [name] ((List.prefix_cons_inj name).mpr List.nil_prefix)
    rw [Node.get?_cons, Option.bind_eq_some_iff] at hget'
    obtain ⟨below, hfind, -⟩ := hget'
    refine ⟨below, hfind, ?_⟩
    intro above habove
    obtain ⟨access', entries', hget'', hread', hpass', hsize'⟩ :=
      h (name :: above) ((List.prefix_cons_inj name).mpr habove)
    rw [Node.get?_cons, hfind, Option.bind_some] at hget''
    exact ⟨access', entries', hget'', hread', fun hne => hpass' (by simpa using hne), hsize'⟩
  · rintro ⟨⟨hread, hsize⟩, hpass, below, hfind, h⟩ above habove
    rcases List.prefix_cons_iff.mp habove with rfl | ⟨rest, rfl, hrest⟩
    · exact ⟨access, entries, rfl, hread, fun _ => hpass, hsize⟩
    · obtain ⟨access', entries', hget, hread', hpass', hsize'⟩ := h rest hrest
      refine ⟨access', entries', ?_, hread', fun hne => hpass' (by simpa using hne), hsize'⟩
      rw [Node.get?_cons, hfind, Option.bind_some, hget]

/-- What is no directory is a leaf itself. -/
theorem nil_mem_leavesBelow {prune : List String} {entered : Bool} {p : Path} {name : RawText}
    {node : Node} : ([], name) ∈ leavesBelow prune entered p name node ↔ node.isDir = false := by
  cases node with
  | dir access entries =>
      rw [leavesBelow]
      split <;> simp [Leaf.under, Node.isDir]
  | file access content => simp [leavesBelow, Node.isDir]
  | device d => simp [leavesBelow, Node.isDir]
  | link target => simp [leavesBelow, Node.isDir]

/-- Further down are the leaves of a directory that is not pruned and can be listed. -/
theorem cons_mem_leavesBelow {prune : List String} {entered : Bool} {p : Path}
    {d name : RawText} {dirs : Location} {node : Node} :
    (d :: dirs, name) ∈ leavesBelow prune entered p d node ↔
      ∃ access entries, node = .dir access entries ∧ isPrunedDir prune d = false ∧
        canList entered p access = true ∧
        (dirs, name) ∈ leavesAmong prune access.execute p entries := by
  cases node with
  | dir access entries =>
      rw [leavesBelow]
      split
      · next hcut =>
          rw [Bool.or_eq_true, Bool.not_eq_true'] at hcut
          constructor
          · simp
          · rintro ⟨_, _, heq, hpruned, hlist, -⟩
            obtain ⟨rfl, rfl⟩ : access = _ ∧ entries = _ := by simpa using heq
            rcases hcut with hcut | hcut
            · simp [hcut] at hpruned
            · simp [hcut] at hlist
      · next hcut =>
          rw [Bool.or_eq_true, not_or, Bool.not_eq_true, Bool.not_eq_true', Bool.not_eq_false]
            at hcut
          constructor
          · intro h
            obtain ⟨⟨dirs', name'⟩, hmem, heq⟩ := List.mem_map.mp h
            obtain ⟨rfl, rfl⟩ : dirs' = dirs ∧ name' = name := by simpa [Leaf.under] using heq
            exact ⟨access, entries, rfl, hcut.1, hcut.2, hmem⟩
          · rintro ⟨_, _, heq, -, -, hmem⟩
            obtain ⟨rfl, rfl⟩ : access = _ ∧ entries = _ := by simpa using heq
            exact List.mem_map.mpr ⟨_, hmem, rfl⟩
  | file access content => simp [leavesBelow]
  | device d => simp [leavesBelow]
  | link target => simp [leavesBelow]

theorem canList_eq_true {entered : Bool} {p : Path} {access : Access} :
    canList entered p access = true ↔
      entered = true ∧ access.read = true ∧ p.bytes.length ≤ pathLimit := by
  rw [canList, Bool.and_eq_true, Bool.and_eq_true, decide_eq_true_eq, and_assoc]

/-- **The leaves that the walk of a directory gives**: those below directories that it can get down
to and of which none is pruned. -/
theorem mem_leavesAmong_iff {prune : List String} {root : Path} {access : Access}
    {entries : Entries} (hnamed : entries.WellNamed) (hread : access.read = true)
    (hsize : root.bytes.length ≤ pathLimit) {dirs : Location} {name : RawText} :
    (dirs, name) ∈ leavesAmong prune access.execute root entries ↔
      (∃ node, (Node.dir access entries).get? (dirs ++ [name]) = some node ∧
        node.isDir = false) ∧
      (∀ c ∈ dirs, isPrunedDir prune c = false) ∧ Opens root (.dir access entries) dirs := by
  rw [mem_leavesAmong hnamed]
  -- By induction on the directories on the way, the tree below the first of them being any tree.
  induction dirs generalizing root access entries with
  | nil =>
      have hopens : Opens root (.dir access entries) [] := opens_nil.mpr ⟨hread, hsize⟩
      simp only [Leaf.firstName, List.head?_nil, Option.getD_none, nil_mem_leavesBelow,
        List.nil_append, Node.get?_singleton, List.not_mem_nil, false_implies, implies_true,
        hopens, and_true]
  | cons d dirs ih =>
      simp only [Leaf.firstName, List.head?_cons, Option.getD_some]
      constructor
      · rintro ⟨node, hfind, hmem⟩
        obtain ⟨access', entries', rfl, hpruned, hlist, hmem⟩ := cons_mem_leavesBelow.mp hmem
        obtain ⟨hpass, hread', hsize'⟩ := canList_eq_true.mp hlist
        have hnamed' : entries'.WellNamed := (hnamed.of_find? hfind).2
        obtain ⟨⟨leaf, hget, hleaf⟩, hclear, hopens⟩ :=
          (ih hnamed' hread' hsize').mp ((mem_leavesAmong hnamed').mp hmem)
        refine ⟨⟨leaf, ?_, hleaf⟩, List.forall_mem_cons.mpr ⟨hpruned, hclear⟩,
          opens_cons.mpr ⟨⟨hread, hsize⟩, hpass, _, hfind, hopens⟩⟩
        rw [List.cons_append, Node.get?_cons, hfind, Option.bind_some, hget]
      · rintro ⟨⟨leaf, hget, hleaf⟩, hclear, hopens⟩
        obtain ⟨hpruned, hclear⟩ := List.forall_mem_cons.mp hclear
        obtain ⟨-, hpass, below, hfind, hopens⟩ := opens_cons.mp hopens
        rw [List.cons_append, Node.get?_cons, hfind, Option.bind_some] at hget
        obtain ⟨access', entries', hbelow, hread', -, hsize'⟩ := hopens [] List.nil_prefix
        obtain rfl : below = .dir access' entries' := by simpa [Node.get?] using hbelow
        have hnamed' : entries'.WellNamed := (hnamed.of_find? hfind).2
        refine ⟨_, hfind, cons_mem_leavesBelow.mpr ⟨access', entries', rfl, hpruned,
          canList_eq_true.mpr ⟨hpass, hread', hsize'⟩, (mem_leavesAmong hnamed').mpr ?_⟩⟩
        exact (ih hnamed' hread' hsize').mpr ⟨⟨leaf, hget, hleaf⟩, hclear, hopens⟩

end LintSuite
