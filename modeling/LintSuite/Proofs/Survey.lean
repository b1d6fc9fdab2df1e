import LintSuite.Proofs.FileSet
import LintSuite.Proofs.Lookup
import LintSuite.Proofs.ShownNames

/-!
# What a survey lists

A survey lists the leaves of a tree that are not ignored, not pruned, and not below a directory that
is pruned or cannot be listed (`Leaf.Listed`).  `IsSurvey` says what this means for the three sets:
which leaves they hold, that they hold each once and in the set of its kind, under which directory,
and how many there are.  `isSurvey_survey` proves it of every root that is a directory, whatever the
tree below it and the order of its entries.

Names are bytes, and they are decoded where they are judged and where a leaf is listed.  So a leaf is
told by its bytes and listed by what is shown of them (`Leaf.listing`).  Two leaves of one directory
may be listed alike, and for that reason a set is held against a list of leaves, each of them once,
and not against the set of their listings (`IsSurvey.lists`).  A leaf whose name is no text is listed
under a path that is not its own (`survey_brokenName`).

The proof goes by two equations.  The walk of the root gives the paths of the leaves that can be got
at (`walk_eq_map`), and each of the three sets is built by adding the files of its kind among them
(`ofKind_survey`).  Whether a directory can be listed is a matter of its path too, which has a greatest
length; a directory with a longer path loses what is below it (`Leaf.not_listed_of_long`).

### Design decisions

**Leaves, not paths.**  A leaf is the names that lead to it.  Which leaves are to be listed is said of
the tree and the names (`Leaf.Listed`), and what a survey holds is the image of those leaves under
`Leaf.listing`.  So that two leaves can be listed alike is visible in the statement and no accident.

**Bytes for directories, texts for names.**  A bucket keeps the bytes of its directory, and the name of
a file as it is shown.  The fields of `IsSurvey` follow that: the directory of a bucket is the one of
the leaf, and the path of a file is the one of the leaf exactly if its name is a text.

### What fails, and why it is stated

`survey_not_exact` is about two expectations one might have.  A path that a set builds need not lead
back to the entry it was built for, and a directory that may be read need not be listed, if its path is
longer than the system allows.
-/

namespace LintSuite

open Host RawText

/-! ### Directories and names of leaves -/

theorem pathAt_bytes_ne_nil {root : Path} (hroot : root.bytes ≠ []) {dirs : Location}
    (h : ∀ d ∈ dirs, Path.IsName d) : (pathAt root dirs).bytes ≠ [] := by
  induction dirs generalizing root with
  | nil => exact hroot
  | cons d dirs ih =>
      obtain ⟨hd, hdirs⟩ := List.forall_mem_cons.mp h
      exact ih (Path.join_bytes_ne_nil root hd) hdirs

/-- Going down appends the names of the directories. -/
theorem components_pathAt {root : Path} (hroot : root.bytes ≠ []) {dirs : Location}
    (h : ∀ d ∈ dirs, Path.IsName d) :
    (pathAt root dirs).components = root.components ++ dirs.map .name := by
  induction dirs generalizing root with
  | nil => simp [pathAt]
  | cons d dirs ih =>
      obtain ⟨hd, hdirs⟩ := List.forall_mem_cons.mp h
      rw [pathAt_cons, ih (Path.join_bytes_ne_nil root hd) hdirs,
        Path.components_join hroot hd, List.append_assoc]
      rfl

/-- A leading dot hides no difference between directories below one root. -/
theorem undotted_append_injective {root : Path} (hroot : root.bytes ≠ []) {ds es : Location}
    (h : Path.undotted (root.components ++ ds.map .name) =
      Path.undotted (root.components ++ es.map .name)) : ds = es := by
  have hinj : Function.Injective (List.map Component.name) :=
    List.map_injective_iff.mpr fun _ _ hname => Component.name.inj hname
  rcases Path.components_cases hroot with hc | ⟨c, cs, hc, -⟩ | ⟨c, cs, hc, hne⟩
  · rw [hc, List.singleton_append, List.singleton_append] at h
    -- A lone dot stays, but no directory below the root is called so.
    cases ds with
    | nil =>
        cases es with
        | nil => rfl
        | cons e es => simp at h
    | cons d ds =>
        cases es with
        | nil => simp at h
        | cons e es => exact hinj h
  · rw [hc, List.cons_append, List.cons_append, List.cons_append, List.cons_append,
      Path.undotted_here_cons, Path.undotted_here_cons] at h
    exact hinj (List.append_cancel_left (List.cons.inj h).2)
  · rw [hc, List.cons_append, List.cons_append, Path.undotted_cons_of_ne hne,
      Path.undotted_cons_of_ne hne] at h
    exact hinj (List.append_cancel_left (List.cons.inj h).2)

/-- A file is listed by what is shown of its name. -/
theorem listedName_join {dir : Path} {name : RawText} (hdir : dir.bytes ≠ [])
    (hname : Path.IsName name) : listedName (dir.join name) = name.shown := by
  rw [listedName, Path.fileName?_join hdir hname]
  rfl

/-- **A file is listed under its directory**, without a leading dot. -/
theorem components_listedUnder_join {dir : Path} {name : RawText} (hdir : dir.bytes ≠ [])
    (hname : Path.IsName name) :
    (listedUnder (dir.join name)).components = Path.undotted dir.components := by
  obtain ⟨parent, hparent, hcomponents⟩ := Path.exists_parent_join hdir hname
  have hfull : parent.bytes ≠ [] := fun he => Path.components_ne_nil hdir
    (hcomponents ▸ Path.components_of_bytes_eq_nil he)
  rw [← hcomponents, listedUnder, hparent, Option.getD_some]
  rcases Path.components_cases hfull with hc | ⟨c, cs, hc, -⟩ | ⟨c, cs, hc, hne⟩
  · obtain ⟨bare, hbare, hcs⟩ := Path.exists_behindDot hc
    have hempty : bare.bytes = [] := by
      by_contra he
      exact Path.components_ne_nil he hcs
    rw [hbare, Option.getD_some, if_pos (by simp [hempty]), hc]
    rfl
  · obtain ⟨bare, hbare, hcs⟩ := Path.exists_behindDot hc
    have hbareFull : bare.bytes ≠ [] := fun he => by
      simp [Path.components_of_bytes_eq_nil he] at hcs
    rw [hbare, Option.getD_some, if_neg (by simpa using hbareFull), hcs, hc,
      Path.undotted_here_cons]
  · have hnone : parent.behindDot? = none :=
      Path.behindDot?_eq_none (by simpa [hc] using hne)
    rw [hnone, Option.getD_none, if_neg (by simpa using hfull), hc,
      Path.undotted_cons_of_ne hne]

/-- In a directory whose path has no leading dot, a file has one more component. -/
theorem components_fileIn_of_ne {dir : Path} {name : String} {c : Component}
    {cs : List Component} (hname : Path.IsName (ofText name)) (h : dir.components = c :: cs)
    (hne : c ≠ .here) : (fileIn dir name).components = c :: cs ++ [.name (ofText name)] := by
  have hfull : dir.bytes ≠ [] := fun he => by
    simp [Path.components_of_bytes_eq_nil he] at h
  have hother : ¬ dir.same .here = true := fun he => by
    have hhere := Path.same_iff.mp he
    rw [h] at hhere
    exact hne (List.cons.inj hhere).1
  rw [fileIn, if_neg hother, Path.components_join hfull hname, h]

/-- **The path of a listed file** is that of its name below the directory it was found in, without a
leading dot. -/
theorem components_fileIn {dir under : Path} {name : String} (hdir : dir.bytes ≠ [])
    (hname : Path.IsName (ofText name)) (h : under.components = Path.undotted dir.components) :
    (fileIn under name).components = Path.undotted (dir.join (ofText name)).components := by
  rw [Path.components_join hdir hname]
  rcases Path.components_cases hdir with hc | ⟨c, cs, hc, hne⟩ | ⟨c, cs, hc, hne⟩
  · rw [hc, Path.undotted_here] at h
    rw [fileIn, if_pos (Path.same_iff.mpr h), Path.ofText, hname.components, hc]
    rfl
  · rw [hc, Path.undotted_here_cons] at h
    rw [components_fileIn_of_ne hname h hne, hc]
    rfl
  · rw [hc, Path.undotted_cons_of_ne hne] at h
    rw [components_fileIn_of_ne hname h hne, hc, List.cons_append,
      Path.undotted_cons_of_ne hne]

/-! ### The three sets -/

/-- Whether a path of the walk is listed, and in the set of a kind. -/
def isListedAs (prune : List String) (kind : FileKind) (p : Path) : Bool :=
  isListed prune (listedName p) && FileKind.ofName (listedName p) = kind

theorem FileSets.add_eq_push (sets : FileSets) (dir : Path) (name : String) :
    sets.add dir name = sets.push (FileKind.ofName name) dir name := by
  rw [FileSets.add]
  cases FileKind.ofName name <;> rfl

/-- A survey adds the listed paths of the walk one after another. -/
theorem survey_eq_ofList (fs : FileSystem) (prune : List String) (root : Path) :
    survey fs prune root =
      .ofList (((walk fs prune root).filter fun p => isListed prune (listedName p)).map fun p =>
        (FileKind.ofName (listedName p), listedUnder p, listedName p)) := by
  rw [FileSets.ofList, FileSets.pushAll, List.foldl_map, List.foldl_filter, survey]
  simp only [FileSets.add_eq_push]

/-- **Each set of a survey is built by adding files**: those of its kind that the walk comes to. -/
theorem ofKind_survey (fs : FileSystem) (prune : List String) (root : Path) (kind : FileKind) :
    (survey fs prune root).ofKind kind =
      .ofList (((walk fs prune root).filter (isListedAs prune kind)).map fun p =>
        (listedUnder p, listedName p)) := by
  have hkind : (walk fs prune root).filter (isListedAs prune kind) =
      ((walk fs prune root).filter fun p => isListed prune (listedName p)).filter fun p =>
        FileKind.ofName (listedName p) = kind := by
    rw [List.filter_filter]
    refine List.filter_congr fun p _ => ?_
    rw [isListedAs, Bool.and_comm]
  rw [survey_eq_ofList, FileSets.ofKind_ofList, List.filter_map, List.map_map, hkind]
  simp only [Function.comp_def]

/-! ### The leaves of a survey -/

/-- The leaves below a root that the walk gives. -/
def leavesOf (prune : List String) (root : Path) : Node → List Leaf
  | .dir access entries =>
    if access.read then leavesAmong prune access.execute root entries else []
  | _ => []

/-- **The walk of a directory**: the paths of its leaves. -/
theorem walk_eq_map {fs : FileSystem} {root : Path} {access : Access} {entries : Entries}
    (h : fs.findSelf root = .ok (.dir access entries)) (prune : List String) :
    walk fs prune root = (leavesOf prune root (.dir access entries)).map (leafPath root) := by
  rw [walk, h]
  simp only [filesOfDir, leavesOf]
  split
  · exact filesAmong_eq_map prune access.execute root entries
  · rfl

/-- A path that leads anywhere is not too long. -/
theorem size_le_of_findSelf {fs : FileSystem} {root : Path} {node : Node}
    (h : fs.findSelf root = .ok node) :
    root.bytes ≠ [] ∧ root.bytes.length ≤ pathLimit := by
  rw [FileSystem.findSelf, FileSystem.look] at h
  split_ifs at h with hnul hempty hlong
  all_goals exact ⟨by simpa using hempty, by omega⟩

/-- **The leaves that a survey is to list.**  Names are judged as they are shown. -/
structure Leaf.Listed (prune : List String) (root : Path) (tree : Node) (leaf : Leaf) :
    Prop where
  /-- It is in the tree, and no directory; a link is not followed. -/
  entry : ∃ node, tree.get? (leaf.1 ++ [leaf.2]) = some node ∧ node.isDir = false
  /-- No directory below the root on the way to it is one of version control or pruned. -/
  clear : ∀ d ∈ leaf.1, d.shown ≠ ".git" ∧ d.shown ∉ prune
  /-- Every directory on the way to it, the root among them, can be listed. -/
  opens : Opens root tree leaf.1
  /-- Its name is not pruned. -/
  not_pruned : leaf.2.shown ∉ prune
  /-- Its name is not ignored. -/
  not_ignored : isIgnored leaf.2.shown = false

/-- What the name of a file of a kind ends in. -/
def FileKind.Fits : FileKind → String → Prop
  | .test, name => "_test.go".toList <:+ name.toList
  | .source, name => ¬ "_test.go".toList <:+ name.toList ∧ ".go".toList <:+ name.toList
  | .other, name => ¬ "_test.go".toList <:+ name.toList ∧ ¬ ".go".toList <:+ name.toList

theorem FileKind.fits_ofName (name : String) : (FileKind.ofName name).Fits name := by
  rw [ofName, testEnding, sourceEnding]
  split_ifs with htest hsource
  · exact List.isSuffixOf_iff_suffix.mp htest
  · exact ⟨fun h => htest (List.isSuffixOf_iff_suffix.mpr h),
      List.isSuffixOf_iff_suffix.mp hsource⟩
  · exact ⟨fun h => htest (List.isSuffixOf_iff_suffix.mpr h),
      fun h => hsource (List.isSuffixOf_iff_suffix.mpr h)⟩

theorem mem_leavesOf_iff {prune : List String} {root : Path} {access : Access}
    {entries : Entries} (hnamed : (Node.dir access entries).WellNamed)
    (hsize : root.bytes.length ≤ pathLimit) {leaf : Leaf} :
    leaf ∈ leavesOf prune root (.dir access entries) ↔
      (∃ node, (Node.dir access entries).get? (leaf.1 ++ [leaf.2]) = some node ∧
        node.isDir = false) ∧
      (∀ d ∈ leaf.1, isPrunedDir prune d = false) ∧ Opens root (.dir access entries) leaf.1 := by
  rw [leavesOf]
  split
  · next hread => exact mem_leavesAmong_iff hnamed hread hsize
  · next hread =>
      simp only [List.not_mem_nil, false_iff]
      rintro ⟨-, -, hopens⟩
      obtain ⟨_, _, hget, hread', -⟩ := hopens [] List.nil_prefix
      obtain ⟨rfl, rfl⟩ : access = _ ∧ entries = _ := by simpa [Node.get?] using hget
      exact hread hread'

theorem nodup_leavesOf (prune : List String) (root : Path) {tree : Node}
    (hnamed : tree.WellNamed) : (leavesOf prune root tree).Nodup := by
  unfold leavesOf
  split
  · split
    · exact nodup_leavesAmong prune _ root _ hnamed
    · exact List.nodup_nil
  · exact List.nodup_nil

/-- The leaves to be listed are those of the walk whose names are kept. -/
theorem listed_iff_mem_leavesOf {prune : List String} {root : Path} {access : Access}
    {entries : Entries} (hnamed : (Node.dir access entries).WellNamed)
    (hsize : root.bytes.length ≤ pathLimit) {leaf : Leaf} :
    leaf.Listed prune root (.dir access entries) ↔
      leaf ∈ leavesOf prune root (.dir access entries) ∧ isListed prune leaf.2.shown = true := by
  have hpruned : ∀ d : RawText,
      isPrunedDir prune d = false ↔ d.shown ≠ ".git" ∧ d.shown ∉ prune := by
    intro d
    rw [isPrunedDir, vcsDir, Bool.or_eq_false_iff, beq_eq_false_iff_ne, List.contains_eq_mem,
      decide_eq_false_iff_not]
  have hkept : isListed prune leaf.2.shown = true ↔
      isIgnored leaf.2.shown = false ∧ leaf.2.shown ∉ prune := by
    rw [isListed, Bool.and_eq_true, Bool.not_eq_true', Bool.not_eq_true', List.contains_eq_mem,
      decide_eq_false_iff_not]
  rw [mem_leavesOf_iff hnamed hsize, hkept]
  simp only [hpruned]
  constructor
  · rintro ⟨hentry, hclear, hopens, hprune, hignored⟩
    exact ⟨⟨hentry, hclear, hopens⟩, hignored, hprune⟩
  · rintro ⟨⟨hentry, hclear, hopens⟩, hignored, hprune⟩
    exact ⟨hentry, hclear, hopens, hprune, hignored⟩

/-- The leaves of a survey that belong in the set of a kind. -/
def leavesOfKind (prune : List String) (root : Path) (tree : Node) (kind : FileKind) :
    List Leaf :=
  (leavesOf prune root tree).filter fun leaf =>
    isListed prune leaf.2.shown && FileKind.ofName leaf.2.shown = kind

/-- What a leaf is listed as: its directory without a leading dot, and its name as it is shown. -/
def Leaf.listing (root : Path) (leaf : Leaf) : List Component × String :=
  (Path.undotted (pathAt root leaf.1).components, leaf.2.shown)

section Directory

variable {fs : FileSystem} {prune : List String} {root : Path} {access : Access}
  {entries : Entries}

theorem isName_of_mem_leavesOf (hnamed : (Node.dir access entries).WellNamed)
    (hsize : root.bytes.length ≤ pathLimit) {leaf : Leaf}
    (h : leaf ∈ leavesOf prune root (.dir access entries)) :
    (∀ d ∈ leaf.1, Path.IsName d) ∧ Path.IsName leaf.2 := by
  obtain ⟨⟨node, hget, -⟩, -⟩ := (mem_leavesOf_iff hnamed hsize).mp h
  have hnames := hnamed.isName hget
  exact ⟨fun d hd => hnames d (List.mem_append_left _ hd),
    hnames _ (List.mem_append_right _ List.mem_cons_self)⟩

/-- **Each set of a survey holds the leaves of its kind**, as they are listed. -/
theorem listed_survey (hroot : fs.findSelf root = .ok (.dir access entries))
    (hnamed : (Node.dir access entries).WellNamed) (prune : List String) (kind : FileKind) :
    ((survey fs prune root).ofKind kind).listed.Perm
      ((leavesOfKind prune root (.dir access entries) kind).map (Leaf.listing root)) := by
  obtain ⟨hne, hsize⟩ := size_le_of_findSelf hroot
  have hname : ∀ leaf ∈ leavesOf prune root (.dir access entries),
      listedName (leafPath root leaf) = leaf.2.shown := fun leaf hleaf => by
    obtain ⟨hdirs, hleafName⟩ := isName_of_mem_leavesOf hnamed hsize hleaf
    exact listedName_join (pathAt_bytes_ne_nil hne hdirs) hleafName
  have hdir : ∀ leaf ∈ leavesOf prune root (.dir access entries),
      (listedUnder (leafPath root leaf)).components = (leaf.listing root).1 :=
    fun leaf hleaf => by
      obtain ⟨hdirs, hleafName⟩ := isName_of_mem_leavesOf hnamed hsize hleaf
      exact components_listedUnder_join (pathAt_bytes_ne_nil hne hdirs) hleafName
  -- A path of the walk is listed by the name of its leaf, so the filter may look at leaves.
  have hkind : (leavesOf prune root (.dir access entries)).filter
      (isListedAs prune kind ∘ leafPath root) =
      leavesOfKind prune root (.dir access entries) kind := by
    refine List.filter_congr fun leaf hleaf => ?_
    rw [Function.comp_apply, isListedAs, hname leaf hleaf]
  rw [ofKind_survey, walk_eq_map hroot, List.filter_map, hkind]
  refine (FileSet.listed_ofList _).trans (List.Perm.of_eq ?_)
  rw [List.map_map, List.map_map]
  refine List.map_congr_left fun leaf hleaf => ?_
  have hmem := List.mem_of_mem_filter hleaf
  rw [Function.comp_apply, Function.comp_apply, hname leaf hmem, hdir leaf hmem]
  rfl

/-- Leaves that are listed alike are in one directory, and their names are shown alike. -/
theorem eq_of_listing_eq (hne : root.bytes ≠ []) {leaf leaf' : Leaf}
    (h : ∀ d ∈ leaf.1, Path.IsName d) (h' : ∀ d ∈ leaf'.1, Path.IsName d)
    (heq : leaf.listing root = leaf'.listing root) :
    leaf.1 = leaf'.1 ∧ leaf.2.shown = leaf'.2.shown := by
  obtain ⟨hdir, hname⟩ := Prod.mk.inj heq
  rw [components_pathAt hne h, components_pathAt hne h'] at hdir
  exact ⟨undotted_append_injective hne hdir, hname⟩

theorem mem_leavesOfKind (hnamed : (Node.dir access entries).WellNamed)
    (hsize : root.bytes.length ≤ pathLimit) {kind : FileKind} {leaf : Leaf} :
    leaf ∈ leavesOfKind prune root (.dir access entries) kind ↔
      leaf.Listed prune root (.dir access entries) ∧ FileKind.ofName leaf.2.shown = kind := by
  rw [leavesOfKind, List.mem_filter, Bool.and_eq_true, decide_eq_true_eq,
    listed_iff_mem_leavesOf hnamed hsize, and_assoc]

/-- The kinds share the leaves out among them. -/
theorem length_leavesOfKind (prune : List String) (root : Path) (tree : Node) :
    (leavesOfKind prune root tree .source).length + (leavesOfKind prune root tree .test).length +
        (leavesOfKind prune root tree .other).length =
      ((leavesOf prune root tree).filter fun leaf => isListed prune leaf.2.shown).length := by
  simp only [leavesOfKind]
  induction leavesOf prune root tree with
  | nil => rfl
  | cons leaf leaves ih =>
      simp only [List.filter_cons]
      by_cases hlisted : isListed prune leaf.2.shown = true
      · cases hkind : FileKind.ofName leaf.2.shown <;> simp [hlisted] <;> omega
      · simp [hlisted]
        omega

/-- A set holds the listings of the leaves of its kind that are to be listed, and nothing else. -/
theorem mem_listed_survey (hroot : fs.findSelf root = .ok (.dir access entries))
    (hnamed : (Node.dir access entries).WellNamed) {kind : FileKind}
    {e : List Component × String} :
    e ∈ ((survey fs prune root).ofKind kind).listed ↔
      ∃ leaf : Leaf, (leaf.Listed prune root (.dir access entries) ∧
        FileKind.ofName leaf.2.shown = kind) ∧ leaf.listing root = e := by
  obtain ⟨-, hsize⟩ := size_le_of_findSelf hroot
  rw [(listed_survey hroot hnamed prune kind).mem_iff, List.mem_map]
  simp only [mem_leavesOfKind hnamed hsize]

/-- The sets of a survey hold one file for each leaf to be listed. -/
theorem fileCount_survey (hroot : fs.findSelf root = .ok (.dir access entries))
    (hnamed : (Node.dir access entries).WellNamed) (prune : List String) :
    (survey fs prune root).fileCount =
      {leaf : Leaf | leaf.Listed prune root (.dir access entries)}.ncard := by
  obtain ⟨-, hsize⟩ := size_le_of_findSelf hroot
  have hcount : ∀ kind, ((survey fs prune root).ofKind kind).fileCount =
      (leavesOfKind prune root (.dir access entries) kind).length := by
    intro kind
    rw [FileSet.fileCount_eq_length_listed, (listed_survey hroot hnamed prune kind).length_eq,
      List.length_map]
  have hset : {leaf : Leaf | leaf.Listed prune root (.dir access entries)} =
      ((leavesOf prune root (.dir access entries)).filter
        fun leaf => isListed prune leaf.2.shown).toFinset := by
    ext leaf
    rw [Set.mem_ofPred_eq, listed_iff_mem_leavesOf hnamed hsize, Finset.mem_coe,
      List.mem_toFinset, List.mem_filter]
  rw [hset, Set.ncard_coe_finset,
    List.toFinset_card_of_nodup ((nodup_leavesOf prune root hnamed).filter _),
    ← length_leavesOfKind, ← hcount, ← hcount, ← hcount]
  rfl

end Directory

/-- **What the three sets of a survey are.** -/
structure IsSurvey (prune : List String) (root : Path) (tree : Node) (sets : FileSets) :
    Prop where
  /-- A leaf of the tree is in some set exactly if it is to be listed. -/
  mem_iff : ∀ leaf : Leaf,
    (∃ node, tree.get? (leaf.1 ++ [leaf.2]) = some node ∧ node.isDir = false) →
      ((∃ kind, leaf.listing root ∈ (sets.ofKind kind).listed) ↔ leaf.Listed prune root tree)
  /-- A set has one place for each leaf of its kind that is to be listed, and no others. -/
  lists : ∀ kind, ∃ leaves : List Leaf, leaves.Nodup ∧
    (∀ leaf, leaf ∈ leaves ↔
      leaf.Listed prune root tree ∧ FileKind.ofName leaf.2.shown = kind) ∧
    (sets.ofKind kind).listed.Perm (leaves.map (Leaf.listing root))
  /-- If all names are texts, nothing stands in a set twice. -/
  nodup : (∀ leaf : Leaf, leaf.Listed prune root tree → leaf.2.IsText) →
    ∀ kind, (sets.ofKind kind).listed.Nodup
  /-- A set holds names of its kind, so that none is in two sets. -/
  fits : ∀ kind, ∀ e ∈ (sets.ofKind kind).listed, kind.Fits e.2
  /-- Every name in a bucket is what is shown of that of a leaf to be listed.  The bucket is that of its
  directory.  The path built from the two is that of the leaf with its name decoded, both without a
  leading dot; so it is that of the leaf exactly if the name is a text. -/
  bucket : ∀ kind, ∀ b ∈ (sets.ofKind kind).buckets, ∀ name ∈ b.names, ∃ leaf : Leaf,
    leaf.Listed prune root tree ∧ name = leaf.2.shown ∧
      b.dir.components = Path.undotted (pathAt root leaf.1).components ∧
      (fileIn b.dir name).components =
        Path.undotted (leafPath root (leaf.1, leaf.2.decoded)).components ∧
      ((fileIn b.dir name).components = Path.undotted (leafPath root leaf).components ↔
        leaf.2.IsText)
  /-- There are as many files as leaves to be listed. -/
  fileCount : sets.fileCount = {leaf : Leaf | leaf.Listed prune root tree}.ncard

/-- The path of a leaf below the working directory, without a leading dot, is its names. -/
theorem undotted_leafPath_here (leaf : Leaf) (hdirs : ∀ d ∈ leaf.1, Path.IsName d)
    (hname : Path.IsName leaf.2) :
    Path.undotted (leafPath .here leaf).components = (leaf.1 ++ [leaf.2]).map .name := by
  have hhere : Path.here.bytes ≠ [] := by decide
  have hdot : Path.here.components = [.here] := by decide
  have hcomponents : (leafPath .here leaf).components =
      .here :: (leaf.1 ++ [leaf.2]).map .name := by
    rw [leafPath, Path.components_join (pathAt_bytes_ne_nil hhere hdirs) hname,
      components_pathAt hhere hdirs, hdot]
    simp
  rw [hcomponents]
  -- There is a name behind the dot, so the dot is left out.
  cases hnames : leaf.1 ++ [leaf.2] with
  | nil => simp at hnames
  | cons first rest => rfl

/-- Leaves of one directory have one path exactly if they have one name. -/
theorem undotted_leafPath_inj {root : Path} (hroot : root.bytes ≠ []) {dirs : Location}
    (hdirs : ∀ d ∈ dirs, Path.IsName d) {name other : RawText} (hname : Path.IsName name)
    (hother : Path.IsName other) :
    Path.undotted (leafPath root (dirs, name)).components =
      Path.undotted (leafPath root (dirs, other)).components ↔ name = other := by
  have hlocation (name : RawText) (hname : Path.IsName name) :
      (leafPath root (dirs, name)).components = root.components ++ (dirs ++ [name]).map .name := by
    rw [leafPath, Path.components_join (pathAt_bytes_ne_nil hroot hdirs) hname,
      components_pathAt hroot hdirs, List.append_assoc, List.map_append]
    rfl
  constructor
  · intro h
    rw [hlocation name hname, hlocation other hother] at h
    exact List.singleton_inj.mp (List.append_cancel_left (undotted_append_injective hroot h))
  · rintro rfl
    rfl

/-- **A survey lists what it is to list**, for every root that is a directory. -/
theorem isSurvey_survey {fs : FileSystem} {root : Path} {access : Access} {entries : Entries}
    (hroot : fs.findSelf root = .ok (.dir access entries))
    (hnamed : (Node.dir access entries).WellNamed) (prune : List String) :
    IsSurvey prune root (.dir access entries) (survey fs prune root) := by
  obtain ⟨hne, hsize⟩ := size_le_of_findSelf hroot
  have hproper : ∀ {leaf : Leaf}, leaf.Listed prune root (.dir access entries) →
      (∀ d ∈ leaf.1, Path.IsName d) ∧ Path.IsName leaf.2 := fun h =>
    isName_of_mem_leavesOf hnamed hsize ((listed_iff_mem_leavesOf hnamed hsize).mp h).1
  constructor
  case mem_iff =>
    rintro leaf ⟨node, hget, hleaf⟩
    have hdirs : ∀ d ∈ leaf.1, Path.IsName d := fun d hd =>
      hnamed.isName hget d (List.mem_append_left _ hd)
    constructor
    · -- Leaves that are listed alike are judged alike, so what holds of one holds of the other.
      rintro ⟨kind, h⟩
      obtain ⟨leaf', ⟨hlisted, -⟩, heq⟩ := (mem_listed_survey hroot hnamed).mp h
      obtain ⟨hdir, hname⟩ := eq_of_listing_eq hne (hproper hlisted).1 hdirs heq
      exact ⟨⟨node, hget, hleaf⟩, hdir ▸ hlisted.clear, hdir ▸ hlisted.opens,
        hname ▸ hlisted.not_pruned, hname ▸ hlisted.not_ignored⟩
    · intro hlisted
      exact ⟨_, (mem_listed_survey hroot hnamed).mpr ⟨leaf, ⟨hlisted, rfl⟩, rfl⟩⟩
  case lists =>
    intro kind
    exact ⟨leavesOfKind prune root (.dir access entries) kind,
      (nodup_leavesOf prune root hnamed).filter _, fun leaf => mem_leavesOfKind hnamed hsize,
      listed_survey hroot hnamed prune kind⟩
  case nodup =>
    intro htext kind
    rw [(listed_survey hroot hnamed prune kind).nodup_iff]
    refine List.Nodup.map_on ?_ ((nodup_leavesOf prune root hnamed).filter _)
    intro leaf hleaf leaf' hleaf' heq
    obtain ⟨hlisted, -⟩ := (mem_leavesOfKind hnamed hsize).mp hleaf
    obtain ⟨hlisted', -⟩ := (mem_leavesOfKind hnamed hsize).mp hleaf'
    obtain ⟨hdir, hname⟩ := eq_of_listing_eq hne (hproper hlisted).1 (hproper hlisted').1 heq
    refine Prod.ext hdir ?_
    rw [← htext leaf hlisted, ← htext leaf' hlisted', decoded, decoded, hname]
  case fits =>
    intro kind e he
    obtain ⟨leaf, ⟨-, rfl⟩, rfl⟩ := (mem_listed_survey hroot hnamed).mp he
    exact FileKind.fits_ofName leaf.2.shown
  case bucket =>
    intro kind b hb name hname
    obtain ⟨leaf, ⟨hlisted, -⟩, heq⟩ :=
      (mem_listed_survey hroot hnamed).mp (FileSet.mem_listed.mpr ⟨b, hb, rfl, hname⟩)
    obtain ⟨hdir, rfl⟩ := Prod.mk.inj heq
    obtain ⟨hdirs, hleaf⟩ := hproper hlisted
    have hpath : (fileIn b.dir leaf.2.shown).components =
        Path.undotted (leafPath root (leaf.1, leaf.2.decoded)).components :=
      components_fileIn (pathAt_bytes_ne_nil hne hdirs) hleaf.decoded hdir.symm
    refine ⟨leaf, hlisted, rfl, hdir.symm, hpath, ?_⟩
    rw [hpath]
    exact undotted_leafPath_inj hne hdirs hleaf.decoded hleaf
  case fileCount => exact fileCount_survey hroot hnamed prune

/-- A tree with directories of version control, of foreign code, and without access, and with a link
and an image among its files. -/
def sampleEntries : Entries :=
  .entry (ofText ".git") (.dir .full (.entry (ofText "hook.go") (.file .ofFile []) .none)) <|
  .entry (ofText "pkg") (.dir .full (.entry (ofText "b_test.go") (.file .ofFile [])
    (.entry (ofText "b.go") (.file .ofFile []) .none))) <|
  .entry (ofText "closed")
    (.dir ⟨false, true, true⟩ (.entry (ofText "c.go") (.file .ofFile []) .none)) <|
  .entry (ofText "link.go") (.link (ofText "pkg/b.go")) <|
  .entry (ofText "logo.png") (.file .ofFile []) <|
  .entry (ofText "vendor")
    (.dir .full (.entry (ofText "v.go") (.file .ofFile []) .none)) .none

theorem findSelf_sampleEntries :
    (⟨.dir .full sampleEntries, []⟩ : FileSystem).findSelf .here =
      .ok (.dir .full sampleEntries) := by
  cbv

/-- What is listed of the tree: a file and a test in one directory, and the link at the top. -/
theorem isSurvey_survey_sampleEntries :
    (Node.dir .full sampleEntries).WellNamed ∧
    survey ⟨.dir .full sampleEntries, []⟩ ["vendor"] .here =
      { source := ⟨[⟨.ofText ".", ["link.go"]⟩, ⟨.ofText "pkg", ["b.go"]⟩]⟩
        test := ⟨[⟨.ofText "pkg", ["b_test.go"]⟩]⟩ } ∧
    IsSurvey ["vendor"] .here (.dir .full sampleEntries)
      (survey ⟨.dir .full sampleEntries, []⟩ ["vendor"] .here) := by
  have hnamed : (Node.dir .full sampleEntries).WellNamed := by
    simp only [Node.WellNamed, sampleEntries, Entries.WellNamed]
    decide +kernel
  refine ⟨hnamed, ?_, isSurvey_survey findSelf_sampleEntries hnamed ["vendor"]⟩
  rw [survey, walk, findSelf_sampleEntries]
  decide +kernel

/-! ### Names that are no text, and paths that are too long -/

/-- A file whose name starts with a byte that no text has, and whose extension is that of sources. -/
def brokenName : RawText := 0xFF :: ofText ".go"

/-- A tree that holds this file. -/
def brokenEntries : Entries := .entry brokenName (.file .ofFile []) .none

/-- It is listed, under a name that no entry of the tree has. -/
theorem survey_brokenName :
    survey ⟨.dir .full brokenEntries, []⟩ [] .here =
      { source := ⟨[⟨.ofText ".", ["\uFFFD.go"]⟩]⟩ } := by
  have hroot : (⟨.dir .full brokenEntries, []⟩ : FileSystem).findSelf .here =
      .ok (.dir .full brokenEntries) := by
    cbv
  rw [survey, walk, hroot]
  decide +kernel

/-- **Below a directory with a path that is too long nothing is listed.** -/
theorem Leaf.not_listed_of_long {prune : List String} {root : Path} {tree : Node} {leaf : Leaf}
    (h : pathLimit < (pathAt root leaf.1).bytes.length) : ¬ leaf.Listed prune root tree := by
  intro hlisted
  obtain ⟨_, _, _, _, _, hsize⟩ := hlisted.opens leaf.1 List.prefix_rfl
  omega

/-- A spelling of the current directory: dots with slashes between them. -/
def dots (n : Nat) : RawText := dot :: (List.replicate n [slash, dot]).flatten

theorem segments_dots (n : Nat) : Path.segments (dots n) = List.replicate (n + 1) [dot] := by
  induction n with
  | zero => rfl
  | succ n ih =>
      rw [dots, List.replicate_succ, List.flatten_cons]
      show Path.segments (dot :: slash :: dots n) = _
      rw [Path.segments_dot_slash, ih]
      rfl

theorem length_dots (n : Nat) : (dots n).length = 2 * n + 1 := by
  simp [dots, Nat.mul_comm]

theorem namesOf_dots (n : Nat) : namesOf (dots n) = List.replicate (n + 1) [dot] := by
  have hlast : (List.replicate (n + 1) [dot]).getLast? ≠ some [] := by
    rw [List.getLast?_replicate]
    simp
  rw [namesOf, segments_dots]
  simp [hlast]

theorem isAskable_dots {n : Nat} (h : 2 * n + 1 ≤ pathLimit) : IsAskable ⟨dots n⟩ where
  nul_notMem := by
    intro hnul
    rw [dots, List.mem_cons, List.mem_flatten] at hnul
    rcases hnul with hnul | ⟨piece, hpiece, hnul⟩
    · exact absurd hnul (by decide)
    · rw [List.eq_of_mem_replicate hpiece] at hnul
      exact absurd hnul (by decide)
  ne_empty := List.cons_ne_nil _ _
  size := by rwa [length_dots]

/-- **Dots lead to the working directory.** -/
theorem findSelf_dots {n : Nat} (h : 2 * n + 1 ≤ pathLimit) (entries : Entries) :
    (⟨.dir .full entries, []⟩ : FileSystem).findSelf ⟨dots n⟩ = .ok (.dir .full entries) := by
  have hstay (m : Nat) : lookFrom (.dir .full entries) .entry linkLimit [] (List.replicate m [dot]) =
      .ok (.found [] (.dir .full entries)) := by
    induction m with
    | zero => rw [List.replicate_zero, lookFrom]; rfl
    | succ m ih =>
        rw [List.replicate_succ, lookFrom_stay ⟨_, entries, rfl, rfl⟩ (.inr rfl), ih]
  have hstart : FileSystem.start ⟨.dir .full entries, []⟩ ⟨dots n⟩ = [] := ite_self _
  rw [FileSystem.findSelf, FileSystem.look_eq (isAskable_dots h), hstart, namesOf_dots, hstay]

theorem length_le_length_join (dir : Path) {name : RawText} (h : name.head? ≠ some slash) :
    dir.bytes.length + name.length ≤ (dir.join name).bytes.length := by
  rw [Path.join, if_neg h]
  split
  · rw [List.length_append]
  · rw [List.length_append, List.length_cons]
    omega

/-- A tree with a directory in it. -/
def deepEntries : Entries :=
  .entry (ofText "a.go") (.file .ofFile []) <|
  .entry (ofText "sub") (.dir .full (.entry (ofText "x.go") (.file .ofFile []) .none)) .none

/-- The file in this directory. -/
def deepLeaf : Leaf := ([ofText "sub"], ofText "x.go")

/-- **Every directory on the way may be read and passed.** -/
def MayRead (tree : Node) (dirs : Location) : Prop :=
  ∀ above, above <+: dirs → ∃ access entries, tree.get? above = some (.dir access entries) ∧
    access.read = true ∧ access.execute = true

theorem mayRead_deepLeaf : MayRead (.dir .full deepEntries) deepLeaf.1 := by
  intro above habove
  rcases List.prefix_cons_iff.mp habove with rfl | ⟨rest, rfl, hrest⟩
  · exact ⟨_, _, rfl, rfl, rfl⟩
  · obtain rfl := List.prefix_nil.mp hrest
    exact ⟨_, _, rfl, rfl, rfl⟩

/-- Below a root of many dots, the path of this directory is too long. -/
theorem pathLimit_lt_deepLeaf {n : Nat} (h : pathLimit < 2 * n + 4) :
    pathLimit < (pathAt ⟨dots n⟩ deepLeaf.1).bytes.length := by
  have hname : (ofText "sub").head? ≠ some slash := by decide +kernel
  have hlength : (ofText "sub").length = 3 := by decide +kernel
  have hlong := length_le_length_join ⟨dots n⟩ hname
  rw [length_dots, hlength] at hlong
  exact lt_of_lt_of_le h hlong

/-- **A survey does not give every leaf its path, and it does not list every leaf that may be read**: a
name that is no text is listed as another one, and a directory with too long a path is left out. -/
theorem survey_not_exact :
    (¬ ∀ (fs : FileSystem) (root : Path) (access : Access) (entries : Entries)
        (prune : List String), fs.findSelf root = .ok (.dir access entries) →
        (Node.dir access entries).WellNamed →
          ∀ kind, ∀ b ∈ ((survey fs prune root).ofKind kind).buckets, ∀ name ∈ b.names,
            ∃ leaf : Leaf,
              (∃ node, (Node.dir access entries).get? (leaf.1 ++ [leaf.2]) = some node) ∧
              (fileIn b.dir name).components = Path.undotted (leafPath root leaf).components) ∧
    (¬ ∀ (fs : FileSystem) (root : Path) (access : Access) (entries : Entries)
        (prune : List String), fs.findSelf root = .ok (.dir access entries) →
        (Node.dir access entries).WellNamed →
          ∀ leaf : Leaf,
            (∃ node, (Node.dir access entries).get? (leaf.1 ++ [leaf.2]) = some node ∧
              node.isDir = false) →
            (∀ d ∈ leaf.1, d.shown ≠ ".git" ∧ d.shown ∉ prune) → leaf.2.shown ∉ prune →
            isIgnored leaf.2.shown = false → MayRead (.dir access entries) leaf.1 →
              ∃ kind, leaf.listing root ∈ ((survey fs prune root).ofKind kind).listed) := by
  constructor
  · intro h
    have hroot : (⟨.dir .full brokenEntries, []⟩ : FileSystem).findSelf .here =
        .ok (.dir .full brokenEntries) := by
      cbv
    have hnamed : (Node.dir .full brokenEntries).WellNamed := by
      simp only [Node.WellNamed, brokenEntries, Entries.WellNamed]
      decide +kernel
    obtain ⟨leaf, ⟨node, hget⟩, hpath⟩ := h _ .here .full brokenEntries [] hroot hnamed .source
      ⟨.ofText ".", ["\uFFFD.go"]⟩ (by rw [survey_brokenName]; exact List.mem_cons_self)
      "\uFFFD.go" List.mem_cons_self
    have hnames := hnamed.isName hget
    rw [undotted_leafPath_here leaf (fun d hd => hnames d (List.mem_append_left _ hd))
      (hnames _ (List.mem_append_right _ List.mem_cons_self))] at hpath
    have hlisted : (fileIn (.ofText ".") "\uFFFD.go").components = [ofText "\uFFFD.go"].map .name := by
      decide +kernel
    -- The path that was built leads to no entry.
    have hinj : Function.Injective (List.map Component.name) :=
      List.map_injective_iff.mpr fun _ _ hname => Component.name.inj hname
    rw [← hinj (hlisted.symm.trans hpath)] at hget
    have hnone : (Node.dir .full brokenEntries).get? [ofText "\uFFFD.go"] = none := by decide +kernel
    rw [hnone] at hget
    cases hget
  · intro h
    have hnamed : (Node.dir .full deepEntries).WellNamed := by
      simp only [Node.WellNamed, deepEntries, Entries.WellNamed]
      decide +kernel
    have hroot := findSelf_dots (n := 2046) (by decide) deepEntries
    obtain ⟨hne, hsize⟩ := size_le_of_findSelf hroot
    obtain ⟨kind, hmem⟩ := h _ ⟨dots 2046⟩ .full deepEntries [] hroot hnamed deepLeaf
      ⟨_, rfl, rfl⟩ (by decide +kernel) (by decide) (by decide +kernel) mayRead_deepLeaf
    obtain ⟨leaf, ⟨hlisted, -⟩, heq⟩ := (mem_listed_survey hroot hnamed).mp hmem
    have hproper := isName_of_mem_leavesOf hnamed hsize
      ((listed_iff_mem_leavesOf hnamed hsize).mp hlisted).1
    obtain ⟨hdirs, -⟩ := eq_of_listing_eq hne hproper.1 (by decide +kernel) heq
    refine Leaf.not_listed_of_long ?_ hlisted
    rw [hdirs]
    exact pathLimit_lt_deepLeaf (by decide)

end LintSuite
