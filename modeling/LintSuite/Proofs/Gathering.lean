import LintSuite.Proofs.FileSet

/-!
# What a set answers about the files that were added

A set is asked for the files of a directory, for their number, and whether it has a file.  All of
these answers are settled by one question: which group does a directory have (`bucket?`)?  For a set
that was built by adding files, the group of a directory has the names that were added to it in any
of its spellings, in that order, under the spelling that came first (`bucket?_ofList`).

A set of the right shape is determined by its groups (`Valid.eq_of_bucket?`).  So the order in which
files are added matters within a directory alone.

`Gathers` puts the answers together, and `gathers_ofList` says that they hold after any sequence of
additions.

### Design decisions

**One question.**  All answers of a set go through the group of a directory, so they agree with each
other by construction: the names that are given for a directory, the number of files, and whether a
path is contained cannot say different things.

**Spelling and meaning.**  A directory is asked for by a path and found by what the path means, and its
group keeps the spelling that came first.  `bucket?_ofList` says both in one equation: the names
are those of all spellings, and the spelling is that of the first file.

### What is load-bearing

`Valid.eq_of_bucket?`: a set in which the order is strict is determined by its groups.  With it, that
files of different directories may change places is no induction over insertions but a fact about
which files each directory gets (`filesIn_swap`).
-/

namespace LintSuite

/-- A file is found in its directory however the directory is spelled. -/
theorem components_fileIn_congr {dir dir' : Path} (h : dir.components = dir'.components)
    (name : String) : (fileIn dir name).components = (fileIn dir' name).components := by
  have hhere : dir.same .here = dir'.same .here := by rw [Path.same, Path.same, h]
  rw [fileIn, fileIn, hhere]
  split
  · rfl
  · exact Path.components_join_congr h _

namespace FileSet

/-! ### The group of a directory -/

/-- The group of a directory among some groups. -/
def bucketIn (buckets : List Bucket) (dir : Path) : Option Bucket :=
  buckets.find? (·.dir.same dir)

/-- **The group of a directory**, if the set has one. -/
def bucket? (set : FileSet) (dir : Path) : Option Bucket :=
  bucketIn set.buckets dir

theorem get?_eq_map_bucket? (set : FileSet) (dir : Path) :
    set.get? dir = (set.bucket? dir).map Bucket.names := rfl

/-- A group with one more name, or a new group for it. -/
def grown (dir : Path) (name : String) : Option Bucket → Bucket
  | none => ⟨dir, [name]⟩
  | some b => ⟨b.dir, b.names ++ [name]⟩

theorem bucketIn_cons_of_same (b : Bucket) (rest : List Bucket) {dir : Path}
    (h : b.dir.components = dir.components) : bucketIn (b :: rest) dir = some b :=
  List.find?_cons_of_pos (Path.same_iff.mpr h)

theorem bucketIn_cons_of_not_same (b : Bucket) (rest : List Bucket) {dir : Path}
    (h : b.dir.components ≠ dir.components) : bucketIn (b :: rest) dir = bucketIn rest dir :=
  List.find?_cons_of_neg (mt Path.same_iff.mp h)

/-- A directory in front of all groups has none. -/
theorem bucketIn_eq_none_of_lt {dir : Path} {buckets : List Bucket}
    (h : ∀ b ∈ buckets, dir.order b.dir = .lt) : bucketIn buckets dir = none := by
  rw [bucketIn, List.find?_eq_none]
  intro b hb hsame
  have heq : dir.order b.dir = .eq := Path.order_eq_eq_iff.mpr (Path.same_iff.mp hsame).symm
  rw [h b hb] at heq
  contradiction

theorem components_ne_of_lt {p q : Path} (h : p.order q = .lt) : p.components ≠ q.components := by
  intro he
  rw [Path.order_eq_eq_iff.mpr he] at h
  contradiction

/-- **Adding a name changes one group**, that of its directory. -/
theorem bucketIn_insert {buckets : List Bucket} (h : Sorted buckets) (dir : Path) (name : String)
    (other : Path) :
    bucketIn (insert dir name buckets) other =
      if dir.components = other.components then some (grown dir name (bucketIn buckets other))
      else bucketIn buckets other := by
  induction buckets with
  | nil =>
      split
      · next hsame => exact bucketIn_cons_of_same ⟨dir, [name]⟩ [] hsame
      · next hsame => exact bucketIn_cons_of_not_same ⟨dir, [name]⟩ [] hsame
  | cons b rest ih =>
      obtain ⟨hb, hrest⟩ := List.pairwise_cons.mp h
      cases ho : dir.order b.dir with
      | lt =>
          rw [insert_cons_of_lt ho]
          split
          · next hsame =>
              -- Every group that is there comes behind the directory, so this one has none yet.
              have hnone : bucketIn (b :: rest) other = none := by
                refine bucketIn_eq_none_of_lt fun c hc => ?_
                rw [← Path.order_congr_left hsame]
                rcases List.mem_cons.mp hc with rfl | hc
                · exact ho
                · exact Path.order_lt_trans ho (hb c hc)
              rw [hnone]
              exact bucketIn_cons_of_same ⟨dir, [name]⟩ (b :: rest) hsame
          · next hsame => exact bucketIn_cons_of_not_same ⟨dir, [name]⟩ (b :: rest) hsame
      | eq =>
          have hdir : dir.components = b.dir.components := Path.order_eq_eq_iff.mp ho
          rw [insert_cons_of_eq ho, hdir]
          split
          · next hsame =>
              rw [bucketIn_cons_of_same b rest hsame]
              exact bucketIn_cons_of_same ⟨b.dir, b.names ++ [name]⟩ rest hsame
          · next hsame =>
              rw [bucketIn_cons_of_not_same b rest hsame]
              exact bucketIn_cons_of_not_same ⟨b.dir, b.names ++ [name]⟩ rest hsame
      | gt =>
          have hdir : b.dir.components ≠ dir.components :=
            components_ne_of_lt (Path.order_eq_gt_iff.mp ho)
          rw [insert_cons_of_gt ho]
          by_cases hsame : b.dir.components = other.components
          · rw [bucketIn_cons_of_same b _ hsame, bucketIn_cons_of_same b rest hsame,
              if_neg fun he => hdir (hsame.trans he.symm)]
          · rw [bucketIn_cons_of_not_same b _ hsame, bucketIn_cons_of_not_same b rest hsame,
              ih hrest]

/-! ### Sets that were built -/

/-- Those of some files that were added to a directory, in any of its spellings. -/
def filesIn (files : List (Path × String)) (dir : Path) : List (Path × String) :=
  files.filter (·.1.same dir)

/-- The group that the files of one directory make. -/
def bucketOf? : List (Path × String) → Option Bucket
  | [] => none
  | f :: rest => some ⟨f.1, f.2 :: rest.map Prod.snd⟩

theorem bucketOf?_concat (files : List (Path × String)) (f : Path × String) :
    bucketOf? (files ++ [f]) = some (grown f.1 f.2 (bucketOf? files)) := by
  cases files with
  | nil => rfl
  | cons g rest => simp [bucketOf?, grown]

theorem map_names_bucketOf? (files : List (Path × String)) :
    (bucketOf? files).map Bucket.names =
      if files = [] then none else some (files.map Prod.snd) := by
  cases files with
  | nil => rfl
  | cons f rest => simp [bucketOf?]

theorem ofList_concat (files : List (Path × String)) (f : Path × String) :
    ofList (files ++ [f]) = (ofList files).push f.1 f.2 := by
  rw [ofList, List.foldl_append]
  rfl

theorem filesIn_concat (files : List (Path × String)) (f : Path × String) (dir : Path) :
    filesIn (files ++ [f]) dir =
      if f.1.components = dir.components then filesIn files dir ++ [f] else filesIn files dir := by
  rw [filesIn, List.filter_append, List.filter_singleton]
  by_cases hsame : f.1.components = dir.components
  · rw [if_pos hsame, Path.same_iff.mpr hsame]
    rfl
  · rw [if_neg hsame, Bool.eq_false_iff.mpr (mt Path.same_iff.mp hsame)]
    exact List.append_nil _

/-- **The group of a directory** is made of the files that were added to it. -/
theorem bucket?_ofList (files : List (Path × String)) (dir : Path) :
    (ofList files).bucket? dir = bucketOf? (filesIn files dir) := by
  induction files using List.reverseRecOn with
  | nil => rfl
  | append_singleton files f ih =>
      rw [bucket?] at ih
      rw [ofList_concat, bucket?, push, bucketIn_insert (valid_ofList files).sorted, ih,
        filesIn_concat]
      split
      · rw [bucketOf?_concat]
      · rfl

/-- A group is that of its own directory. -/
theorem bucketIn_of_mem {buckets : List Bucket} (h : Sorted buckets) {b : Bucket}
    (hb : b ∈ buckets) : bucketIn buckets b.dir = some b := by
  induction buckets with
  | nil => exact absurd hb List.not_mem_nil
  | cons c rest ih =>
      obtain ⟨hc, hrest⟩ := List.pairwise_cons.mp h
      rcases List.mem_cons.mp hb with rfl | hb
      · exact bucketIn_cons_of_same b rest rfl
      · rw [bucketIn_cons_of_not_same c rest (components_ne_of_lt (hc b hb)), ih hrest hb]

theorem mem_buckets_iff {set : FileSet} (h : set.Valid) {b : Bucket} :
    b ∈ set.buckets ↔ set.bucket? b.dir = some b :=
  ⟨bucketIn_of_mem h.sorted, List.mem_of_find?_eq_some⟩

theorem nodup_components {buckets : List Bucket} (h : Sorted buckets) :
    (buckets.map fun b => b.dir.components).Nodup :=
  List.pairwise_map.mpr (h.imp components_ne_of_lt)

/-- **A set is determined by the groups of its directories.** -/
theorem Valid.eq_of_bucket? {set set' : FileSet} (h : set.Valid) (h' : set'.Valid)
    (hbuckets : ∀ dir, set.bucket? dir = set'.bucket? dir) : set = set' := by
  have hmem : ∀ b, b ∈ set.buckets ↔ b ∈ set'.buckets := by
    intro b
    rw [mem_buckets_iff h, mem_buckets_iff h', hbuckets]
  have hperm : set.buckets.Perm set'.buckets :=
    (List.perm_ext_iff_of_nodup (nodup_components h.sorted).of_map
      (nodup_components h'.sorted).of_map).mpr hmem
  have heq : set.buckets = set'.buckets := by
    refine hperm.eq_of_pairwise (fun b c _ _ hbc hcb => ?_) h.sorted h'.sorted
    exact absurd rfl (components_ne_of_lt (Path.order_lt_trans hbc hcb))
  cases set
  cases set'
  rw [mk.injEq]
  exact heq

/-- The directories of a set are those that files were added to. -/
theorem mem_components_ofList {files : List (Path × String)} {cs : List Component} :
    cs ∈ (ofList files).buckets.map (fun b => b.dir.components) ↔
      cs ∈ files.map fun f => f.1.components := by
  have hlisted : ∀ name, (cs, name) ∈ (ofList files).listed ↔
      (cs, name) ∈ files.map fun f => (f.1.components, f.2) :=
    fun name => (listed_ofList files).mem_iff
  simp only [mem_listed, List.mem_map, Prod.mk.injEq] at hlisted
  rw [List.mem_map, List.mem_map]
  constructor
  · rintro ⟨b, hb, hcs⟩
    obtain ⟨name, hname⟩ := List.exists_mem_of_ne_nil _ ((valid_ofList files).filled b hb)
    obtain ⟨f, hf, hdir, -⟩ := (hlisted name).mp ⟨b, hb, hcs, hname⟩
    exact ⟨f, hf, hdir⟩
  · rintro ⟨f, hf, hcs⟩
    obtain ⟨b, hb, hdir, -⟩ := (hlisted f.2).mpr ⟨f, hf, hcs, rfl⟩
    exact ⟨b, hb, hdir⟩

/-! ### Membership of a path -/

theorem contains_iff_mem_paths {set : FileSet} {p : Path} :
    set.contains p = true ↔ ∃ q ∈ set.paths, q.same p = true := by
  simp only [contains, paths, Bucket.paths, List.any_eq_true, List.mem_flatMap, List.mem_map]
  constructor
  · rintro ⟨b, hb, name, hname, hsame⟩
    exact ⟨fileIn b.dir name, ⟨b, hb, name, hname, rfl⟩, hsame⟩
  · rintro ⟨_, ⟨b, hb, name, hname, rfl⟩, hsame⟩
    exact ⟨b, hb, name, hname, hsame⟩

/-- **A set contains a path** if a file that was added lies there. -/
theorem contains_ofList_iff {files : List (Path × String)} {p : Path} :
    (ofList files).contains p = true ↔ ∃ f ∈ files, (fileIn f.1 f.2).same p = true := by
  have hlisted : ∀ cs name, (cs, name) ∈ (ofList files).listed ↔
      (cs, name) ∈ files.map fun f => (f.1.components, f.2) :=
    fun cs name => (listed_ofList files).mem_iff
  simp only [mem_listed, List.mem_map, Prod.mk.injEq] at hlisted
  simp only [contains, List.any_eq_true, Path.same_iff]
  constructor
  · rintro ⟨b, hb, name, hname, hsame⟩
    obtain ⟨f, hf, hdir, rfl⟩ := (hlisted _ name).mp ⟨b, hb, rfl, hname⟩
    exact ⟨f, hf, (components_fileIn_congr hdir f.2).trans hsame⟩
  · rintro ⟨f, hf, hsame⟩
    obtain ⟨b, hb, hdir, hname⟩ := (hlisted _ f.2).mpr ⟨f, hf, rfl, rfl⟩
    exact ⟨b, hb, f.2, hname, (components_fileIn_congr hdir f.2).trans hsame⟩

/-- A file lies at the same place however its directory is spelled. -/
theorem fileIn_same {dir dir' : Path} (h : dir.same dir' = true) (name : String) :
    (fileIn dir name).same (fileIn dir' name) = true :=
  Path.same_iff.mpr (components_fileIn_congr (Path.same_iff.mp h) name)

/-! ### All answers together -/

/-- **What it is for a set to gather some files**, given in the order in which they were added. -/
structure Gathers (set : FileSet) (files : List (Path × String)) : Prop where
  /-- The directories stand in strictly increasing order, compared component by component. -/
  sorted : set.buckets.Pairwise fun b c =>
    List.compareLex Component.order b.dir.components c.dir.components = .lt
  /-- No two of them mean the same. -/
  distinct : set.buckets.Pairwise fun b c => b.dir.same c.dir = false
  /-- No group is empty. -/
  filled : ∀ b ∈ set.buckets, b.names ≠ []
  /-- Asked for a directory, the set has the names that were added to it under any spelling, in the
  order in which they were added, and nothing if there are none. -/
  get?_eq : ∀ dir, set.get? dir =
    if files.filter (·.1.same dir) = [] then none
    else some ((files.filter (·.1.same dir)).map Prod.snd)
  /-- A directory is spelled as it was the first time that a file was added to it. -/
  spelling : ∀ b ∈ set.buckets, (files.find? (·.1.same b.dir)).map Prod.fst = some b.dir
  /-- Every file counts. -/
  fileCount_eq : set.fileCount = files.length
  /-- Directories count by what they mean. -/
  dirCount_eq : set.dirCount = (files.map fun f => f.1.components).dedup.length
  /-- Only the set without files has no directory. -/
  isEmpty_iff : set.isEmpty = true ↔ files = []
  /-- Every file has a path. -/
  length_paths : set.paths.length = set.fileCount
  /-- The set contains the paths of the files that were added, as their directories were spelled. -/
  contains_iff : ∀ p, set.contains p = true ↔ ∃ f ∈ files, (fileIn f.1 f.2).same p = true
  /-- It contains them under every other spelling of the directory too. -/
  spelled : ∀ f ∈ files, ∀ dir : Path, dir.same f.1 = true →
    (fileIn dir f.2).same (fileIn f.1 f.2) = true
  /-- The set contains what its list of paths has. -/
  contains_iff_listed : ∀ p, set.contains p = true ↔ ∃ q ∈ set.paths, q.same p = true

theorem get?_ofList (files : List (Path × String)) (dir : Path) :
    (ofList files).get? dir =
      if files.filter (·.1.same dir) = [] then none
      else some ((files.filter (·.1.same dir)).map Prod.snd) := by
  rw [get?_eq_map_bucket?, bucket?_ofList, map_names_bucketOf?]
  rfl

/-- The spelling of a directory is the first one. -/
theorem find?_ofList {files : List (Path × String)} {b : Bucket}
    (hb : b ∈ (ofList files).buckets) :
    (files.find? (·.1.same b.dir)).map Prod.fst = some b.dir := by
  have hgroup : bucketOf? (filesIn files b.dir) = some b := by
    rw [← bucket?_ofList]
    exact (mem_buckets_iff (valid_ofList files)).mp hb
  rw [← List.head?_filter]
  change (filesIn files b.dir).head?.map Prod.fst = some b.dir
  cases hfiles : filesIn files b.dir with
  | nil =>
      rw [hfiles] at hgroup
      contradiction
  | cons f rest =>
      rw [hfiles, bucketOf?, Option.some.injEq] at hgroup
      rw [← hgroup]
      rfl

theorem dirCount_ofList (files : List (Path × String)) :
    (ofList files).dirCount = (files.map fun f => f.1.components).dedup.length := by
  have hperm : ((ofList files).buckets.map fun b => b.dir.components).Perm
      (files.map fun f => f.1.components).dedup := by
    refine (List.perm_ext_iff_of_nodup (nodup_components (valid_ofList files).sorted)
      (List.nodup_dedup _)).mpr fun cs => ?_
    rw [List.mem_dedup, mem_components_ofList]
  rw [← hperm.length_eq, List.length_map]
  rfl

theorem isEmpty_ofList_iff {files : List (Path × String)} :
    (ofList files).isEmpty = true ↔ files = [] := by
  rw [isEmpty, List.isEmpty_iff, ← List.length_eq_zero_iff]
  change (ofList files).dirCount = 0 ↔ files = []
  rw [dirCount_ofList, List.length_eq_zero_iff, List.dedup_eq_nil, List.map_eq_nil_iff]

theorem length_paths (set : FileSet) : set.paths.length = set.fileCount := by
  simp [paths, fileCount, Bucket.paths, List.length_flatMap]

/-- Two files of different directories can change places in a list without any directory's files
changing theirs. -/
theorem filesIn_swap {f g : Path × String} (hne : f.1.same g.1 = false)
    (before behind : List (Path × String)) (dir : Path) :
    filesIn (before ++ f :: g :: behind) dir = filesIn (before ++ g :: f :: behind) dir := by
  rw [filesIn, filesIn, List.filter_append, List.filter_append]
  by_cases hf : f.1.same dir = true
  · have hg : ¬ g.1.same dir = true := by
      intro hg
      rw [Path.same_iff.mpr ((Path.same_iff.mp hf).trans (Path.same_iff.mp hg).symm)] at hne
      contradiction
    simp [hf, hg]
  · simp [hf, List.filter_cons]

/-- **The order of directories does not matter** when files are added. -/
theorem ofList_swap {f g : Path × String} (hne : f.1.same g.1 = false)
    (before behind : List (Path × String)) :
    ofList (before ++ f :: g :: behind) = ofList (before ++ g :: f :: behind) := by
  refine (valid_ofList _).eq_of_bucket? (valid_ofList _) fun dir => ?_
  rw [bucket?_ofList, bucket?_ofList, filesIn_swap hne]

/-- **A set gathers the files that are added to it**, whatever they are, and it does not matter
which of two files is added first unless they are in the same directory. -/
theorem gathers_ofList (files : List (Path × String)) :
    (ofList files).Gathers files ∧
      ∀ before f g behind, files = before ++ f :: g :: behind → f.1.same g.1 = false →
        ofList files = ofList (before ++ g :: f :: behind) := by
  have hvalid := valid_ofList files
  constructor
  · refine ⟨?_, ?_, hvalid.filled, get?_ofList files, fun b hb => find?_ofList hb, ?_,
      dirCount_ofList files, isEmpty_ofList_iff, length_paths _, fun p => contains_ofList_iff,
      fun f _ dir hdir => fileIn_same hdir f.2, fun p => contains_iff_mem_paths⟩
    · exact hvalid.sorted.imp fun hlt => (Path.order_eq_compareLex _ _).symm.trans hlt
    · refine hvalid.sorted.imp fun hlt => ?_
      exact Bool.eq_false_iff.mpr (mt Path.same_iff.mp (components_ne_of_lt hlt))
    · rw [fileCount_eq_length_listed, (listed_ofList files).length_eq, List.length_map]
  · rintro before f g behind rfl hne
    exact ofList_swap hne before behind

/-- Of three files, two are in one directory that is spelled in two ways, and one that is added
between them is in another. -/
theorem gathers_ofList_spelledTwice :
    (ofList [(.ofText "pkg//util", "z.go"), (.ofText ".", "main.go"),
        (.ofText "pkg/./util/", "a.go")]).buckets =
        [⟨.ofText ".", ["main.go"]⟩, ⟨.ofText "pkg//util", ["z.go", "a.go"]⟩] ∧
      (Path.ofText ".").same (.ofText "pkg/./util/") = false ∧
      (ofList [(.ofText "pkg//util", "z.go"), (.ofText ".", "main.go"),
        (.ofText "pkg/./util/", "a.go")]).Gathers
        [(.ofText "pkg//util", "z.go"), (.ofText ".", "main.go"), (.ofText "pkg/./util/", "a.go")] ∧
      ofList [(.ofText "pkg//util", "z.go"), (.ofText ".", "main.go"),
          (.ofText "pkg/./util/", "a.go")] =
        ofList [(.ofText "pkg//util", "z.go"), (.ofText "pkg/./util/", "a.go"),
          (.ofText ".", "main.go")] :=
  ⟨by decide +kernel, by decide +kernel, (gathers_ofList _).1,
    (gathers_ofList _).2 [(.ofText "pkg//util", "z.go")] (.ofText ".", "main.go")
      (.ofText "pkg/./util/", "a.go") [] rfl (by decide +kernel)⟩

end FileSet

end LintSuite
