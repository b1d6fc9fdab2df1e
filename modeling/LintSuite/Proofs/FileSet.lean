import LintSuite.FileName
import LintSuite.FileSet
import LintSuite.Proofs.Path

/-!
# Sets of files, from the files that were added

A set is built by adding files one after another.  Two things are settled here about every set so
built.  Its groups stand in strictly increasing path order and none is empty (`Valid`,
`valid_ofList`).  And it holds the files that were added, each as often as it was added, under a
directory that means the one it was added to (`listed_ofList`).

Both are preserved by one `push`, whatever the set, and carried over a sequence of them by induction.

### Design decisions

**A set as a list of files.**  `listed` forgets the groups and gives each file with what its directory
means.  Adding a file is then adding an element, up to order (`listed_push`), and counting and
membership are those of lists.  Two spellings of one directory are one meaning, so no statement asks
which of them came first.

**Shape and content apart.**  `Valid` is about the groups alone, and `listed` about the files alone.
What needs both, such as the group that a directory has, is put together from them later.

### What is load-bearing

`sorted_insert`: a name goes to the group of its directory, or to a new group in front of the first one
that is greater, and the order stays strict.  It rests on the order of paths being linear on meanings.
-/

namespace LintSuite

namespace FileSet

/-! ### One insertion -/

theorem insert_cons_of_lt {dir : Path} {b : Bucket} (h : dir.order b.dir = .lt) (name : String)
    (rest : List Bucket) : insert dir name (b :: rest) = ⟨dir, [name]⟩ :: b :: rest := by
  rw [insert, h]

theorem insert_cons_of_eq {dir : Path} {b : Bucket} (h : dir.order b.dir = .eq) (name : String)
    (rest : List Bucket) :
    insert dir name (b :: rest) = ⟨b.dir, b.names ++ [name]⟩ :: rest := by
  rw [insert, h]

theorem insert_cons_of_gt {dir : Path} {b : Bucket} (h : dir.order b.dir = .gt) (name : String)
    (rest : List Bucket) : insert dir name (b :: rest) = b :: insert dir name rest := by
  rw [insert, h]

/-- No directory appears but the given one. -/
theorem dir_of_mem_insert {dir : Path} {name : String} {buckets : List Bucket} {b : Bucket}
    (h : b ∈ insert dir name buckets) : b.dir = dir ∨ ∃ c ∈ buckets, c.dir = b.dir := by
  induction buckets with
  | nil =>
      obtain rfl : b = ⟨dir, [name]⟩ := List.mem_singleton.mp h
      exact Or.inl rfl
  | cons c rest ih =>
      cases ho : dir.order c.dir with
      | lt =>
          rw [insert_cons_of_lt ho, List.mem_cons] at h
          rcases h with rfl | h
          · exact Or.inl rfl
          · exact Or.inr ⟨b, h, rfl⟩
      | eq =>
          rw [insert_cons_of_eq ho, List.mem_cons] at h
          rcases h with rfl | h
          · exact Or.inr ⟨c, List.mem_cons_self, rfl⟩
          · exact Or.inr ⟨b, List.mem_cons_of_mem _ h, rfl⟩
      | gt =>
          rw [insert_cons_of_gt ho, List.mem_cons] at h
          rcases h with rfl | h
          · exact Or.inr ⟨b, List.mem_cons_self, rfl⟩
          · rcases ih h with hd | ⟨d, hd, he⟩
            · exact Or.inl hd
            · exact Or.inr ⟨d, List.mem_cons_of_mem _ hd, he⟩

/-- Groups in strictly increasing path order. -/
def Sorted (buckets : List Bucket) : Prop :=
  buckets.Pairwise fun b c => b.dir.order c.dir = .lt

/-- Insertion keeps the order. -/
theorem sorted_insert (dir : Path) (name : String) {buckets : List Bucket}
    (h : Sorted buckets) : Sorted (insert dir name buckets) := by
  induction buckets with
  | nil => exact List.pairwise_singleton _ _
  | cons b rest ih =>
      obtain ⟨hb, hrest⟩ := List.pairwise_cons.mp h
      cases ho : dir.order b.dir with
      | lt =>
          rw [insert_cons_of_lt ho]
          refine List.pairwise_cons.mpr ⟨?_, h⟩
          intro c hc
          rcases List.mem_cons.mp hc with rfl | hc
          · exact ho
          · exact Path.order_lt_trans ho (hb c hc)
      | eq =>
          rw [insert_cons_of_eq ho]
          exact List.pairwise_cons.mpr ⟨hb, hrest⟩
      | gt =>
          rw [insert_cons_of_gt ho]
          refine List.pairwise_cons.mpr ⟨?_, ih hrest⟩
          -- The first group stays first: behind it come the new directory and those that were there.
          intro c hc
          rcases dir_of_mem_insert hc with hd | ⟨d, hd, he⟩
          · rw [hd]
            exact Path.order_eq_gt_iff.mp ho
          · rw [← he]
            exact hb d hd

/-- Insertion leaves no group empty. -/
theorem names_ne_nil_of_mem_insert {dir : Path} {name : String} {buckets : List Bucket}
    (h : ∀ b ∈ buckets, b.names ≠ []) : ∀ b ∈ insert dir name buckets, b.names ≠ [] := by
  induction buckets with
  | nil => simp [insert]
  | cons b rest ih =>
      obtain ⟨hb, hrest⟩ := List.forall_mem_cons.mp h
      cases ho : dir.order b.dir with
      | lt =>
          rw [insert_cons_of_lt ho]
          exact List.forall_mem_cons.mpr ⟨by simp, h⟩
      | eq =>
          rw [insert_cons_of_eq ho]
          exact List.forall_mem_cons.mpr ⟨by simp, hrest⟩
      | gt =>
          rw [insert_cons_of_gt ho]
          exact List.forall_mem_cons.mpr ⟨hb, ih hrest⟩

/-! ### What a set holds -/

/-- The files of some groups, each with what its directory means. -/
def listedIn (buckets : List Bucket) : List (List Component × String) :=
  buckets.flatMap fun b => b.names.map (b.dir.components, ·)

/-- **The files a set holds**, each with what its directory means. -/
def listed (set : FileSet) : List (List Component × String) :=
  listedIn set.buckets

@[simp] theorem listedIn_nil : listedIn [] = [] := rfl

@[simp] theorem listedIn_cons (b : Bucket) (rest : List Bucket) :
    listedIn (b :: rest) = b.names.map (b.dir.components, ·) ++ listedIn rest := rfl

theorem mem_listed {set : FileSet} {d : List Component} {name : String} :
    (d, name) ∈ set.listed ↔ ∃ b ∈ set.buckets, b.dir.components = d ∧ name ∈ b.names := by
  simp only [listed, listedIn, List.mem_flatMap, List.mem_map, Prod.mk.injEq]
  constructor
  · rintro ⟨b, hb, n, hn, hd, rfl⟩
    exact ⟨b, hb, hd, hn⟩
  · rintro ⟨b, hb, hd, hn⟩
    exact ⟨b, hb, name, hn, hd, rfl⟩

/-- Insertion adds one file. -/
theorem listedIn_insert (dir : Path) (name : String) (buckets : List Bucket) :
    (listedIn (insert dir name buckets)).Perm ((dir.components, name) :: listedIn buckets) := by
  induction buckets with
  | nil => exact List.Perm.refl _
  | cons b rest ih =>
      cases ho : dir.order b.dir with
      | lt => rw [insert_cons_of_lt ho]; exact List.Perm.refl _
      | eq =>
          rw [insert_cons_of_eq ho, listedIn_cons, listedIn_cons, List.map_append,
            Path.order_eq_eq_iff.mp ho, List.append_assoc]
          exact List.perm_middle
      | gt =>
          rw [insert_cons_of_gt ho, listedIn_cons, listedIn_cons]
          exact (ih.append_left _).trans List.perm_middle

theorem fileCount_eq_length_listed (set : FileSet) : set.fileCount = set.listed.length := by
  simp [fileCount, listed, listedIn, List.length_flatMap]

/-! ### Sets that were built -/

/-- **The shape of a set**: what every set has that was built by adding files. -/
structure Valid (set : FileSet) : Prop where
  /-- The groups stand in path order, each directory once. -/
  sorted : Sorted set.buckets
  /-- No group is empty. -/
  filled : ∀ b ∈ set.buckets, b.names ≠ []

theorem valid_empty : Valid empty :=
  ⟨List.Pairwise.nil, by simp [empty]⟩

/-- Adding a file keeps the shape. -/
theorem Valid.push {set : FileSet} (h : set.Valid) (dir : Path) (name : String) :
    (set.push dir name).Valid :=
  ⟨sorted_insert dir name h.sorted, names_ne_nil_of_mem_insert h.filled⟩

/-- Adding a file adds it to what the set holds. -/
theorem listed_push (set : FileSet) (dir : Path) (name : String) :
    (set.push dir name).listed.Perm ((dir.components, name) :: set.listed) :=
  listedIn_insert dir name set.buckets

/-- The set with some files added one after another. -/
def pushAll (set : FileSet) (files : List (Path × String)) : FileSet :=
  files.foldl (fun set f => set.push f.1 f.2) set

theorem pushAll_cons (set : FileSet) (f : Path × String) (files : List (Path × String)) :
    set.pushAll (f :: files) = (set.push f.1 f.2).pushAll files := rfl

theorem Valid.pushAll {set : FileSet} (h : set.Valid) (files : List (Path × String)) :
    (set.pushAll files).Valid := by
  induction files generalizing set with
  | nil => exact h
  | cons f files ih => exact ih (h.push f.1 f.2)

theorem listed_pushAll (set : FileSet) (files : List (Path × String)) :
    (set.pushAll files).listed.Perm
      (files.map (fun f => (f.1.components, f.2)) ++ set.listed) := by
  induction files generalizing set with
  | nil => exact List.Perm.refl _
  | cons f files ih =>
      rw [pushAll_cons]
      exact (ih _).trans (((listed_push set f.1 f.2).append_left _).trans List.perm_middle)

/-- **Every set that was built has the shape.** -/
theorem valid_ofList (files : List (Path × String)) : (ofList files).Valid :=
  valid_empty.pushAll files

/-- **A set holds the files that were added to it**, each as often as it was added. -/
theorem listed_ofList (files : List (Path × String)) :
    (ofList files).listed.Perm (files.map fun f => (f.1.components, f.2)) := by
  have h := listed_pushAll empty files
  rw [show empty.listed = [] from rfl, List.append_nil] at h
  exact h

end FileSet

/-! ### The three sets -/

namespace FileSets

/-- The set of a kind. -/
def ofKind (sets : FileSets) : FileKind → FileSet
  | .source => sets.source
  | .test => sets.test
  | .other => sets.other

/-- The sets with one more file in the set of a kind. -/
def push (sets : FileSets) (kind : FileKind) (dir : Path) (name : String) : FileSets :=
  match kind with
  | .source => { sets with source := sets.source.push dir name }
  | .test => { sets with test := sets.test.push dir name }
  | .other => { sets with other := sets.other.push dir name }

/-- The sets with some files added one after another, each to the set of a kind. -/
def pushAll (sets : FileSets) (files : List (FileKind × Path × String)) : FileSets :=
  files.foldl (fun sets f => sets.push f.1 f.2.1 f.2.2) sets

/-- **The sets that are built by adding files**, each to the set of a kind, in any order. -/
def ofList (files : List (FileKind × Path × String)) : FileSets :=
  pushAll {} files

theorem ofKind_push (sets : FileSets) (kind added : FileKind) (dir : Path) (name : String) :
    (sets.push added dir name).ofKind kind =
      if added = kind then (sets.ofKind kind).push dir name else sets.ofKind kind := by
  cases added <;> cases kind <;> rfl

/-- Files are added to each set on its own. -/
theorem ofKind_pushAll (sets : FileSets) (files : List (FileKind × Path × String))
    (kind : FileKind) :
    (sets.pushAll files).ofKind kind =
      (sets.ofKind kind).pushAll ((files.filter (·.1 = kind)).map Prod.snd) := by
  induction files generalizing sets with
  | nil => rfl
  | cons f files ih =>
      rw [pushAll, List.foldl_cons, ← pushAll, ih, ofKind_push]
      by_cases hkind : f.1 = kind
      · rw [if_pos hkind, List.filter_cons_of_pos (by simpa using hkind), List.map_cons,
          FileSet.pushAll_cons]
      · rw [if_neg hkind, List.filter_cons_of_neg (by simpa using hkind)]

/-- **Each set is built from the files of its kind.** -/
theorem ofKind_ofList (files : List (FileKind × Path × String)) (kind : FileKind) :
    (ofList files).ofKind kind = .ofList ((files.filter (·.1 = kind)).map Prod.snd) := by
  rw [ofList, ofKind_pushAll]
  cases kind <;> rfl

/-- Each set has the shape. -/
theorem valid_ofKind_ofList (files : List (FileKind × Path × String)) (kind : FileKind) :
    ((ofList files).ofKind kind).Valid := by
  rw [ofKind_ofList]
  exact FileSet.valid_ofList _

end FileSets

end LintSuite
