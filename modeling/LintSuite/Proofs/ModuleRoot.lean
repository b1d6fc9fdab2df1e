import LintSuite.ModuleRoot
import LintSuite.Proofs.Lookup
import Mathlib

/-!
# The nearest module root

The root of a module is the deepest directory at or above a place that has the mark of a module as a
file (`SeeksRoot`).  What lies at or above a place is known for an absolute path without steps upwards:
the directories from there up to the root directory, one for each number of names (`ClimbsToRoot`).

Entering the module root moves the working directory to it, and from there it is the nearest one
again, so a second time changes nothing (`EntersRoot`).  That the working directory is reported under
the path that was found rests on two facts: above the path of a location lie the paths of its fronts
(`exists_isPrefix_of_atOrAbove`), and the names of a location that no link is on lead to it
(`Passes.eq_append`).

### Design decisions

**Any start, any tree.**  The search starts from a path that need not lead anywhere and goes by what
the directories above it hold.  All it asks for is that the path is absolute and has no steps upwards,
for otherwise what lies above it is not one directory for each number of names.

**The working directory is a location.**  It is kept as the names that lead to it and reported as a
path (`locationPath`).  That a search from the reported path finds what is above the location is a
theorem here and no convention.

### What is load-bearing

`Passes.eq_append`: names that pass over no link lead to the location that they are.  Therefore the
reported path of a location leads back to it, and entering the module root a second time finds the
directory that one is in.
-/

namespace LintSuite

open Host RawText

namespace Host

/-! ### The path of a location -/

/-- The path of a location, as the system reports it. -/
def locationPath (location : Location) : Path :=
  ⟨slash :: Path.joined location⟩

theorem slash_joined {ss : List RawText} (h : ss ≠ []) :
    slash :: Path.joined ss = ss.flatMap (slash :: ·) := by
  induction ss with
  | nil => exact absurd rfl h
  | cons s ss ih =>
      by_cases hss : ss = []
      · simp [hss, Path.joined]
      · rw [Path.joined_cons hss, ih hss, List.flatMap_cons, List.cons_append]

theorem workingDir_eq (fs : FileSystem) : fs.workingDir = locationPath fs.cwd := by
  rw [FileSystem.workingDir, locationPath]
  split
  · next hnil =>
      rw [List.isEmpty_iff.mp hnil]
      rfl
  · next hne =>
      rw [List.isEmpty_iff] at hne
      rw [slash_joined hne]

variable {location : Location} {name : RawText} (h : ∀ n ∈ location, Path.IsName n)

theorem isAbsolute_locationPath (location : Location) : (locationPath location).isAbsolute = true := by
  simp [locationPath, Path.isAbsolute]

include h in
theorem segments_locationPath (hne : location ≠ []) :
    Path.segments (Path.joined location) = location :=
  Path.segments_joined hne fun n hn => (h n hn).no_slash

include h in
theorem spoken_locationPath : spoken (locationPath location).bytes = location := by
  rw [locationPath, spoken, Path.segments_slash_cons]
  by_cases hne : location = []
  · rw [hne]
    rfl
  · rw [segments_locationPath h hne, List.filter_cons_of_neg (by simp), List.filter_eq_self.mpr]
    intro n hn
    simpa using (h n hn).ne_empty

include h in
/-- The parent of the path of a location is that of the directory that holds it. -/
theorem parent?_locationPath (hname : Path.IsName name) :
    (locationPath (location ++ [name])).parent? = some (locationPath location) := by
  have hall : ∀ n ∈ location ++ [name], Path.IsName n := by
    simpa [or_imp, forall_and] using ⟨h, hname⟩
  have hhead : Path.head (locationPath (location ++ [name])).bytes = [slash] :=
    Path.head_slash_cons _
  have hbody : Path.body (locationPath (location ++ [name])).bytes = location ++ [name] := by
    rw [Path.body, hhead]
    exact segments_locationPath hall (by simp)
  have hlast : location.reverse.dropWhile Path.isTrivial = location.reverse := by
    refine List.dropWhile_eq_self_iff.mpr fun hpos => ?_
    have hmem := List.getElem_mem hpos
    rw [List.mem_reverse] at hmem
    exact Bool.eq_false_iff.mp (h _ hmem).not_trivial
  rw [Path.parent?, hbody, hhead, List.reverse_append, List.reverse_singleton, List.singleton_append,
    List.dropWhile_cons_of_neg (by simp [hname.not_trivial])]
  dsimp only
  rw [hlast, List.reverse_reverse]
  rfl

include h in
/-- **Above the path of a location** lie the paths of its fronts. -/
theorem exists_isPrefix_of_atOrAbove {d : Path} (hd : (locationPath location).AtOrAbove d) :
    ∃ front, front <+: location ∧ d = locationPath front := by
  induction hd with
  | refl => exact ⟨location, List.prefix_rfl, rfl⟩
  | tail _ hparent ih =>
      obtain ⟨front, hfront, rfl⟩ := ih
      rcases List.eq_nil_or_concat' front with rfl | ⟨before, n, rfl⟩
      · have hnone : (locationPath []).parent? = none := by decide +kernel
        rw [hnone] at hparent
        simp at hparent
      · have hbefore : before <+: location := (List.prefix_append _ _).trans hfront
        have hn : Path.IsName n := h n (hfront.mem (by simp))
        rw [parent?_locationPath (fun m hm => h m (hbefore.mem hm)) hn] at hparent
        exact ⟨before, hbefore, (Option.some.inj hparent).symm⟩

/-- **Names lead to the location that they are**, if there is something that is no link. -/
theorem Passes.eq_append {root node : Node} {links left : Nat} {here there : Location}
    (hpasses : Passes root links here location left there)
    (h : ∀ n ∈ location, Path.IsName n)
    (hnode : root.get? (here ++ location) = some node) (hnoLink : node.IsNoLink) :
    there = here ++ location := by
  induction hpasses with
  | done links here => rw [List.append_nil]
  | stay _ hname =>
      have hname' := h _ List.mem_cons_self
      exact absurd hname (not_or.mpr ⟨hname'.ne_empty, hname'.ne_here⟩)
  | up => exact absurd rfl (h _ List.mem_cons_self).ne_up
  | @follow _ _ _ _ _ target rest _ _ hlink _ _ =>
      -- What lies under the name is a link, so it is neither the node nor a directory.
      rw [List.append_cons] at hnode
      by_cases hrest : rest = []
      · rw [hrest, List.append_nil, hlink] at hnode
        obtain rfl := Option.some.inj hnode
        exact absurd rfl (hnoLink target)
      · obtain ⟨access, entries, hdir⟩ := exists_dir_of_get?_append hrest hnode
        rw [hlink] at hdir
        simp at hdir
  | down _ _ _ _ _ ih =>
      rw [List.append_cons] at hnode ⊢
      exact ih (fun n hn => h n (List.mem_cons_of_mem _ hn)) hnode

theorem namesOf_locationPath {location : Location} (h : ∀ n ∈ location, Path.IsName n) :
    namesOf (locationPath location).bytes = location := by
  have hchild : (locationPath (location ++ [ofText "child"])).parent? =
      some (locationPath location) :=
    parent?_locationPath h (by decide +kernel)
  rw [namesOf_of_parent? hchild, spoken_locationPath h]

/-- **A path from the root directory** does not depend on the working directory. -/
theorem FileSystem.find_of_isAbsolute {fs : FileSystem} {p : Path} (h : p.isAbsolute = true)
    (cwd : Location) : FileSystem.find { fs with cwd := cwd } p = fs.find p := by
  simp only [find, look, h, if_true]

theorem FileSystem.enter_of_isAbsolute {fs : FileSystem} {p : Path} (h : p.isAbsolute = true)
    (cwd : Location) : FileSystem.enter { fs with cwd := cwd } p = fs.enter p := by
  simp only [enter, find_of_isAbsolute h]

theorem isAbsolute_join {dir : Path} (h : dir.isAbsolute = true) (name : RawText) :
    (dir.join name).isAbsolute = true := by
  rw [Path.isAbsolute, beq_iff_eq] at h ⊢
  rw [Path.join]
  split_ifs with hname hslash
  · exact hname
  · simp [List.head?_append, h]
  · simp [List.head?_append, h]

end Host

/-! ### The search -/

/-- **A marked directory**: the name of the mark leads to a file there. -/
def IsMarked (fs : FileSystem) (dir : Path) : Prop :=
  ∃ location access content,
    fs.find (dir.join (ofText moduleMark)) = .ok (location, .file access content)

/-- **The search for a module root** from a directory upwards. -/
structure SeeksRoot (fs : FileSystem) (start : Path) : Prop where
  /-- It goes through the directories from there up to the root directory. -/
  climbs : ∃ names, start.ClimbsToRoot names
  /-- It ends at the deepest of them that is marked. -/
  found_iff : ∀ d, findRoot fs start = some d ↔ start.AtOrAbove d ∧ IsMarked fs d ∧
    ∀ r, start.AtOrAbove r → d.components.length < r.components.length → ¬ IsMarked fs r
  /-- It finds nothing if none of them is. -/
  none_iff : findRoot fs start = none ↔ ∀ r, start.AtOrAbove r → ¬ IsMarked fs r
  /-- A directory under the name of the mark is no mark. -/
  dir_is_no_mark : ∀ d, fs.isDir (d.join (ofText moduleMark)) = true → ¬ IsMarked fs d
  /-- From where it ends it goes no further. -/
  again : ∀ d, findRoot fs start = some d → findRoot fs d = some d

theorem findRoot_eq_some_iff {fs : FileSystem} {start d : Path} :
    findRoot fs start = some d ↔ start.AtOrAbove d ∧ IsMarked fs d ∧
      ∀ r, start.AtOrAbove r → d.components.length < r.components.length → ¬ IsMarked fs r := by
  have hmarked : ∀ r, fs.isFile (r.join (ofText moduleMark)) = true ↔ IsMarked fs r :=
    fun r => FileSystem.isFile_eq_true_iff
  rw [findRoot, Path.find?_ancestors_eq_some_iff]
  simp only [← hmarked, Bool.not_eq_true]

theorem findRoot_eq_none_iff {fs : FileSystem} {start : Path} :
    findRoot fs start = none ↔ ∀ r, start.AtOrAbove r → ¬ IsMarked fs r := by
  rw [findRoot, List.find?_eq_none]
  refine forall_congr' fun r => ?_
  rw [Path.mem_ancestors_iff, FileSystem.isFile_eq_true_iff, IsMarked]

/-- A root that was found is its own nearest root. -/
theorem findRoot_self {fs : FileSystem} {start d : Path} (h : findRoot fs start = some d) :
    findRoot fs d = some d := by
  obtain ⟨-, hmarked, -⟩ := findRoot_eq_some_iff.mp h
  refine findRoot_eq_some_iff.mpr ⟨.refl, hmarked, fun r hr hlt => ?_⟩
  exact absurd hr.length_le (not_le.mpr hlt)

theorem not_isMarked_of_isDir {fs : FileSystem} {d : Path}
    (h : fs.isDir (d.join (ofText moduleMark)) = true) : ¬ IsMarked fs d := by
  rintro ⟨location, access, content, hfile⟩
  obtain ⟨location', access', entries, hdir⟩ := FileSystem.isDir_eq_true_iff.mp h
  rw [hfile] at hdir
  simp at hdir

/-! ### Entering -/

/-- **A file system with a place in it**: directories hold proper names, and the working directory is
one of them. -/
structure IsPlaced (fs : FileSystem) : Prop where
  /-- Directories hold proper names, none twice. -/
  wellNamed : fs.root.WellNamed
  /-- The working directory is a directory. -/
  cwd : ∃ access entries, fs.root.get? fs.cwd = some (.dir access entries)

/-- **Entering the module root** from the working directory. -/
structure EntersRoot (fs : FileSystem) : Prop where
  /-- Where there is one that can be entered, the working directory moves there, and nothing else
  changes; a second time changes nothing at all. -/
  found : ∀ d after, findRoot fs fs.workingDir = some d → fs.enter d = .ok after →
    enterRoot fs = .ok (true, after) ∧ after.workingDir = d ∧ after.root = fs.root ∧
      enterRoot after = .ok (true, after)
  /-- Where there is none, the working directory stays. -/
  none : findRoot fs fs.workingDir = none → enterRoot fs = .ok (false, fs)

/-- Entering a directory at or above the working directory leads there. -/
theorem eq_of_enter {fs after : FileSystem} (hplaced : IsPlaced fs) {front : Location}
    (hfront : front <+: fs.cwd) (h : fs.enter (locationPath front) = .ok after) :
    after = { fs with cwd := front } := by
  obtain ⟨access, entries, hcwd⟩ := hplaced.cwd
  have hnames : ∀ n ∈ front, Path.IsName n :=
    fun n hn => hplaced.wellNamed.isName hcwd n (hfront.mem hn)
  obtain ⟨access', entries', hdir⟩ :
      ∃ access entries, fs.root.get? front = some (.dir access entries) := by
    obtain ⟨more, hmore⟩ := hfront
    by_cases hnil : more = []
    · rw [hnil, List.append_nil] at hmore
      exact ⟨access, entries, hmore ▸ hcwd⟩
    · rw [← hmore] at hcwd
      exact exists_dir_of_get?_append hnil hcwd
  rw [FileSystem.enter] at h
  split at h
  · next location access'' entries'' hfind =>
      split_ifs at h
      obtain ⟨-, ⟨left, hpasses⟩, -⟩ := FileSystem.find_eq_ok_iff.mp hfind
      rw [namesOf_locationPath hnames, FileSystem.start,
        if_pos (isAbsolute_locationPath front)] at hpasses
      have hlocation := hpasses.eq_append hnames hdir (by simp [Node.IsNoLink])
      rw [List.nil_append] at hlocation
      rw [← Except.ok.inj h, hlocation]
  · simp at h
  · simp at h

/-- Searched from the path of a location, the root does not depend on the working directory. -/
theorem findRoot_locationPath {fs : FileSystem} {location : Location}
    (h : ∀ n ∈ location, Path.IsName n) (cwd : Location) :
    findRoot { fs with cwd := cwd } (locationPath location) =
      findRoot fs (locationPath location) := by
  refine List.find?_congr fun r hr => ?_
  obtain ⟨front, -, rfl⟩ := exists_isPrefix_of_atOrAbove h (Path.mem_ancestors_iff.mp hr)
  have habsolute := isAbsolute_join (isAbsolute_locationPath front) (ofText moduleMark)
  simp only [FileSystem.isFile, FileSystem.find_of_isAbsolute habsolute]

theorem entersRoot_enterRoot {fs : FileSystem} (hplaced : IsPlaced fs) : EntersRoot fs where
  found d after hfound henter := by
    obtain ⟨access, entries, hcwd⟩ := hplaced.cwd
    have hnames := hplaced.wellNamed.isName hcwd
    have habove := (findRoot_eq_some_iff.mp hfound).1
    rw [workingDir_eq] at habove
    obtain ⟨front, hfront, rfl⟩ := exists_isPrefix_of_atOrAbove hnames habove
    have hagain : findRoot after after.workingDir = some (locationPath front) := by
      rw [eq_of_enter hplaced hfront henter, workingDir_eq,
        findRoot_locationPath fun n hn => hnames n (hfront.mem hn)]
      exact findRoot_self hfound
    have henter' : after.enter (locationPath front) = .ok after := by
      rw [← henter, eq_of_enter hplaced hfront henter,
        FileSystem.enter_of_isAbsolute (isAbsolute_locationPath front)]
    refine ⟨by simp only [enterRoot, hfound, henter], ?_, ?_, ?_⟩
    · rw [eq_of_enter hplaced hfront henter, workingDir_eq]
    · rw [eq_of_enter hplaced hfront henter]
    · simp only [enterRoot, hagain, henter']
  none hnone := by simp only [enterRoot, hnone]

/-- **The module root is found and entered** as it should be: from every absolute path without steps
upwards, and from every working directory. -/
theorem seeksRoot_findRoot {fs : FileSystem} {start : Path} (habsolute : start.isAbsolute = true)
    (hup : .up ∉ start.components) :
    SeeksRoot fs start ∧ (IsPlaced fs → EntersRoot fs) :=
  have hseeks : SeeksRoot fs start :=
    { climbs := Path.exists_climbsToRoot habsolute hup
      found_iff := fun _ => findRoot_eq_some_iff
      none_iff := findRoot_eq_none_iff
      dir_is_no_mark := fun _ => not_isMarked_of_isDir
      again := fun _ => findRoot_self }
  ⟨hseeks, entersRoot_enterRoot⟩

/-- A module with a directory in it, and the working directory there. -/
def insideModule : FileSystem where
  root := .dir .full (.entry (ofText "work") (.dir .full
    (.entry (ofText "go.mod") (.file .ofFile []) (.entry (ofText "sub") .emptyDir .none))) .none)
  cwd := [ofText "work", ofText "sub"]

theorem seeksRoot_findRoot_insideModule :
    (locationPath [ofText "work", ofText "sub"]).isAbsolute = true ∧
      .up ∉ (locationPath [ofText "work", ofText "sub"]).components ∧ IsPlaced insideModule ∧
        SeeksRoot insideModule (locationPath [ofText "work", ofText "sub"]) ∧
          EntersRoot insideModule :=
  have habsolute : (locationPath [ofText "work", ofText "sub"]).isAbsolute = true := rfl
  have hup : .up ∉ (locationPath [ofText "work", ofText "sub"]).components := by decide +kernel
  have hplaced : IsPlaced insideModule := ⟨by
    simp only [insideModule, Node.WellNamed, Entries.WellNamed, Node.emptyDir, Entries.find?]
    decide +kernel, _, _, rfl⟩
  have h := seeksRoot_findRoot habsolute hup
  ⟨habsolute, hup, hplaced, h.1, h.2 hplaced⟩

end LintSuite
