import LintSuite.Proofs.Growth
import LintSuite.Proofs.SettingsText
import LintSuite.Settings.File
import Mathlib

/-!
# Loading the settings file

Loading the settings is a read that may write: where nothing is under the path, the defaults are saved
there, and the next load finds them, or still nothing.  `LoadsFile` says what a load does to the file
system and what the next one gives.

Saving runs in three ways (`Saves`): a directory is lacking, the file cannot be written, or it is
written.  In each of them all that changes is the file that the path leads to, and directories above
the path that were not there (`mayChange_of_saves`).

A path with a step upwards can lead to something that is there as soon as the directories on its way
are made, `new/..` to a directory.  Then the first load gives the defaults and the next one what it
finds (`load_upwards`).  Without a step upwards the path leads into the last directory that was made,
which is empty.

### Design decisions

**Exceptions as conditions.**  The second load gives what the first one gave, except where the path has
a step upwards and leads to no file afterwards.  `LoadsFile` states the exception next to the rule, and
`load_upwards` shows that it cannot be left out.

**What may change is said location by location.**  `MayChange` compares the tree before and after at
one place: the file, a directory above the path that was not there, or nothing.  A frame of that form
needs no list of what was written, and also covers a load that is refused half-way.

### What is load-bearing

`up_mem_of_run`: making directories above a path can only make it lead somewhere if it has steps
upwards.  Without them it ends below the directory that was made last, and that is empty.
-/

namespace LintSuite.Settings

open Host Host.FileSystem

variable {s : Settings} {fs after : FileSystem} {p : Path}

/-! ### Saving -/

/-- **How settings are saved.** -/
inductive Saves (s : Settings) (p : Path) (fs : FileSystem) : FileSystem × Option IoError → Prop
  /-- A directory is lacking. -/
  | lacking {between : FileSystem} {e : IoError} {q : Path}
      (hrun : Relation.ReflTransGen (MakesAbove p) fs between) (hq : p.Above q)
      (hne : q.bytes ≠ []) (hlacking : between.isDir q = false) : Saves s p fs (between, some e)
  /-- The file cannot be written. -/
  | refused {between : FileSystem} {e : IoError}
      (hrun : Relation.ReflTransGen (MakesAbove p) fs between)
      (hwrite : between.write p s.bytes = .error e) : Saves s p fs (between, some e)
  /-- The file is written. -/
  | written {between after : FileSystem} (hrun : Relation.ReflTransGen (MakesAbove p) fs between)
      (hwrite : between.write p s.bytes = .ok after) : Saves s p fs (after, none)

/-- Writing the file, when the directories above it have been made. -/
theorem saves_of_run {between : FileSystem} (hrun : Relation.ReflTransGen (MakesAbove p) fs between) :
    Saves s p fs (match between.write p s.bytes with
      | .ok after => (after, none)
      | .error e => (between, some e)) := by
  cases hwrite : between.write p s.bytes with
  | ok after => exact .written hrun hwrite
  | error e => exact .refused hrun hwrite

theorem saves_save (s : Settings) (fs : FileSystem) (p : Path) : Saves s p fs (s.save fs p) := by
  rw [save]
  cases hparent : p.parent? with
  | none => exact saves_of_run .refl
  | some parent =>
      have habove : ∀ q ∈ parent.ancestors, p.Above q := fun q hq =>
        Path.above_iff.mpr ⟨parent, hparent, Path.mem_ancestors_iff.mp hq⟩
      have hmakes : MakesDirsAbove p parent.ancestors fs _ := makesDirsAbove_makeDirsFrom habove
      dsimp only
      rw [makeDirs]
      cases hrefusal : (fs.makeDirsFrom parent.ancestors).2 with
      | none => exact saves_of_run hmakes.run
      | some e =>
          rcases hmakes.lacking e hrefusal with ⟨hnil, -⟩ | ⟨q, hq, hne, hlacking⟩
          · have hmem : parent ∈ parent.ancestors := Path.mem_ancestors_iff.mpr .refl
            rw [hnil] at hmem
            exact absurd hmem List.not_mem_nil
          · exact .lacking hmakes.run hq hne hlacking

/-- **Saving keeps the working directory**, also where it fails half-way. -/
theorem Saves.cwd {result : FileSystem × Option IoError} (h : Saves s p fs result) :
    result.1.cwd = fs.cwd := by
  cases h with
  | lacking hrun => exact (gains_of_run hrun).cwd
  | refused hrun => exact (gains_of_run hrun).cwd
  | written hrun hwrite => exact (cwd_of_write hwrite).trans (gains_of_run hrun).cwd

/-- **What saving may change** at a location: nothing, or the file is there, or a directory above the
path that was not there. -/
def MayChange (s : Settings) (p : Path) (fs after : FileSystem) (location : Location) : Prop :=
  (after.root.get? location).map Node.bare = (fs.root.get? location).map Node.bare ∨
    (∃ access, after.find p = .ok (location, .file access s.bytes)) ∨
    (fs.root.get? location = none ∧ ∃ q access entries, p.Above q ∧ fs.exists? q = false ∧
      after.find q = .ok (location, .dir access entries))

theorem mayChange_of_run (h : Relation.ReflTransGen (MakesAbove p) fs after) (location : Location) :
    MayChange s p fs after location :=
  ((gains_of_run h).others location).imp_right .inr

/-- **Saving changes the file and the directories above it only.** -/
theorem mayChange_of_saves {result : FileSystem × Option IoError} (h : Saves s p fs result)
    (location : Location) : MayChange s p fs result.1 location := by
  cases h with
  | lacking hrun => exact mayChange_of_run hrun location
  | refused hrun => exact mayChange_of_run hrun location
  | written hrun hwrite =>
      rcases writes_of_write hwrite with ⟨written, access, hwrites⟩ | ⟨_, _, -, rfl⟩
      · by_cases hlocation : location = written
        · subst hlocation
          exact .inr (.inl ⟨access, hwrites.file⟩)
        rcases (gains_of_run hrun).others location with hsame |
          ⟨hfree, q, access, entries, hq, hmissing, hdir⟩
        · exact .inl ((hwrites.others location hlocation).trans hsame)
        · obtain ⟨node, hdir', hshape⟩ := find_of_grows hwrites.grows hwrites.cwd hdir
          obtain ⟨entries', rfl⟩ := Node.shape_eq_dir_iff.mp hshape
          exact .inr (.inr ⟨hfree, q, access, entries', hq, hmissing, hdir'⟩)
      · exact mayChange_of_run hrun location

/-! ### Reading what was saved -/

theorem readFile_of_find (hs : s.ReadsBack) {location : Location} {access : Access}
    (hfind : fs.find p = .ok (location, .file access s.bytes)) (hread : access.read = true) :
    readFile fs p = .ok s := by
  have htext : readFileText fs p = .ok s.written := by
    simp only [readFileText, FileSystem.read, hfind, hread, if_true]
    rw [bytes, Text.Utf8.decode?_encode]
    exact congrArg Except.ok String.ofList_toList
  simp only [readFile, htext, read_of_readsBack hs]

/-- **A path that leads to no more than a file** that may be read and written. -/
def LeadsToFile (fs : FileSystem) (p : Path) : Prop :=
  ∀ location node, fs.find p = .ok (location, node) →
    ∃ access content, node = .file access content ∧ access.read = true ∧ access.write = true

/-- A run above a path can only make it lead somewhere if it has steps upwards. -/
theorem up_mem_of_run (h : Relation.ReflTransGen (MakesAbove p) fs after)
    (hmissing : fs.exists? p = false) (hthere : after.exists? p = true) : .up ∈ p.components := by
  by_contra hup
  rw [exists?_of_run h hup hmissing] at hthere
  simp at hthere

/-- **What was saved is read back**, if the path leads anywhere afterwards. -/
theorem readFile_of_saves {result : FileSystem × Option IoError} (hs : s.ReadsBack)
    (h : Saves s p fs result) (hmissing : fs.exists? p = false)
    (hup : .up ∈ p.components → LeadsToFile result.1 p) (hthere : result.1.exists? p = true) :
    readFile result.1 p = .ok s := by
  cases h with
  | lacking hrun hq hne hlacking =>
      rw [exists?_eq_false_of_lacking hq hne hlacking] at hthere
      simp at hthere
  | @refused between e hrun hwrite =>
      -- What is there already is a file that may be written, so there was no refusal.
      obtain ⟨location, node, hfind⟩ := exists?_eq_true_iff.mp hthere
      obtain ⟨access, content, rfl, -, hmay⟩ :=
        hup (up_mem_of_run hrun hmissing hthere) location node hfind
      rw [write, look_output_of_find hfind rfl] at hwrite
      simp [hmay] at hwrite
  | @written between after hrun hwrite =>
      rcases writes_of_write hwrite with ⟨location, access, hwrites⟩ | ⟨location, d, hfind, rfl⟩
      · refine readFile_of_find hs hwrites.file ?_
        rcases hwrites.before with ⟨old, hold⟩ | ⟨-, -, rfl⟩
        · have hbefore : between.exists? p = true := exists?_eq_true_iff.mpr ⟨_, _, hold⟩
          obtain ⟨_, _, hnode, hread, -⟩ :=
            hup (up_mem_of_run hrun hmissing hbefore) _ _ hwrites.file
          obtain ⟨rfl, -⟩ := Node.file.inj hnode
          exact hread
        · rfl
      · obtain ⟨_, _, hnode, -⟩ := hup (up_mem_of_run hrun hmissing hthere) _ _ hfind
        simp at hnode

/-! ### Loading -/

theorem load_of_exists (h : fs.exists? p = true) : load fs p = (fs, readFile fs p) := by
  rw [load, if_pos h]

theorem load_of_missing (h : fs.exists? p = false) : load fs p = ((save {} fs p).1, .ok {}) := by
  rw [load, if_neg (by simp [h])]

theorem cwd_load (fs : FileSystem) (p : Path) : (load fs p).1.cwd = fs.cwd := by
  cases h : fs.exists? p with
  | true => rw [load_of_exists h]
  | false =>
      rw [load_of_missing h]
      exact (saves_save {} fs p).cwd

/-- **What loading the settings file comes to.** -/
structure LoadsFile (fs : FileSystem) (p : Path) : Prop where
  /-- Where something is there, it is read, and the file system stays as it is. -/
  there : fs.exists? p = true → load fs p = (fs, readFile fs p)
  /-- Where nothing is there the defaults hold, whether the file can be made or not. -/
  missing : fs.exists? p = false → (load fs p).2 = .ok {}
  /-- The working directory stays. -/
  cwd : (load fs p).1.cwd = fs.cwd
  /-- What may change then is the file and the directories above it that were not there. -/
  changes : fs.exists? p = false → ∀ location, MayChange {} p fs (load fs p).1 location
  /-- Settings that were loaded are loaded again; only where nothing was there, and the path has steps
  upwards, it must not lead to anything but a file that may be read and written. -/
  again : ∀ s, (load fs p).2 = .ok s →
    (fs.exists? p = false → .up ∈ p.components → LeadsToFile (load fs p).1 p) →
      (load (load fs p).1 p).2 = .ok s

theorem readsBack_defaults : ({} : Settings).ReadsBack := by decide +kernel

/-- **Loading the settings file** for every file system and every path. -/
theorem loadsFile_load (fs : FileSystem) (p : Path) : LoadsFile fs p where
  there := load_of_exists
  missing h := by rw [load_of_missing h]
  cwd := cwd_load fs p
  changes h := by
    rw [load_of_missing h]
    exact mayChange_of_saves (saves_save {} fs p)
  again s hloaded hup := by
    cases h : fs.exists? p with
    | true =>
        rw [load_of_exists h] at hloaded ⊢
        rw [load_of_exists h]
        exact hloaded
    | false =>
        have hfile := hup h
        rw [load_of_missing h] at hloaded hfile ⊢
        obtain rfl := Except.ok.inj hloaded
        cases hagain : (save {} fs p).1.exists? p with
        | true =>
            rw [load_of_exists hagain]
            exact readFile_of_saves readsBack_defaults (saves_save {} fs p) h hfile hagain
        | false => rw [load_of_missing hagain]

/-- An empty directory called `new`, and nothing else. -/
def newDirectory : FileSystem := ⟨.dir .full (.entry (RawText.ofText "new") .emptyDir .none), []⟩

theorem leadsDown_new : LeadsDown (RawText.ofText "new") :=
  ⟨by decide +kernel, by decide +kernel, by decide +kernel, by decide +kernel⟩

theorem mayPass_full (entries : Entries) : MayPass (.dir .full entries) [] :=
  ⟨_, entries, rfl, rfl⟩

theorem makeDirs_new :
    (⟨.emptyDir, []⟩ : FileSystem).makeDirs (.ofText "new") = (newDirectory, none) := by
  have hlook : (⟨.emptyDir, []⟩ : FileSystem).look .entry (.ofText "new") =
      .ok (.free [] (RawText.ofText "new")) := by
    have hnames : namesOf (Path.ofText "new").bytes = [RawText.ofText "new"] := by decide +kernel
    rw [look_eq ⟨by decide +kernel, by decide +kernel, by decide +kernel⟩, hnames]
    exact lookFrom_down (mayPass_full .none) leadsDown_new
  have hancestors : (Path.ofText "new").ancestors = [.ofText "new", .ofText ""] := by decide +kernel
  have hslash : endsInSlash (.ofText "new") = false := by decide +kernel
  have hmade : (⟨.emptyDir, []⟩ : FileSystem).makeDir (.ofText "new") = .ok newDirectory := by
    simp only [makeDir, placeNew, hslash, Bool.false_eq_true, if_false, hlook]
    rfl
  rw [makeDirs, hancestors, makeDirsFrom, hmade]
  rfl

/-- **A load that changes the next one**: the directory on the way to `new/..` is made, and the path
leads to the directory above it. -/
theorem load_upwards :
    ¬ ∀ s, (load ⟨.emptyDir, []⟩ (.ofText "new/..")).2 = .ok s →
      (load (load ⟨.emptyDir, []⟩ (.ofText "new/..")).1 (.ofText "new/..")).2 = .ok s := by
  have hask : IsAskable (.ofText "new/..") := ⟨by decide +kernel, by decide +kernel, by decide +kernel⟩
  have hnames : namesOf (Path.ofText "new/..").bytes = [RawText.ofText "new", RawText.ofText ".."] := by
    decide +kernel
  have hmissing : (⟨.emptyDir, []⟩ : FileSystem).exists? (.ofText "new/..") = false := by
    rw [Bool.eq_false_iff, ne_eq, exists?_eq_true_iff]
    rintro ⟨_, _, hfind⟩
    obtain ⟨-, ⟨_, hpasses⟩, -⟩ := find_eq_ok_iff.mp hfind
    rw [hnames] at hpasses
    obtain ⟨_, hnode⟩ := hpasses.exists_of_name (by decide +kernel) (by decide +kernel)
    cases hnode
  have hfind : newDirectory.find (.ofText "new/..") = .ok ([], newDirectory.root) := by
    refine find_eq_ok_iff.mpr ⟨hask, ⟨linkLimit, ?_⟩, rfl⟩
    rw [hnames]
    refine .down (mayPass_full _) leadsDown_new rfl ?_ (.up ⟨_, _, rfl, rfl⟩ (.done ..))
    simp [Node.IsNoLink, Node.emptyDir]
  have hthere : newDirectory.exists? (.ofText "new/..") = true := exists?_eq_true_iff.mpr ⟨_, _, hfind⟩
  have hparent : (Path.ofText "new/..").parent? = some (.ofText "new") := by decide +kernel
  have hfirst : (load ⟨.emptyDir, []⟩ (.ofText "new/..")).1 = newDirectory := by
    rw [load_of_missing hmissing, save, hparent]
    obtain ⟨e, hrefused⟩ := exists_error_of_write_dir hfind (bytes {})
    simp only [makeDirs_new, hrefused]
  have hagain : (load newDirectory (.ofText "new/..")).2 =
      .error (.unreadable (.ofText "new/..") .isDirectory) := by
    rw [load_of_exists hthere]
    simp only [readFile, readFileText, FileSystem.read, hfind]
    rfl
  intro h
  have hsecond := h {} (by rw [load_of_missing hmissing])
  rw [hfirst, hagain] at hsecond
  simp at hsecond

end LintSuite.Settings
