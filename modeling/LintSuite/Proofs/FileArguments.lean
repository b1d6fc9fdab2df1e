import LintSuite.Proofs.FileGroups
import LintSuite.Proofs.Survey

/-!
# How files are handed to tools

A tool that is handed files gets each by the names that lead to it from the checked directory, without
the dot that stands for that directory.  A program takes an argument for an option by its first
character, and that is the first character of the first of these names (`head?_bytes`).  So it lies
with the entries of the checked directory itself whether a file is taken for an option: if none of
them starts with a dash then no file is, whatever lies below, and if one does then all files are that
it leads to (`isFileArgument_of_perFileGroup`).

Arguments are texts and names are bytes, so what a tool is handed is made of the names as they are
shown.  That is the path of the file if its names are texts, and otherwise one that need not lead
anywhere; `IsFileArgument` keeps the two apart.  A dash is a byte that decoding neither makes nor
loses, and for that reason the rule about options holds for every name.

### Design decisions

**Arguments are told by names.**  `IsFileArgument` ties an argument to the names of an entry of the
tree, and all three of its fields speak of these names.  So a statement about the arguments of a tool
is one about the tree that was surveyed, and the groups in between do not occur in it.

**The first name decides.**  A program sees an option where the first byte of an argument is a dash.
Nothing is put in front of the names, neither a dot nor two dashes that would end the options; hence
the field `dash_iff`, which is an equivalence: a file at the top that is called `-x.go` is handed over
as an option (`startsWithDash_dashedCalls`).
-/

namespace LintSuite

open Host RawText

/-! ### The first character of a path -/

namespace Path

/-- **A path that starts with a name is spelled with the first byte of the name.** -/
theorem head?_bytes {p : Path} {name : RawText} {rest : List Component}
    (h : p.components = .name name :: rest) : p.bytes.head? = name.head? := by
  rw [components_eq] at h
  -- The path starts neither at the root nor with a dot.
  have hhead : head p.bytes = [] := by
    rcases startOf_cases (segments p.bytes) with hs | hs | hs
    · exact hs
    · rw [headComponents_of_head_slash hs] at h
      cases h
    · rw [headComponents_of_head_dot hs] at h
      cases h
  rw [headComponents_of_head_nil hhead, List.nil_append] at h
  obtain ⟨s, ss, hsegments⟩ := List.exists_cons_of_ne_nil (segments_ne_nil p.bytes)
  rw [head, hsegments] at hhead
  rw [hsegments] at h
  have hs : isTrivial s = false := by
    cases ss with
    | nil =>
        by_contra htrivial
        rw [Bool.not_eq_false] at htrivial
        rw [named_cons_of_trivial htrivial] at h
        cases h
    | cons t ss => exact not_trivial_of_startOf_eq_nil hhead
  rw [named_cons_of_not_trivial hs] at h
  have hname : s = name := by
    have hfirst := (List.cons.inj h).1
    rw [componentOf] at hfirst
    split_ifs at hfirst
    exact Component.name.inj hfirst
  have hne : s ≠ [] := by
    rintro rfl
    cases hs
  obtain ⟨c, cs, rfl⟩ := List.exists_cons_of_ne_nil hne
  rw [← hname, ← joined_segments p.bytes, hsegments, joined_cons_cons]
  rfl

end Path

/-! ### The checked directory -/

namespace Host

/-- **The dot leads to the working directory**, if anywhere. -/
theorem FileSystem.findSelf_here {fs : FileSystem} {node : Node}
    (h : fs.findSelf .here = .ok node) :
    ∃ access entries, node = .dir access entries ∧
      fs.root.get? fs.cwd = some (.dir access entries) := by
  have hlook : fs.look .entry .here = lookFrom fs.root .entry linkLimit fs.cwd [[dot]] := by
    rfl
  cases hget : fs.root.get? fs.cwd with
  | none =>
      rw [findSelf, hlook, lookFrom, hget] at h
      cases h
  | some held =>
      cases held with
      | dir access entries =>
          refine ⟨access, entries, ?_, rfl⟩
          rw [findSelf, hlook, lookFrom, hget] at h
          cases hexecute : access.execute with
          | false => simp [hexecute] at h
          | true =>
              rw [lookFrom, hget] at h
              have hnode : Node.dir access entries = node := by simpa [hexecute] using h
              exact hnode.symm
      | _ =>
          rw [findSelf, hlook, lookFrom, hget] at h
          cases h

end Host

/-! ### The files of a survey -/

/-- **A text that a program takes for an option**: it starts with a dash. -/
def StartsWithDash (text : String) : Prop :=
  text.toList.head? = some '-'

/-- **A name that is taken for an option**: its first byte is a dash. -/
def NameStartsWithDash (name : RawText) : Prop :=
  name.head? = some 0x2D

/-- **An argument that stands for a file** below the working directory. -/
structure IsFileArgument (fs : FileSystem) (arg : String) (names : Location) : Prop where
  /-- The names lead to the file from the working directory. -/
  entry : ∃ node, fs.root.get? (fs.cwd ++ names) = some node ∧ node.isDir = false
  /-- The argument is the path made of these names, each of them decoded, without a dot for the
  working directory. -/
  components : (Path.ofText arg).components = names.map fun name => .name name.decoded
  /-- It is taken for an option exactly if the first of the names is. -/
  dash_iff : StartsWithDash arg ↔ ∃ first ∈ names.head?, NameStartsWithDash first

theorem startsWithDash_shown_iff {bytes : RawText} :
    StartsWithDash bytes.shown ↔ NameStartsWithDash bytes :=
  head?_shown_iff (b := 0x2D) (by decide)

/-- Decoding a name makes no option of it, and no other of one. -/
theorem nameStartsWithDash_decoded {name : RawText} :
    NameStartsWithDash name.decoded ↔ NameStartsWithDash name := by
  rw [← startsWithDash_shown_iff, shown_ofText, startsWithDash_shown_iff]

/-- A set of files that are not there is empty. -/
theorem survey_of_findSelf_error {fs : FileSystem} {root : Path} {e : IoError}
    (h : fs.findSelf root = .error e) (prune : List String) : survey fs prune root = {} := by
  rw [survey, walk, h]
  rfl

/-- **A file that a survey lists is an argument by its own names**, decoded. -/
theorem exists_isFileArgument_of_survey {fs : FileSystem} (hnamed : fs.root.WellNamed)
    {prune : List String} {kind : FileKind} {b : Bucket} {name : String}
    (hb : b ∈ ((survey fs prune .here).ofKind kind).buckets) (hname : name ∈ b.names) :
    ∃ names, IsFileArgument fs (fileIn b.dir name).text names := by
  cases hroot : fs.findSelf .here with
  | error e =>
      rw [survey_of_findSelf_error hroot] at hb
      cases kind <;> cases hb
  | ok node =>
      obtain ⟨access, entries, rfl, hcwd⟩ := FileSystem.findSelf_here hroot
      obtain ⟨hne, hsize⟩ := size_le_of_findSelf hroot
      have hbelow : (Node.dir access entries).WellNamed := hnamed.of_get? hcwd
      obtain ⟨⟨dirs, leaf⟩, ⟨hlisted, -⟩, hlisting⟩ :=
        (mem_listed_survey hroot hbelow).mp (FileSet.mem_listed.mpr ⟨b, hb, rfl, hname⟩)
      obtain ⟨hdir, rfl⟩ := Prod.mk.inj hlisting
      obtain ⟨hdirs, hleaf⟩ :=
        isName_of_mem_leavesOf hbelow hsize ((listed_iff_mem_leavesOf hbelow hsize).mp hlisted).1
      -- The set built the path from the name as it is shown, so only that one is decoded yet.
      have hcomponents :
          (fileIn b.dir leaf.shown).components = (dirs ++ [leaf.decoded]).map .name := by
        rw [components_fileIn (pathAt_bytes_ne_nil hne hdirs) hleaf.decoded hdir.symm]
        exact undotted_leafPath_here (dirs, leaf.decoded) hdirs hleaf.decoded
      refine ⟨dirs ++ [leaf], ?_, ?_, ?_⟩
      · obtain ⟨node, hget, hnode⟩ := hlisted.entry
        exact ⟨node, by rwa [Node.get?_append hcwd], hnode⟩
      · have hagain : leaf.decoded.decoded = leaf.decoded := isText_decoded leaf
        rw [Path.components_ofText_text, hcomponents]
        simp [Component.decoded, Function.comp_def, hagain]
      · rw [Path.text, startsWithDash_shown_iff]
        cases dirs with
        | nil =>
            rw [NameStartsWithDash, Path.head?_bytes hcomponents, ← NameStartsWithDash,
              nameStartsWithDash_decoded]
            simp
        | cons first rest =>
            rw [NameStartsWithDash, Path.head?_bytes hcomponents]
            simp [NameStartsWithDash]

/-- **Every file that a tool is handed is an argument by its own names**, so a file is taken for an
option exactly if the entry of the working directory that leads to it starts with a dash.  Only the
call for the whole tree is handed no files. -/
theorem isFileArgument_of_perFileGroup {σ : Type} {t : Tool} {config : RunConfig}
    (hmode : t.mode config.moduleRoot = .perFileGroup) {fs : FileSystem}
    (hnamed : fs.root.WellNamed) (prune : List String) (x : Executor σ) (normalizer : Normalizer)
    (ctx : RunContext) (s : σ) :
    ∀ c ∈ (t.run x.recording normalizer config (survey fs prune .here) ctx (s, [])).2.2,
      (t = .spelling ∧ c.argv = Spelling.command config.ignore config.skip) ∨
        ∃ files, c.argv = t.commandHead config ++ files ∧
          ∀ arg ∈ files, ∃ names, IsFileArgument fs arg names := by
  intro c hc
  rw [Tool.calls_run_of_perFileGroup hmode, List.mem_append] at hc
  rcases hc with hc | hc
  · right
    obtain ⟨b, hb, rfl⟩ := List.mem_map.mp hc
    obtain ⟨kind, hkind⟩ := Tool.exists_kind_of_mem_handed hb
    refine ⟨b.paths.map Path.text, rfl, fun arg harg => ?_⟩
    rw [Bucket.paths, List.map_map] at harg
    obtain ⟨name, hname, rfl⟩ := List.mem_map.mp harg
    exact exists_isFileArgument_of_survey hnamed hkind hname
  · left
    split_ifs at hc with hspelling
    · obtain rfl := List.mem_singleton.mp hc
      exact ⟨hspelling.1, rfl⟩
    · cases hc

/-- A tree with a file at the top that starts with a dash, and with one further down. -/
def dashedEntries : Entries :=
  .entry (ofText "-x.go") (.file .ofFile []) <|
  .entry (ofText "pkg") (.dir .full (.entry (ofText "-y.go") (.file .ofFile []) .none)) .none

/-- The file system with this tree and nothing else. -/
def dashedFiles : FileSystem := ⟨.dir .full dashedEntries, []⟩

theorem survey_dashedFiles :
    survey dashedFiles [] .here =
      { source := ⟨[⟨.ofText ".", ["-x.go"]⟩, ⟨.ofText "pkg", ["-y.go"]⟩]⟩ } := by
  have hroot : dashedFiles.findSelf .here = .ok (.dir .full dashedEntries) := by cbv
  rw [survey, walk, hroot]
  decide +kernel

/-- What is given on a host where nothing is asked for. -/
def plainConfig : RunConfig := { system := "linux" }

/-- The calls of the vet tool over these files. -/
def dashedCalls : List Call :=
  (Tool.vet.run (Executor.scripted (fun _ => .ok "") fun _ => false).recording (.ofDir none)
    plainConfig (survey dashedFiles [] .here) (.host plainConfig.system) (0, [])).2.2

theorem argv_dashedCalls :
    dashedCalls.map Call.argv = [["go", "vet", "-x.go"], ["go", "vet", "pkg/-y.go"]] := by
  rw [dashedCalls, survey_dashedFiles]
  decide +kernel

theorem isFileArgument_of_perFileGroup_dashed :
    Tool.vet.mode plainConfig.moduleRoot = .perFileGroup ∧ dashedFiles.root.WellNamed ∧
      ∀ c ∈ dashedCalls,
        (Tool.vet = .spelling ∧ c.argv = Spelling.command [] []) ∨
          ∃ files, c.argv = Tool.vet.commandHead plainConfig ++ files ∧
            ∀ arg ∈ files, ∃ names, IsFileArgument dashedFiles arg names := by
  have hmode : Tool.vet.mode plainConfig.moduleRoot = .perFileGroup := rfl
  have hnamed : dashedFiles.root.WellNamed := by
    simp only [dashedFiles, Node.WellNamed, dashedEntries, Entries.WellNamed]
    decide +kernel
  exact ⟨hmode, hnamed, isFileArgument_of_perFileGroup hmode hnamed [] _ _ _ _⟩

/-- **A file may be taken for an option**: the one at the top is. -/
theorem startsWithDash_dashedCalls :
    ¬ ∀ c ∈ dashedCalls, ∀ files, c.argv = Tool.vet.commandHead plainConfig ++ files →
      ∀ arg ∈ files, ¬ StartsWithDash arg := by
  intro h
  have hargv : ["go", "vet", "-x.go"] ∈ dashedCalls.map Call.argv := by
    rw [argv_dashedCalls]
    exact List.mem_cons_self
  obtain ⟨c, hc, hcargv⟩ := List.mem_map.mp hargv
  exact h c hc ["-x.go"] hcargv "-x.go" (List.mem_singleton_self _) rfl

end LintSuite
