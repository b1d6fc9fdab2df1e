import LintSuite.Proofs.Calls
import LintSuite.Proofs.FileSet

/-!
# Tools that are handed files

A tool that is handed files is run once for each group of a set, with the files of that group and
nothing else.  `RunsByGroup` says what that comes to: which calls are made and in which order, that
none goes without files, and that all of them together hand over every file once, in the order in
which the sets list them.

The shape of a set carries this: that no command goes without files is that no group is empty, and
the order of the commands is that of the groups (`FileSet.Valid`).

Files are handed over as they are shown, since an argument of a command is text.  Whether the spelling
tool makes its further call depends on the host: the program for it must be one that the system has,
and it must be found after the calls for groups (`Spelling.isSupported`).

### Design decisions

**Calls and files at once.**  `RunsByGroup` keeps the calls, the groups and the files together, since
it is their correspondence that matters: the call for a group is at the place of the group, and what it
hands over is what the group lists.  From the equation for the calls (`calls_run_of_perFileGroup`) each
of its fields is a property of a list.

**What follows the head of a command.**  The files of a call are the arguments behind the words and
flags of the tool (`fileArgs`), so no assumption about what files are called is needed to tell them
apart.
-/

namespace LintSuite

open Host

variable {σ : Type}

namespace Tool

/-- **Which tools are handed files**: the spelling tool, and outside of a module those that would
resolve packages in one. -/
theorem mode_eq_perFileGroup_iff {t : Tool} {moduleRoot : Bool} :
    t.mode moduleRoot = .perFileGroup ↔
      t = .spelling ∨
        moduleRoot = false ∧ (t = .vet ∨ t = .deadAssignment ∨ t = .staticAnalysis) := by
  cases t <;> cases moduleRoot <;> decide

/-! ### What a tool is handed -/

/-- The groups a tool is handed: those of the source files, those of the test files, and for the
spelling tool those of all other files. -/
def handed (t : Tool) (sets : FileSets) : List Bucket :=
  sets.source.buckets ++ sets.test.buckets ++ if t = .spelling then sets.other.buckets else []

/-- The files of the groups that a tool is handed. -/
def handedPaths (t : Tool) (sets : FileSets) : List Path :=
  sets.source.paths ++ sets.test.paths ++ if t = .spelling then sets.other.paths else []

/-- The number of the groups that a tool is handed. -/
def handedCount (t : Tool) (sets : FileSets) : Nat :=
  sets.source.dirCount + sets.test.dirCount + if t = .spelling then sets.other.dirCount else 0

theorem buckets_eq_handed (t : Tool) (sets : FileSets) : t.buckets sets = t.handed sets := by
  rw [buckets, groups, handed]
  by_cases ht : t = .spelling
  · rw [if_pos ht, if_pos ht]
    simp [FileSets.all]
  · rw [if_neg ht, if_neg ht]
    simp [FileSets.code]

theorem flatMap_paths_handed (t : Tool) (sets : FileSets) :
    (t.handed sets).flatMap Bucket.paths = t.handedPaths sets := by
  rw [handed, handedPaths, List.flatMap_append, List.flatMap_append]
  by_cases ht : t = .spelling
  · rw [if_pos ht, if_pos ht]
    rfl
  · rw [if_neg ht, if_neg ht]
    rfl

theorem length_handed (t : Tool) (sets : FileSets) :
    (t.handed sets).length = t.handedCount sets := by
  rw [handed, handedCount, List.length_append, List.length_append]
  by_cases ht : t = .spelling
  · rw [if_pos ht, if_pos ht]
    rfl
  · rw [if_neg ht, if_neg ht]
    rfl

/-- A group that is handed to a tool is one of the three sets. -/
theorem exists_kind_of_mem_handed {t : Tool} {sets : FileSets} {b : Bucket}
    (h : b ∈ t.handed sets) : ∃ kind, b ∈ (sets.ofKind kind).buckets := by
  rw [handed, List.mem_append, List.mem_append] at h
  rcases h with (h | h) | h
  · exact ⟨.source, h⟩
  · exact ⟨.test, h⟩
  · by_cases ht : t = .spelling
    · rw [if_pos ht] at h
      exact ⟨.other, h⟩
    · rw [if_neg ht] at h
      exact absurd h List.not_mem_nil

/-! ### The command of one group -/

/-- The call that hands over the files of one group. -/
def groupCall (t : Tool) (config : RunConfig) (ctx : RunContext) (b : Bucket) : Call :=
  ⟨t.filesCommand config b.paths, ctx⟩

/-- The arguments of a call that are files: all that follow the program and its flags. -/
def fileArgs (t : Tool) (config : RunConfig) (c : Call) : List String :=
  c.argv.drop (t.commandHead config).length

/-- A group is handed over with its files and nothing else. -/
theorem fileArgs_groupCall (t : Tool) (config : RunConfig) (ctx : RunContext) (b : Bucket) :
    t.fileArgs config (t.groupCall config ctx b) = b.paths.map Path.text :=
  List.drop_left

/-- All groups together are handed over with their files in order. -/
theorem flatMap_fileArgs_groupCalls (t : Tool) (config : RunConfig) (ctx : RunContext)
    (buckets : List Bucket) :
    (buckets.map (t.groupCall config ctx)).flatMap (t.fileArgs config) =
      (buckets.flatMap Bucket.paths).map Path.text := by
  rw [List.flatMap_map, List.map_flatMap]
  simp only [fileArgs_groupCall]

/-! ### The calls of a tool -/

/-- The calls of commands are these commands, whatever can be found. -/
theorem callsFrom_commands (found : List Call → Bool) (done calls : List Call) :
    callsFrom found done (calls.map fun c => .command c.argv c.context) = calls := by
  induction calls generalizing done with
  | nil => rfl
  | cons c rest ih =>
      rw [List.map_cons, callsFrom, ih]
      rfl

/-- The actions for groups are the calls for them. -/
theorem map_buckets_eq (t : Tool) (config : RunConfig) (sets : FileSets) (ctx : RunContext) :
    ((t.buckets sets).map fun b => Action.command (t.filesCommand config b.paths) ctx) =
      ((t.handed sets).map (t.groupCall config ctx)).map fun c => .command c.argv c.context := by
  rw [buckets_eq_handed, List.map_map]
  rfl

/-- The calls of a tool that is handed files: one for each group, and for the spelling tool one
more if the system has a program for it that can be found after them. -/
theorem calls_run_of_perFileGroup {t : Tool} {config : RunConfig}
    (h : t.mode config.moduleRoot = .perFileGroup) (x : Executor σ) (normalizer : Normalizer)
    (sets : FileSets) (ctx : RunContext) (s : σ) :
    (t.run x.recording normalizer config sets ctx (s, [])).2.2 =
      (t.handed sets).map (t.groupCall config ctx) ++
        if t = .spelling ∧
            (Spelling.isSupported config.system &&
              x.isAvailable Spelling.program
                (x.after s ((t.handed sets).map (t.groupCall config ctx)))) then
          [⟨Spelling.command config.ignore config.skip, ctx⟩]
        else [] := by
  have hplan := congrArg (·.2.2)
    (run_eq_performAll x.recording normalizer config sets t ctx (s, []))
  rw [calls_performAll, actions, h] at hplan
  dsimp only at hplan
  rw [callsFrom_append, map_buckets_eq, callsFrom_commands, List.nil_append] at hplan
  rw [hplan]
  generalize (t.handed sets).map (t.groupCall config ctx) = groupCalls
  by_cases ht : t = .spelling
  · rw [if_pos ht, callsFrom, callsFrom, List.append_nil, Action.calls, Executor.findsSpelling]
    simp only [ht, true_and]
  · rw [if_neg ht, if_neg fun hboth => ht hboth.1]
    rfl

/-- **What it is to be run by groups.**  Of the calls that a tool makes, `groupCalls` are those for
groups; `found` says whether the system has a program that checks the spelling of the whole tree, and
it can be found after them. -/
structure RunsByGroup (t : Tool) (config : RunConfig) (sets : FileSets) (ctx : RunContext)
    (found : Bool) (groupCalls calls : List Call) : Prop where
  /-- The calls for groups come first, and only the spelling tool makes one more. -/
  calls_eq : calls = groupCalls ++
    if t = .spelling ∧ found then [⟨Spelling.command config.ignore config.skip, ctx⟩] else []
  /-- There is one call for each group, in the order of the groups: those of the source files,
  those of the test files, and for the spelling tool those of all other files. -/
  group : groupCalls = (t.handed sets).map fun b =>
    ⟨t.commandHead config ++ b.paths.map Path.text, ctx⟩
  /-- In each set the groups stand in path order, each directory once. -/
  sorted : ∀ kind, FileSet.Sorted (sets.ofKind kind).buckets
  /-- No call goes without files. -/
  filled : ∀ c ∈ groupCalls, t.fileArgs config c ≠ []
  /-- The files of a call are those of one group. -/
  whole : ∀ c ∈ groupCalls, ∃ b ∈ t.handed sets, t.fileArgs config c = b.paths.map Path.text
  /-- All files are handed over, each as often and at the place where the sets list it. -/
  files : groupCalls.flatMap (t.fileArgs config) = (t.handedPaths sets).map Path.text
  /-- There are as many calls as directories. -/
  count : groupCalls.length = t.handedCount sets

/-- **Tools that are handed files are run by groups**, whatever files were added to the three sets
and in whatever order, and whatever the world replies.  These tools are the spelling tool, and
outside of a module those that would resolve packages in one. -/
theorem runsByGroup_of_perFileGroup (t : Tool) (config : RunConfig)
    (files : List (FileKind × Path × String)) (ctx : RunContext) (x : Executor σ)
    (normalizer : Normalizer) (s : σ) :
    (t.mode config.moduleRoot = .perFileGroup ↔
      t = .spelling ∨
        config.moduleRoot = false ∧ (t = .vet ∨ t = .deadAssignment ∨ t = .staticAnalysis)) ∧
    (t.mode config.moduleRoot = .perFileGroup →
      ∃ groupCalls, t.RunsByGroup config (.ofList files) ctx
        (Spelling.isSupported config.system &&
          x.isAvailable Spelling.program (x.after s groupCalls)) groupCalls
        (t.run x.recording normalizer config (.ofList files) ctx (s, [])).2.2) := by
  refine ⟨mode_eq_perFileGroup_iff, fun h => ?_⟩
  -- From here on the sets are any sets of the right shape.
  have hvalid := FileSets.valid_ofKind_ofList files
  generalize FileSets.ofList files = sets at hvalid
  refine ⟨(t.handed sets).map (t.groupCall config ctx), ?_, rfl, fun kind => (hvalid kind).sorted,
    ?_, ?_, ?_, ?_⟩
  · exact calls_run_of_perFileGroup h x normalizer sets ctx s
  · -- A call without files would be one for an empty group, and there is none.
    intro c hc
    obtain ⟨b, hb, rfl⟩ := List.mem_map.mp hc
    obtain ⟨kind, hkind⟩ := exists_kind_of_mem_handed hb
    rw [fileArgs_groupCall]
    simpa [Bucket.paths] using (hvalid kind).filled b hkind
  · intro c hc
    obtain ⟨b, hb, rfl⟩ := List.mem_map.mp hc
    exact ⟨b, hb, fileArgs_groupCall t config ctx b⟩
  · rw [flatMap_fileArgs_groupCalls, flatMap_paths_handed]
  · rw [List.length_map, length_handed]

/-- Three files of two kinds, of which two are in one directory. -/
def sampleFiles : List (FileKind × Path × String) :=
  [(.other, .ofText "doc", "b.md"), (.source, .ofText ".", "c.go"),
    (.other, .ofText "doc", "a.md")]

/-- The spelling tool is run twice over these files, and then over the whole tree. -/
theorem spelling_runsByGroup :
    Tool.spelling.mode sampleConfig.moduleRoot = .perFileGroup ∧
    (Tool.spelling.run (Executor.scripted (fun _ => .ok "") (· == Spelling.program)).recording
        (.ofDir none) sampleConfig (.ofList sampleFiles) (.host "linux") (0, [])).2.2.map
        (·.argv.take 3) =
      [["misspell", "c.go"], ["misspell", "doc/b.md", "doc/a.md"], ["codespell", "-d", "-f"]] ∧
    ∃ groupCalls,
      Tool.spelling.RunsByGroup sampleConfig (.ofList sampleFiles) (.host "linux") true groupCalls
      (Tool.spelling.run (Executor.scripted (fun _ => .ok "") (· == Spelling.program)).recording
        (.ofDir none) sampleConfig (.ofList sampleFiles) (.host "linux") (0, [])).2.2 :=
  ⟨rfl, by decide +kernel, (runsByGroup_of_perFileGroup .spelling sampleConfig sampleFiles
    (.host "linux")
    (Executor.scripted (fun _ => .ok "") (· == Spelling.program)) (.ofDir none) 0).2 rfl⟩

end Tool

end LintSuite
