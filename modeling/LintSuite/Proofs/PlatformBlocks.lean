import LintSuite.Proofs.Calls

/-!
# A run, platform by platform

In a world whose answers do not change while a run goes on (`Executor.SteadyFrom`), every action
finds the same and asks the same wherever in the run it stands (`SteadyFrom.performAll_fst`,
`SteadyFrom.callsFrom_eq`).  What a run reports is then read off its plan, action by action, and the
plan falls into blocks: one for each platform, with the tools that depend on it, and one for the
host, with the tools that depend on none.

`runsInBlocks_of_steady` says that each block is a run of its own, so nothing of one platform shows
in the block of another.

### Main statements

* `SteadyFrom.performAll_fst`, `SteadyFrom.callsFrom_eq`: in a steady world actions do not influence
  each other.
* `flatMap_plan`: the plan falls into a block for each platform and one for the host.
* `runsInBlocks_of_steady`: a run is the runs of its blocks, one after another.

### Design decisions

**Steadiness along the run.**  The world need not be steady forever, nor for commands that are not
made: `SteadyFrom` compares the answers after the calls that were made with those at the start.

**A block is a run.**  The block of a platform is described as what a run does that is configured for
this platform and has the tools that depend on it (`onlyPlatform`), and not by a list of commands.  So
whatever is known of runs is known of blocks.

**The host is a name.**  Tools that depend on no platform run in the context of the host, whose name is
part of the configuration.  Nothing here asks whether the host is a platform.
-/

namespace LintSuite

open Host LineLength

variable {σ : Type}

/-! ### Steady worlds -/

/-- **A world that is steady from a state on**: after any calls it replies to a command, finds a
program and shows one of the given files as it does at first. -/
structure Executor.SteadyFrom (x : Executor σ) (s : σ) (files : List Path) : Prop where
  /-- A reply depends on the command and its context alone. -/
  reply : ∀ argv ctx made, (x.execute argv ctx (x.after s made)).1 = (x.execute argv ctx s).1
  /-- What can be found depends on the program alone. -/
  found : ∀ program made, x.isAvailable program (x.after s made) = x.isAvailable program s
  /-- The files do not change. -/
  unchanged : ∀ p ∈ files, ∀ made, x.read p (x.after s made) = x.read p s

/-- The files that an action reads. -/
def Action.filesRead : Action → List Path
  | .scan _ files => files
  | _ => []

namespace Executor.SteadyFrom

variable {x : Executor σ} {s : σ} {files : List Path} (h : x.SteadyFrom s files)

include h

/-- One action finds the same after any calls. -/
theorem perform_fst (normalizer : Normalizer) (made : List Call) {a : Action}
    (ha : ∀ p ∈ a.filesRead, p ∈ files) :
    (a.perform x normalizer (x.after s made)).1 = (a.perform x normalizer s).1 := by
  cases a with
  | announce e => rfl
  | command argv ctx =>
      simp only [Action.perform, runCommand]
      rw [h.reply]
  | treeSpelling system ignore skip ctx =>
      rw [Action.perform, Action.perform, h.found]
      cases Spelling.command? system (x.isAvailable Spelling.program s) ignore skip with
      | error e => rfl
      | ok argv =>
          simp only [runCommand]
          rw [h.reply]
  | scan threshold scanned =>
      have hread : ∀ p ∈ scanned, x.read p (x.after s made) = x.read p s :=
        fun p hp => h.unchanged p (ha p hp) made
      simp only [Action.perform, List.flatMap_def]
      rw [List.map_congr_left fun p hp => congrArg (scanRead threshold p) (hread p hp)]

/-- **Several actions find what each of them finds at first.** -/
theorem performAll_fst (normalizer : Normalizer) (made : List Call) {actions : List Action}
    (hactions : ∀ a ∈ actions, ∀ p ∈ a.filesRead, p ∈ files) :
    (performAll x normalizer (x.after s made) actions).1 =
      actions.flatMap fun a => (a.perform x normalizer s).1 := by
  induction actions generalizing made with
  | nil => rfl
  | cons a rest ih =>
      obtain ⟨ha, hrest⟩ := List.forall_mem_cons.mp hactions
      rw [performAll_cons, Action.perform_snd, ← Executor.after_append, ih _ hrest,
        h.perform_fst normalizer made ha, List.flatMap_cons]

/-- **Several actions ask what each of them asks at first.** -/
theorem callsFrom_eq (done : List Call) (actions : List Action) :
    callsFrom (x.findsSpelling s) done actions =
      actions.flatMap (Action.calls (x.isAvailable Spelling.program s)) := by
  induction actions generalizing done with
  | nil => rfl
  | cons a rest ih =>
      have hfound : x.findsSpelling s done = x.isAvailable Spelling.program s := h.found _ done
      rw [callsFrom, hfound, ih, List.flatMap_cons]

end Executor.SteadyFrom

/-! ### What a run reports -/

/-- The diagnostics of a run. -/
def runDiagnostics (x : Executor σ) (normalizer : Normalizer) (config : RunConfig)
    (sets : FileSets) (s : σ) : List Diagnostic :=
  Event.diagnostics (run x normalizer config sets s).1

/-- The calls of a run. -/
def runCalls (x : Executor σ) (normalizer : Normalizer) (config : RunConfig) (sets : FileSets)
    (s : σ) : List Call :=
  (run x.recording normalizer config sets (s, [])).2.2

/-- The files that are scanned, if any are: those that the compiler reads. -/
def FileSets.scanned (sets : FileSets) : List Path :=
  sets.code.flatMap FileSet.paths

/-- **What a tool can do**: scan these files, or run commands in its context. -/
theorem Tool.cases_of_mem_actions {t : Tool} {config : RunConfig} {sets : FileSets}
    {ctx : RunContext} {a : Action} (ha : a ∈ t.actions config sets ctx) :
    (∃ threshold, a = .scan threshold sets.scanned) ∨ (∃ argv, a = .command argv ctx) ∨
      ∃ system ignore skip, a = .treeSpelling system ignore skip ctx := by
  rw [actions] at ha
  split at ha
  · exact Or.inl ⟨_, List.mem_singleton.mp ha⟩
  · exact Or.inr (Or.inl ⟨_, List.mem_singleton.mp ha⟩)
  · rcases List.mem_append.mp ha with ha | ha
    · obtain ⟨b, -, rfl⟩ := List.mem_map.mp ha
      exact Or.inr (Or.inl ⟨_, rfl⟩)
    · split at ha
      · exact Or.inr (Or.inr ⟨_, _, _, List.mem_singleton.mp ha⟩)
      · exact absurd ha List.not_mem_nil

theorem Tool.filesRead_of_mem_actions {t : Tool} {config : RunConfig} {sets : FileSets}
    {ctx : RunContext} {a : Action} (ha : a ∈ t.actions config sets ctx) :
    ∀ p ∈ a.filesRead, p ∈ sets.scanned := by
  rcases cases_of_mem_actions ha with ⟨threshold, rfl⟩ | ⟨argv, rfl⟩ | ⟨system, ignore, skip, rfl⟩
  · exact fun p hp => hp
  · exact fun p hp => absurd hp List.not_mem_nil
  · exact fun p hp => absurd hp List.not_mem_nil

theorem RunConfig.filesRead_of_mem_plan {config : RunConfig} {sets : FileSets} {a : Action}
    (ha : a ∈ config.plan sets) : ∀ p ∈ a.filesRead, p ∈ sets.scanned := by
  simp only [plan, platformPlan, hostPlan, List.mem_append, List.mem_flatMap, List.mem_cons] at ha
  rcases ha with ⟨ctx, -, rfl | ⟨t, -, rfl | ha⟩⟩ | ⟨t, -, rfl | ha⟩
  · exact fun p hp => absurd hp List.not_mem_nil
  · exact fun p hp => absurd hp List.not_mem_nil
  · exact Tool.filesRead_of_mem_actions ha
  · exact fun p hp => absurd hp List.not_mem_nil
  · exact Tool.filesRead_of_mem_actions ha

theorem Event.diagnostics_map_diagnostic (found : List Diagnostic) :
    Event.diagnostics (found.map .diagnostic) = found := by
  rw [Event.diagnostics, List.filterMap_map]
  exact List.filterMap_some

/-- What one action reports in a state. -/
def Action.diagnostics (x : Executor σ) (normalizer : Normalizer) (s : σ) (a : Action) :
    List Diagnostic :=
  Event.diagnostics (a.perform x normalizer s).1

/-- What one action asks for in a state. -/
def Action.callsIn (x : Executor σ) (s : σ) (a : Action) : List Call :=
  a.calls (x.isAvailable Spelling.program s)

section Reports

variable {x : Executor σ} {s : σ} {sets : FileSets} (h : x.SteadyFrom s sets.scanned)

include h

/-- Several actions report what each of them does. -/
theorem diagnostics_performAll (normalizer : Normalizer) {actions : List Action}
    (hactions : ∀ a ∈ actions, ∀ p ∈ a.filesRead, p ∈ sets.scanned) :
    Event.diagnostics (performAll x normalizer s actions).1 =
      actions.flatMap (Action.diagnostics x normalizer s) := by
  have hevents := h.performAll_fst normalizer [] hactions
  rw [Executor.after_nil] at hevents
  rw [hevents, Event.diagnostics, List.filterMap_flatMap]
  rfl

/-- Several actions ask for what each of them does. -/
theorem calls_performAll_of_steady (normalizer : Normalizer) (actions : List Action) :
    (performAll x.recording normalizer (s, []) actions).2.2 =
      actions.flatMap (Action.callsIn x s) := by
  rw [calls_performAll, h.callsFrom_eq]
  rfl

/-- **The diagnostics of a run** are those of the actions of its plan. -/
theorem runDiagnostics_eq (normalizer : Normalizer) (config : RunConfig) :
    runDiagnostics x normalizer config sets s =
      (config.plan sets).flatMap (Action.diagnostics x normalizer s) := by
  rw [runDiagnostics, run_eq_performAll]
  exact diagnostics_performAll h normalizer fun _ ha => RunConfig.filesRead_of_mem_plan ha

/-- **The calls of a run** are those of the actions of its plan. -/
theorem runCalls_eq (normalizer : Normalizer) (config : RunConfig) :
    runCalls x normalizer config sets s = (config.plan sets).flatMap (Action.callsIn x s) := by
  rw [runCalls, run_eq_performAll]
  exact calls_performAll_of_steady h normalizer _

/-- The diagnostics of a tool are those of its actions. -/
theorem Tool.diagnostics_run_eq (normalizer : Normalizer) (config : RunConfig) (t : Tool)
    (ctx : RunContext) :
    (t.run x normalizer config sets ctx s).1 =
      (t.actions config sets ctx).flatMap (Action.diagnostics x normalizer s) := by
  rw [← diagnostics_performAll h normalizer fun _ => filesRead_of_mem_actions,
    ← run_eq_performAll]
  exact (Event.diagnostics_map_diagnostic _).symm

/-- The calls of a tool are those of its actions. -/
theorem Tool.calls_run_eq (normalizer : Normalizer) (config : RunConfig) (t : Tool)
    (ctx : RunContext) :
    (t.run x.recording normalizer config sets ctx (s, [])).2.2 =
      (t.actions config sets ctx).flatMap (Action.callsIn x s) := by
  rw [← calls_performAll_of_steady h normalizer, ← run_eq_performAll]

end Reports

/-! ### The blocks of a plan -/

/-- **Which tools depend on no platform**: the line scan and the spelling tool. -/
theorem Tool.isPlatformIndependent_iff {t : Tool} :
    t.isPlatformIndependent = true ↔ t = .lineLength ∨ t = .spelling := by
  cases t <;> decide

namespace RunConfig

/-- The configuration with one platform, and of the tools only those that depend on it. -/
def onlyPlatform (config : RunConfig) (p : Platform) : RunConfig :=
  { config with
    platforms := [p]
    tools := config.tools.filter fun t => !t.isPlatformIndependent }

/-- The configuration with only those tools that depend on no platform. -/
def onlyHost (config : RunConfig) : RunConfig :=
  { config with tools := config.tools.filter fun t => t.isPlatformIndependent }

theorem platformPlan_onlyPlatform (config : RunConfig) (p : Platform) (sets : FileSets)
    (ctx : RunContext) :
    (config.onlyPlatform p).platformPlan sets ctx = config.platformPlan sets ctx := by
  rw [platformPlan, onlyPlatform, List.filter_filter]
  simp only [Bool.and_self]
  rfl

theorem hostPlan_onlyPlatform (config : RunConfig) (p : Platform) (sets : FileSets) :
    (config.onlyPlatform p).hostPlan sets = [] := by
  rw [hostPlan, onlyPlatform, List.filter_filter]
  simp only [Bool.and_not_self, List.filter_false, List.flatMap_nil]

/-- **The plan for one platform** is the block of the platform. -/
theorem plan_onlyPlatform (config : RunConfig) (p : Platform) (sets : FileSets) :
    (config.onlyPlatform p).plan sets =
      config.platformPlan sets (.forPlatform p config.cgo) := by
  have hcontexts : (config.onlyPlatform p).contexts = [.forPlatform p config.cgo] := rfl
  rw [plan, hcontexts, List.flatMap_singleton, platformPlan_onlyPlatform, hostPlan_onlyPlatform,
    List.append_nil]

/-- Without tools that depend on a platform, a platform is announced and nothing else. -/
theorem platformPlan_onlyHost (config : RunConfig) (sets : FileSets) (ctx : RunContext) :
    config.onlyHost.platformPlan sets ctx =
      [.announce (.info ("Setting GOOS to " ++ ctx.target))] := by
  rw [platformPlan, onlyHost, List.filter_filter]
  simp only [Bool.not_and_self, List.filter_false, List.flatMap_nil]

theorem hostPlan_onlyHost (config : RunConfig) (sets : FileSets) :
    config.onlyHost.hostPlan sets = config.hostPlan sets := by
  rw [hostPlan, onlyHost, List.filter_filter]
  simp only [Bool.and_self]
  rfl

section Reading

variable {α : Type} {f : Action → List α} (hf : ∀ m, f (.announce (.info m)) = [])

include hf

/-- Read without announcements, the plan for the host is the block of the host, whatever the
platforms are. -/
theorem flatMap_plan_onlyHost (config : RunConfig) (sets : FileSets) :
    (config.onlyHost.plan sets).flatMap f = (config.hostPlan sets).flatMap f := by
  have hplatforms : ∀ ctxs : List RunContext,
      (ctxs.flatMap (config.onlyHost.platformPlan sets)).flatMap f = [] := by
    intro ctxs
    rw [List.flatMap_assoc, List.flatMap_eq_nil_iff]
    intro ctx _
    rw [platformPlan_onlyHost, List.flatMap_singleton, hf]
  rw [plan, List.flatMap_append, hplatforms, List.nil_append, hostPlan_onlyHost]

/-- **The plan falls into blocks**, one for each platform and one for the host. -/
theorem flatMap_plan {config : RunConfig} (h : config.platforms ≠ []) (sets : FileSets) :
    (config.plan sets).flatMap f =
      (config.platforms.flatMap fun p => ((config.onlyPlatform p).plan sets).flatMap f) ++
        (config.onlyHost.plan sets).flatMap f := by
  have hcontexts : config.contexts = config.platforms.map (.forPlatform · config.cgo) :=
    if_neg (by simpa using h)
  rw [flatMap_plan_onlyHost hf, plan, List.flatMap_append, hcontexts, List.flatMap_map,
    List.flatMap_assoc]
  simp only [plan_onlyPlatform]

end Reading

end RunConfig

/-! ### The contexts of calls -/

/-- The calls of a tool are made in the context that it runs in. -/
theorem Tool.context_of_mem_calls {t : Tool} {config : RunConfig} {sets : FileSets}
    {ctx : RunContext} {found : Bool} {c : Call}
    (hc : c ∈ (t.actions config sets ctx).flatMap (Action.calls found)) : c.context = ctx := by
  obtain ⟨a, ha, hc⟩ := List.mem_flatMap.mp hc
  rcases cases_of_mem_actions ha with ⟨threshold, rfl⟩ | ⟨argv, rfl⟩ | ⟨system, ignore, skip, rfl⟩
  · exact absurd hc List.not_mem_nil
  · exact congrArg Call.context (List.mem_singleton.mp hc)
  · rw [Action.calls] at hc
    split at hc
    · exact congrArg Call.context (List.mem_singleton.mp hc)
    · exact absurd hc List.not_mem_nil

theorem RunConfig.context_of_mem_platformPlan {config : RunConfig} {sets : FileSets}
    {ctx : RunContext} {found : Bool} {c : Call}
    (hc : c ∈ (config.platformPlan sets ctx).flatMap (Action.calls found)) : c.context = ctx := by
  rw [platformPlan, List.flatMap_cons, Action.calls, List.nil_append, List.flatMap_assoc] at hc
  obtain ⟨t, -, hc⟩ := List.mem_flatMap.mp hc
  exact Tool.context_of_mem_calls hc

/-! ### The blocks of a run -/

/-- **What it is to run in blocks.**  The block of a platform is the run with this platform alone
and with the tools that depend on it; the last block is the run with the tools that do not. -/
structure RunsInBlocks (x : Executor σ) (normalizer : Normalizer) (config : RunConfig)
    (sets : FileSets) (s : σ) : Prop where
  /-- The diagnostics are those of the platforms in their order, and then those of the host. -/
  diagnostics_eq : runDiagnostics x normalizer config sets s =
    (config.platforms.flatMap fun p =>
        runDiagnostics x normalizer (config.onlyPlatform p) sets s) ++
      runDiagnostics x normalizer config.onlyHost sets s
  /-- The calls are those of the platforms in their order, and then those of the host. -/
  calls_eq : runCalls x normalizer config sets s =
    (config.platforms.flatMap fun p => runCalls x normalizer (config.onlyPlatform p) sets s) ++
      runCalls x normalizer config.onlyHost sets s
  /-- Every call in the block of a platform has the overrides of this platform. -/
  overrides : ∀ p ∈ config.platforms,
    ∀ c ∈ runCalls x normalizer (config.onlyPlatform p) sets s,
      c.context = .forPlatform p config.cgo
  /-- The last block is the same for all platforms, and whether or not C code is compiled. -/
  host_eq : ∀ platforms cgo,
    runDiagnostics x normalizer { config.onlyHost with platforms, cgo } sets s =
        runDiagnostics x normalizer config.onlyHost sets s ∧
      runCalls x normalizer { config.onlyHost with platforms, cgo } sets s =
        runCalls x normalizer config.onlyHost sets s
  /-- It is one run of the line scan, or of the spelling tool, each time that the list of tools has
  it. -/
  host_once :
    runDiagnostics x normalizer config.onlyHost sets s =
        ((config.tools.filter fun t => t = .lineLength ∨ t = .spelling).flatMap fun t =>
          (t.run x normalizer config sets (.host config.system) s).1) ∧
      runCalls x normalizer config.onlyHost sets s =
        (config.tools.filter fun t => t = .lineLength ∨ t = .spelling).flatMap fun t =>
          (t.run x.recording normalizer config sets (.host config.system) (s, [])).2.2
  /-- Every call in it has the target of the host as its only override. -/
  host_overrides : ∀ c ∈ runCalls x normalizer config.onlyHost sets s,
    c.context.env = [("GOOS", config.system)]

/-- The block of the host, read without announcements, tool by tool. -/
theorem RunConfig.flatMap_hostPlan {α : Type} {f : Action → List α}
    (hf : ∀ m, f (.announce (.info m)) = []) (config : RunConfig) (sets : FileSets) :
    (config.hostPlan sets).flatMap f =
      (config.tools.filter fun t => t = .lineLength ∨ t = .spelling).flatMap fun t =>
        (t.actions config sets (.host config.system)).flatMap f := by
  have hfilter : (config.tools.filter fun t => t.isPlatformIndependent) =
      config.tools.filter fun t => t = .lineLength ∨ t = .spelling :=
    List.filter_congr fun t _ => by
      rw [Bool.eq_iff_iff, decide_eq_true_iff]
      exact Tool.isPlatformIndependent_iff
  rw [hostPlan, hfilter, List.flatMap_assoc]
  simp only [List.flatMap_cons, hf, List.nil_append]

/-- **A run goes platform by platform**, and then once for the host: in a world that is steady while
the run goes on, its diagnostics and its calls are those of the blocks one after another, each of
which is a run of its own with nothing of the others. -/
theorem runsInBlocks_of_steady {x : Executor σ} {s : σ} {sets : FileSets} {config : RunConfig}
    (h : x.SteadyFrom s sets.scanned) (hplatforms : config.platforms ≠ [])
    (normalizer : Normalizer) : RunsInBlocks x normalizer config sets s where
  diagnostics_eq := by
    simp only [runDiagnostics_eq h]
    exact RunConfig.flatMap_plan (fun _ => rfl) hplatforms sets
  calls_eq := by
    simp only [runCalls_eq h]
    exact RunConfig.flatMap_plan (fun _ => rfl) hplatforms sets
  overrides := by
    intro p _ c hc
    rw [runCalls_eq h, RunConfig.plan_onlyPlatform] at hc
    exact RunConfig.context_of_mem_platformPlan hc
  host_eq := by
    intro platforms cgo
    -- With other platforms it is the part of the host of another configuration, which has the
    -- same block.
    have hother : { config.onlyHost with platforms, cgo } =
        { config with platforms, cgo }.onlyHost := rfl
    simp only [hother, runDiagnostics_eq h, runCalls_eq h]
    rw [RunConfig.flatMap_plan_onlyHost fun _ => rfl, RunConfig.flatMap_plan_onlyHost fun _ => rfl,
      RunConfig.flatMap_plan_onlyHost fun _ => rfl, RunConfig.flatMap_plan_onlyHost fun _ => rfl]
    exact ⟨rfl, rfl⟩
  host_once := by
    rw [runDiagnostics_eq h, runCalls_eq h, RunConfig.flatMap_plan_onlyHost fun _ => rfl,
      RunConfig.flatMap_plan_onlyHost fun _ => rfl, RunConfig.flatMap_hostPlan fun _ => rfl,
      RunConfig.flatMap_hostPlan fun _ => rfl]
    constructor
    · refine List.flatMap_congr fun t _ => ?_
      exact (Tool.diagnostics_run_eq h normalizer config t _).symm
    · refine List.flatMap_congr fun t _ => ?_
      exact (Tool.calls_run_eq h normalizer config t _).symm
  host_overrides := by
    intro c hc
    rw [runCalls_eq h, RunConfig.flatMap_plan_onlyHost fun _ => rfl,
      RunConfig.flatMap_hostPlan fun _ => rfl] at hc
    obtain ⟨t, -, hc⟩ := List.mem_flatMap.mp hc
    rw [Tool.context_of_mem_calls hc]
    rfl

/-- An executor that counts its commands, and replies with the command and the system it was run
for. -/
def Executor.repeating (found : String → Bool) : Executor Nat where
  execute argv ctx n := (.ok (ctx.target ++ ": " ++ commandLine argv), n + 1)
  isAvailable program _ := found program
  read _ _ := .error .notFound

/-- Two platforms, and tools of both kinds in turns. -/
def interleavedConfig : RunConfig where
  system := "linux"
  platforms := [.windows, .linux]
  tools := [.spelling, .vet, .lineLength, .deadAssignment]
  cgo := true

/-- The tools for platforms run for both, and the others once, whatever their places in the list
are. -/
theorem runsInBlocks_interleaved :
    (runDiagnostics (.repeating fun _ => false) (.ofDir none) interleavedConfig sampleSets 0).map
        (·.message) =
      ["windows: go vet b.go", "windows: go vet pkg/a.go", "windows: ineffassign b.go",
        "windows: ineffassign pkg/a.go", "linux: go vet b.go", "linux: go vet pkg/a.go",
        "linux: ineffassign b.go", "linux: ineffassign pkg/a.go", "linux: misspell b.go",
        "linux: misspell pkg/a.go", "codespell not found in PATH",
        "failed to read b.go: No such file or directory (os error 2)",
        "failed to read pkg/a.go: No such file or directory (os error 2)"] ∧
    (Executor.repeating fun _ => false).SteadyFrom 0 sampleSets.scanned ∧
    interleavedConfig.platforms ≠ [] ∧
    RunsInBlocks (.repeating fun _ => false) (.ofDir none) interleavedConfig sampleSets 0 :=
  ⟨by decide +kernel, ⟨fun _ _ _ => rfl, fun _ _ => rfl, fun _ _ _ => rfl⟩, by decide,
    runsInBlocks_of_steady ⟨fun _ _ _ => rfl, fun _ _ => rfl, fun _ _ _ => rfl⟩ (by decide) _⟩

end LintSuite
