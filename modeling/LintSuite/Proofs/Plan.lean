import LintSuite.Run

/-!
# The plan of a run

A run is two loops over platforms and tools, and a tool a loop over directories (`Run`).  All of them
thread the world and none looks at what was found, so what a run does is settled before it starts:
`plan` lists its actions from the configuration and the files alone, and a run is nothing but the
carrying out of its plan, one action after another (`run_eq_performAll`).

The loops are what runs; the plan is what proofs are about.  It turns a statement about a run into one
about a list, where the actions of one platform or of one tool are a segment, and it leaves a single
kind of step, so what each step preserves is said four times at most, once for each kind of action.
That the plan does not depend on replies is therefore a theorem about the loops, and no assumption.

The load-bearing fact is that performing a list in two parts is performing them one after another
(`performAll_append`).  Each loop then follows by `goThrough_eq_performAll`, from the inside out.

### Design decisions

**Loops first.**  `Run` has the loops as they run, each threading the world through its rounds.  The
plan is defined here, beside the proofs, and no program uses it.  If a loop were to look at a reply one
day, this module would fail and the others would not.

**Four kinds of actions.**  An action is all that happens between two points at which the loops could
stop: an announcement, a command with its findings, the scan of some files, and the check of the
spelling of a whole tree.  The last one is an action of its own because it asks whether its program can
be found, and what it does depends on the answer.
-/

namespace LintSuite

open Host LineLength

/-- **An action** of a run. -/
inductive Action where
  /-- Announcing something. -/
  | announce (e : Event)
  /-- Running a command and reporting its findings. -/
  | command (argv : List String) (ctx : RunContext)
  /-- Checking the spelling of the whole tree, if the program for it can be run on the system. -/
  | treeSpelling (system : String) (ignore skip : List String) (ctx : RunContext)
  /-- Scanning the lines of files. -/
  | scan (threshold : Nat) (files : List Path)
  deriving DecidableEq, Repr

/-! ### Plans -/

/-- **The actions of one tool** in a context. -/
def Tool.actions (t : Tool) (config : RunConfig) (sets : FileSets) (ctx : RunContext) :
    List Action :=
  match t.mode config.moduleRoot with
  | .inProcess => [.scan config.length.toNat (sets.code.flatMap FileSet.paths)]
  | .wholeModule => [.command (t.moduleCommand config) ctx]
  | .perFileGroup =>
    ((t.buckets sets).map fun b => .command (t.filesCommand config b.paths) ctx) ++
      if t = .spelling then [.treeSpelling config.system config.ignore config.skip ctx] else []

namespace RunConfig

/-- The actions for one platform: every tool that depends on it, announced. -/
def platformPlan (config : RunConfig) (sets : FileSets) (ctx : RunContext) : List Action :=
  .announce (.info ("Setting GOOS to " ++ ctx.target)) ::
    (config.tools.filter (!·.isPlatformIndependent)).flatMap fun t =>
      .announce (.step t.entry.progress) :: t.actions config sets ctx

/-- The actions for the host: every tool that depends on no platform, announced. -/
def hostPlan (config : RunConfig) (sets : FileSets) : List Action :=
  (config.tools.filter (·.isPlatformIndependent)).flatMap fun t =>
    .announce (.info t.entry.progress) :: t.actions config sets (.host config.system)

/-- **The plan of a run.** -/
def plan (config : RunConfig) (sets : FileSets) : List Action :=
  config.contexts.flatMap (config.platformPlan sets) ++ config.hostPlan sets

end RunConfig

/-! ### Carrying out a plan -/

section Perform

variable {σ : Type} (x : Executor σ) (normalizer : Normalizer)

/-- **One action**: its events, and the world after it. -/
def Action.perform (s : σ) : Action → List Event × σ
  | .announce e => ([e], s)
  | .command argv ctx =>
    let (found, after) := runCommand x normalizer argv ctx s
    (found.map .diagnostic, after)
  | .treeSpelling system ignore skip ctx =>
    match Spelling.command? system (x.isAvailable Spelling.program s) ignore skip with
    | .ok argv =>
      let (found, after) := runCommand x normalizer argv ctx s
      (found.map .diagnostic, after)
    | .error e => ([.diagnostic (.warn e.message)], s)
  | .scan threshold files =>
    ((files.flatMap fun p => scanRead threshold p (x.read p s)).map .diagnostic, s)

/-- **Several actions**, one after another. -/
def performAll (s : σ) : List Action → List Event × σ
  | [] => ([], s)
  | a :: rest =>
    let (events, after) := a.perform x normalizer s
    let (more, last) := performAll after rest
    (events ++ more, last)

theorem performAll_cons (s : σ) (a : Action) (rest : List Action) :
    performAll x normalizer s (a :: rest) =
      ((a.perform x normalizer s).1 ++
          (performAll x normalizer (a.perform x normalizer s).2 rest).1,
        (performAll x normalizer (a.perform x normalizer s).2 rest).2) := rfl

theorem performAll_singleton (s : σ) (a : Action) :
    performAll x normalizer s [a] = a.perform x normalizer s := by
  rw [performAll_cons, performAll, List.append_nil]

/-- **Carrying out a list in two parts.** -/
theorem performAll_append (s : σ) (actions more : List Action) :
    performAll x normalizer s (actions ++ more) =
      ((performAll x normalizer s actions).1 ++
          (performAll x normalizer (performAll x normalizer s actions).2 more).1,
        (performAll x normalizer (performAll x normalizer s actions).2 more).2) := by
  induction actions generalizing s with
  | nil => rfl
  | cons a rest ih =>
      rw [List.cons_append, performAll_cons, ih, performAll_cons, List.append_assoc]

/-! ### The loops carry out the plan -/

section Loops

variable {α β : Type}

theorem goThrough_cons (f : α → σ → List β × σ) (a : α) (rest : List α) (s : σ) :
    goThrough f (a :: rest) s =
      ((f a s).1 ++ (goThrough f rest (f a s).2).1, (goThrough f rest (f a s).2).2) := rfl

/-- **A loop carries out the actions of its rounds**, one round after another.  What it finds may be
of another kind than events, if there is a way to report it. -/
theorem goThrough_eq_performAll {f : α → σ → List β × σ} {report : β → Event}
    {actions : α → List Action}
    (h : ∀ a s, ((f a s).1.map report, (f a s).2) = performAll x normalizer s (actions a))
    (items : List α) (s : σ) :
    ((goThrough f items s).1.map report, (goThrough f items s).2) =
      performAll x normalizer s (items.flatMap actions) := by
  induction items generalizing s with
  | nil => rfl
  | cons a rest ih =>
      rw [goThrough_cons, List.map_append, List.flatMap_cons, performAll_append, ← h, ← ih]

/-- The same for a loop whose rounds give events. -/
theorem goThrough_events_eq_performAll {f : α → σ → List Event × σ} {actions : α → List Action}
    (h : ∀ a s, f a s = performAll x normalizer s (actions a)) (items : List α) (s : σ) :
    goThrough f items s = performAll x normalizer s (items.flatMap actions) := by
  have hrounds : ∀ a s, ((f a s).1.map id, (f a s).2) = performAll x normalizer s (actions a) := by
    intro a s
    rw [List.map_id, h]
  have hloop := goThrough_eq_performAll x normalizer hrounds items s
  rwa [List.map_id] at hloop

end Loops

variable (config : RunConfig) (sets : FileSets)

namespace Tool

/-- The commands for directories, one after another. -/
theorem goThrough_buckets (t : Tool) (ctx : RunContext) (buckets : List Bucket) (s : σ) :
    performAll x normalizer s
        (buckets.map fun b => .command (t.filesCommand config b.paths) ctx) =
      ((goThrough (fun (b : Bucket) => runCommand x normalizer (t.filesCommand config b.paths) ctx)
          buckets s).1.map .diagnostic,
        (goThrough (fun (b : Bucket) => runCommand x normalizer (t.filesCommand config b.paths) ctx)
          buckets s).2) := by
  rw [List.map_eq_flatMap]
  symm
  refine goThrough_eq_performAll x normalizer (fun b s => ?_) buckets s
  rw [performAll_singleton, Action.perform]

/-- Checking the spelling of the whole tree is one action. -/
theorem spellTree_eq_perform (ctx : RunContext) (s : σ) :
    ((spellTree x normalizer config ctx s).1.map .diagnostic,
        (spellTree x normalizer config ctx s).2) =
      (Action.treeSpelling config.system config.ignore config.skip ctx).perform x normalizer s := by
  rw [spellTree, Action.perform]
  cases Spelling.command? config.system (x.isAvailable Spelling.program s) config.ignore
      config.skip with
  | ok argv => rfl
  | error e => rfl

/-- **A tool carries out its actions**, and reports what it finds. -/
theorem run_eq_performAll (t : Tool) (ctx : RunContext) (s : σ) :
    ((t.run x normalizer config sets ctx s).1.map .diagnostic,
        (t.run x normalizer config sets ctx s).2) =
      performAll x normalizer s (t.actions config sets ctx) := by
  rw [run, actions]
  cases t.mode config.moduleRoot with
  | inProcess => rw [performAll_singleton]; rfl
  | wholeModule => rw [performAll_singleton]; rfl
  | perFileGroup =>
      dsimp only
      rw [performAll_append, goThrough_buckets]
      by_cases ht : t = .spelling
      · rw [if_pos ht, if_pos ht, performAll_singleton, ← spellTree_eq_perform, List.map_append]
      · rw [if_neg ht, if_neg ht, performAll, List.append_nil]

/-- A tool that is announced first. -/
theorem runAnnounced_eq_performAll (announced : Event) (t : Tool) (ctx : RunContext) (s : σ) :
    t.runAnnounced x normalizer config sets announced ctx s =
      performAll x normalizer s (.announce announced :: t.actions config sets ctx) := by
  rw [performAll_cons, Action.perform, ← run_eq_performAll]
  rfl

end Tool

/-- The tools of one platform carry out the part of the plan for it. -/
theorem runPlatform_eq_performAll (ctx : RunContext) (s : σ) :
    runPlatform x normalizer config sets ctx s =
      performAll x normalizer s (config.platformPlan sets ctx) := by
  rw [RunConfig.platformPlan, performAll_cons, Action.perform,
    ← goThrough_events_eq_performAll x normalizer fun t s =>
      Tool.runAnnounced_eq_performAll x normalizer config sets (.step t.entry.progress) t ctx s]
  rfl

/-- The tools for the host carry out the part of the plan for it. -/
theorem runOnHost_eq_performAll (s : σ) :
    runOnHost x normalizer config sets s =
      performAll x normalizer s (config.hostPlan sets) :=
  goThrough_events_eq_performAll x normalizer
    (fun t s => Tool.runAnnounced_eq_performAll x normalizer config sets (.info t.entry.progress) t
      (.host config.system) s) _ s

/-- **A run carries out its plan**, whatever the world replies. -/
theorem run_eq_performAll (s : σ) :
    run x normalizer config sets s = performAll x normalizer s (config.plan sets) := by
  rw [RunConfig.plan, performAll_append,
    ← goThrough_events_eq_performAll x normalizer
      (runPlatform_eq_performAll x normalizer config sets),
    ← runOnHost_eq_performAll]
  rfl

end Perform

end LintSuite
