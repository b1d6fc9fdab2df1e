import LintSuite.Proofs.Plan
import Mathlib

/-!
# The commands of a run

What is asked of the world in a run is a list of calls.  An action makes at most one call, and
which one depends on the world only where the spelling of the whole tree is to be checked: by
whether the program for it can be found.  So the calls of a run are a function of the plan and of
the answers to that one question (`performAll_recording`), and of nothing else that the world says.

Two runs in worlds of different kinds therefore make the same calls and announce the same things as
soon as they agree on what can be found (`run_blind`).  The statement is about the loops that run;
the proof goes over to their plan first (`run_eq_performAll`), where the induction is on a list and
each of its steps is one action.  That is the reason for recording calls in the world itself: a
record is a world like any other, and the plan is carried out there as it is elsewhere.

### Main statements

* `performAll_recording`: a record of calls changes nothing and holds the calls of the plan.
* `performAll_announced`: what is announced does not depend on the world.
* `run_blind`: two worlds that agree on what can be found see the same calls and announcements, even
  if their states and their replies have nothing in common.

### What is load-bearing

`Action.perform_snd` and `Action.perform_recording`, the step lemmas.  There are as many cases as
there are kinds of actions, and each says that an action leaves the world as its calls leave it.  A
run follows by induction on the list of actions.  Only the check of the whole tree asks the world
something before it acts, so it alone keeps `callsFrom` from being a map over the plan.
-/

namespace LintSuite

open Host LineLength

variable {σ τ : Type}

/-! ### The world after some calls -/

/-- The world after some calls, one after another. -/
def Executor.after (x : Executor σ) (s : σ) (calls : List Call) : σ :=
  calls.foldl (fun s c => (x.execute c.argv c.context s).2) s

@[simp] theorem Executor.after_nil (x : Executor σ) (s : σ) : x.after s [] = s := rfl

theorem Executor.after_append (x : Executor σ) (s : σ) (made more : List Call) :
    x.after s (made ++ more) = x.after (x.after s made) more :=
  List.foldl_append

/-- Whether the program that checks the spelling of the whole tree can be found after some calls. -/
def Executor.findsSpelling (x : Executor σ) (s : σ) (made : List Call) : Bool :=
  x.isAvailable Spelling.program (x.after s made)

/-! ### The calls of actions -/

/-- **The calls of an action**, if the program that checks the spelling of the whole tree can or
cannot be found. -/
def Action.calls (found : Bool) : Action → List Call
  | .announce _ => []
  | .command argv ctx => [⟨argv, ctx⟩]
  | .treeSpelling system ignore skip ctx =>
    if Spelling.isSupported system && found then [⟨Spelling.command ignore skip, ctx⟩] else []
  | .scan _ _ => []

/-- **The calls of several actions**, after some calls that were made already.  What can be found is
asked anew before each action. -/
def callsFrom (found : List Call → Bool) (done : List Call) : List Action → List Call
  | [] => []
  | a :: rest =>
    a.calls (found done) ++ callsFrom found (done ++ a.calls (found done)) rest

/-- The spelling of the whole tree is checked if the system has a program for it that is found. -/
theorem spellingCommand?_of_runs {system : String} {found : Bool}
    (h : (Spelling.isSupported system && found) = true) (ignore skip : List String) :
    Spelling.command? system found ignore skip = .ok (Spelling.command ignore skip) := by
  rw [Bool.and_eq_true] at h
  rw [Spelling.command?, h.1, h.2]
  rfl

theorem exists_spellingCommand?_of_not_runs {system : String} {found : Bool}
    (h : (Spelling.isSupported system && found) = false) (ignore skip : List String) :
    ∃ e, Spelling.command? system found ignore skip = .error e := by
  rw [Spelling.command?]
  cases hsupported : Spelling.isSupported system with
  | false => exact ⟨.unsupported system, rfl⟩
  | true =>
      rw [hsupported, Bool.true_and] at h
      exact ⟨.notFound, by rw [h]; rfl⟩

/-- **One action leaves the world as its calls leave it.** -/
theorem Action.perform_snd (a : Action) (x : Executor σ) (normalizer : Normalizer) (s : σ) :
    (a.perform x normalizer s).2 = x.after s (a.calls (x.isAvailable Spelling.program s)) := by
  cases a with
  | announce e => rfl
  | command argv ctx => rfl
  | treeSpelling system ignore skip ctx =>
      rw [perform, calls]
      cases hruns : Spelling.isSupported system && x.isAvailable Spelling.program s with
      | false =>
          obtain ⟨e, he⟩ := exists_spellingCommand?_of_not_runs hruns ignore skip
          rw [he]
          rfl
      | true => rw [spellingCommand?_of_runs hruns]; rfl
  | scan threshold files => rfl

/-- Keeping a record changes nothing in one action, and the record grows by its calls. -/
theorem Action.perform_recording (a : Action) (x : Executor σ) (normalizer : Normalizer) (s : σ)
    (done : List Call) :
    a.perform x.recording normalizer (s, done) =
      ((a.perform x normalizer s).1, (a.perform x normalizer s).2,
        done ++ a.calls (x.isAvailable Spelling.program s)) := by
  have hasked : x.recording.isAvailable Spelling.program (s, done) =
      x.isAvailable Spelling.program s := rfl
  cases a with
  | announce e => rw [calls, List.append_nil]; rfl
  | command argv ctx => rfl
  | treeSpelling system ignore skip ctx =>
      rw [perform, perform, hasked, calls]
      cases hruns : Spelling.isSupported system && x.isAvailable Spelling.program s with
      | false =>
          obtain ⟨e, he⟩ := exists_spellingCommand?_of_not_runs hruns ignore skip
          rw [he, if_neg Bool.false_ne_true, List.append_nil]
      | true => rw [spellingCommand?_of_runs hruns]; rfl
  | scan threshold files => rw [calls, List.append_nil]; rfl

/-- **Keeping a record changes nothing in a run, and the record is the list of its calls.** -/
theorem performAll_recording (x : Executor σ) (normalizer : Normalizer) (s : σ)
    (done : List Call) (actions : List Action) :
    performAll x.recording normalizer (x.after s done, done) actions =
      ((performAll x normalizer (x.after s done) actions).1,
        x.after s (done ++ callsFrom (x.findsSpelling s) done actions),
        done ++ callsFrom (x.findsSpelling s) done actions) := by
  -- The record is generalized, since what can be found is asked after the calls made so far.
  induction actions generalizing done with
  | nil => simp [performAll, callsFrom]
  | cons a rest ih =>
      have hafter : (a.perform x normalizer (x.after s done)).2 =
          x.after s (done ++ a.calls (x.findsSpelling s done)) := by
        rw [Action.perform_snd, Executor.after_append]
        rfl
      have hstep : a.perform x.recording normalizer (x.after s done, done) =
          ((a.perform x normalizer (x.after s done)).1,
            x.after s (done ++ a.calls (x.findsSpelling s done)),
            done ++ a.calls (x.findsSpelling s done)) := by
        rw [Action.perform_recording, hafter]
        rfl
      rw [performAll_cons, performAll_cons, hstep, hafter, ih, callsFrom, List.append_assoc]

/-- The record of actions from the start. -/
theorem calls_performAll (x : Executor σ) (normalizer : Normalizer) (s : σ)
    (actions : List Action) :
    (performAll x.recording normalizer (s, []) actions).2.2 =
      callsFrom (x.findsSpelling s) [] actions :=
  congrArg (·.2.2) (performAll_recording x normalizer s [] actions)

/-- The calls of actions that come after others. -/
theorem callsFrom_append (found : List Call → Bool) (done : List Call)
    (actions more : List Action) :
    callsFrom found done (actions ++ more) =
      callsFrom found done actions ++
        callsFrom found (done ++ callsFrom found done actions) more := by
  induction actions generalizing done with
  | nil => simp [callsFrom]
  | cons a rest ih => rw [List.cons_append, callsFrom, callsFrom, ih]; simp

/-- **The calls depend on what can be found only at the moments it is asked.** -/
theorem callsFrom_congr {found found' : List Call → Bool} {done : List Call}
    {actions : List Action}
    (h : ∀ made, made <+: callsFrom found done actions →
      found (done ++ made) = found' (done ++ made)) :
    callsFrom found done actions = callsFrom found' done actions := by
  induction actions generalizing done with
  | nil => rfl
  | cons a rest ih =>
      have hhere : found done = found' done := by
        simpa using h [] List.nil_prefix
      have hrest : callsFrom found (done ++ a.calls (found done)) rest =
          callsFrom found' (done ++ a.calls (found done)) rest := by
        -- A call list of the rest is one of the whole behind the calls of the first action.
        refine ih fun made hmade => ?_
        rw [List.append_assoc]
        exact h _ ((List.prefix_append_right_inj _).mpr hmade)
      rw [callsFrom, callsFrom, ← hhere, hrest]

/-! ### Announcements -/

/-- Whether an event announces something. -/
def Event.isAnnouncement : Event → Bool
  | .info _ => true
  | .step _ => true
  | .diagnostic _ => false

/-- What an action announces. -/
def Action.announced : Action → List Event
  | .announce e => [e].filter Event.isAnnouncement
  | _ => []

theorem filter_isAnnouncement_diagnostics (found : List Diagnostic) :
    (found.map Event.diagnostic).filter Event.isAnnouncement = [] := by
  simp [Event.isAnnouncement]

/-- One action announces the same in every world. -/
theorem Action.perform_announced (a : Action) (x : Executor σ) (normalizer : Normalizer) (s : σ) :
    (a.perform x normalizer s).1.filter Event.isAnnouncement = a.announced := by
  cases a with
  | announce e => rfl
  | command argv ctx => exact filter_isAnnouncement_diagnostics _
  | treeSpelling system ignore skip ctx =>
      rw [perform]
      cases hruns : Spelling.isSupported system && x.isAvailable Spelling.program s with
      | false =>
          obtain ⟨e, he⟩ := exists_spellingCommand?_of_not_runs hruns ignore skip
          rw [he]
          rfl
      | true =>
          rw [spellingCommand?_of_runs hruns]
          exact filter_isAnnouncement_diagnostics _
  | scan threshold files => exact filter_isAnnouncement_diagnostics _

/-- **A run announces the same in every world.** -/
theorem performAll_announced (x : Executor σ) (normalizer : Normalizer) (s : σ)
    (actions : List Action) :
    (performAll x normalizer s actions).1.filter Event.isAnnouncement =
      actions.flatMap Action.announced := by
  induction actions generalizing s with
  | nil => rfl
  | cons a rest ih =>
      rw [performAll_cons, List.filter_append, Action.perform_announced, ih, List.flatMap_cons]

/-! ### Two worlds -/

/-- **A run does not look at the replies.**  Two executors of any kind, in any state, that answer
alike whether a program can be found, whenever the run comes to ask, are asked to execute the same
commands in the same contexts and in the same order, and the run announces the same things in the
same order, whatever either of them replies to a command and whatever it has in its files. -/
theorem run_blind (x : Executor σ) (y : Executor τ) (normalizer : Normalizer) (config : RunConfig)
    (sets : FileSets) (s : σ) (t : τ)
    (h : ∀ made, made <+: (run x.recording normalizer config sets (s, [])).2.2 →
      ∀ program, x.isAvailable program (x.after s made) = y.isAvailable program (y.after t made)) :
    (run x.recording normalizer config sets (s, [])).2.2 =
        (run y.recording normalizer config sets (t, [])).2.2 ∧
      (run x normalizer config sets s).1.filter Event.isAnnouncement =
        (run y normalizer config sets t).1.filter Event.isAnnouncement := by
  rw [run_eq_performAll, calls_performAll] at h
  constructor
  · rw [run_eq_performAll, run_eq_performAll, calls_performAll, calls_performAll]
    exact callsFrom_congr fun made hmade => h made hmade Spelling.program
  · rw [run_eq_performAll, run_eq_performAll, performAll_announced, performAll_announced]

/-- An executor that has its replies to the commands ready, one after another. -/
def Executor.scripted (replies : Nat → Except Failure String) (found : String → Bool) :
    Executor Nat where
  execute _ _ n := (replies n, n + 1)
  isAvailable program _ := found program
  read _ _ := .error .notFound

/-- A configuration with two platforms, a tool that is handed files, and the spelling check. -/
def sampleConfig : RunConfig where
  system := "linux"
  platforms := [.linux, .windows]
  tools := [.vet, .spelling]

/-- Two source files in two directories. -/
def sampleSets : FileSets where
  source := .ofList [(.ofText "pkg", "a.go"), (.ofText ".", "b.go")]

/-- A run in which every second command fails differs from one in which none does in its
diagnostics alone. -/
theorem run_blind_to_failures :
    (run (.scripted (fun _ => .ok "") (· == Spelling.program)) (.ofDir none) sampleConfig
        sampleSets 0).1 ≠
      (run (.scripted (fun n => if n % 2 = 0 then .error (.failed "no") else .ok "")
        (· == Spelling.program)) (.ofDir none) sampleConfig sampleSets 0).1 ∧
    (run (Executor.scripted (fun _ => .ok "") (· == Spelling.program)).recording (.ofDir none)
        sampleConfig sampleSets (0, [])).2.2 =
      (run (Executor.scripted (fun n => if n % 2 = 0 then .error (.failed "no") else .ok "")
        (· == Spelling.program)).recording (.ofDir none) sampleConfig sampleSets (0, [])).2.2 ∧
    (run (.scripted (fun _ => .ok "") (· == Spelling.program)) (.ofDir none) sampleConfig
        sampleSets 0).1.filter Event.isAnnouncement =
      (run (.scripted (fun n => if n % 2 = 0 then .error (.failed "no") else .ok "")
        (· == Spelling.program)) (.ofDir none) sampleConfig sampleSets 0).1.filter
          Event.isAnnouncement :=
  ⟨by decide +kernel, run_blind _ _ _ _ _ _ _ fun _ _ _ => rfl⟩

end LintSuite
