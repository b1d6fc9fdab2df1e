import LintSuite.CommandLine.Session
import LintSuite.Proofs.Configuration
import LintSuite.Proofs.SettingsFile
import Mathlib

/-!
# The checks before the work

Six things can end a session before it does any work, and they are looked for in a fixed order
(`Check`).  Of those that apply the first one decides how the session ends; what the later ones would
have said is not even looked at, and the first three are decided without a look at the settings file.
`Guarded` puts this together, for every command line and every state of the file system.

Two facts carry it.  A check that is the first to apply makes the session end as the check says
(`stops_of_isFirst`), and a session that no check stops does its work (`works_of_none`).  That
nothing moves before is a property of the one request that a checked session makes of the file
system: to load the settings keeps the working directory (`cwd_loadSettings`).

### Main statements

* `stops_of_isFirst`: the first check that applies decides how the session ends.
* `idle_of_applies`: a session that a check applies to executes nothing and stays where it is.
* `works_of_none`: a session that no check stops does the work that was asked for.
* `guarded_sessionOf`: all of it, for every command line that can be read.

### Design decisions

**Checks are data.**  Each check has a rank, an exit status and a condition (`Check.rank`,
`Check.code`, `Check.Applies`), so that the order of the checks is the order of numbers, and that the
first one counts is one statement and not six.

**Conditions say what the command line says**, and not how it is read: they speak of words without a
meaning, of a word and another one beside it, of merged flags outside their limits.  The request that
is made of the words is related to them once (`request_of_isFirst`, `exists_request_of_none`).

### What is load-bearing

The settings file is looked for behind the third check.  What comes before is decided by the command
line alone (`eq_of_rank_lt`), and what comes behind it by the command line and what was loaded
(`eq_of_le_rank`).  The session falls in two at this place, and so does the proof.
-/

namespace LintSuite

open Host

namespace CommandLine

/-! ### Loading the settings -/

/-- **What the settings file comes to**: a fault, or settings. -/
inductive Loads (around : Surroundings) (fs : FileSystem) :
    Except Settings.FileFault Settings → Prop
  /-- There is no place for it: the defaults. -/
  | nowhere (h : around.settingsPath = none) : Loads around fs (.ok {})
  /-- Nothing is there: the defaults. -/
  | missing {p : Path} (h : around.settingsPath = some p) (hmissing : fs.exists? p = false) :
      Loads around fs (.ok {})
  /-- It cannot be read. -/
  | unreadable {p : Path} {e : IoError} (h : around.settingsPath = some p)
      (hthere : fs.exists? p = true) (hread : fs.read p = .error e) :
      Loads around fs (.error (.unreadable p e))
  /-- It is no text. -/
  | notText {p : Path} {content : List UInt8} (h : around.settingsPath = some p)
      (hthere : fs.exists? p = true) (hread : fs.read p = .ok content)
      (hdecode : Text.Utf8.decode? content = none) :
      Loads around fs (.error (.unreadable p .notText))
  /-- Its text is refused. -/
  | refused {p : Path} {content : List UInt8} {cs : List Char} {e : Json.Fault}
      (h : around.settingsPath = some p) (hthere : fs.exists? p = true)
      (hread : fs.read p = .ok content) (hdecode : Text.Utf8.decode? content = some cs)
      (htext : Settings.read (String.ofList cs) = .error e) :
      Loads around fs (.error (.refused p e))
  /-- Its text is read. -/
  | accepted {p : Path} {content : List UInt8} {cs : List Char} {settings : Settings}
      (h : around.settingsPath = some p) (hthere : fs.exists? p = true)
      (hread : fs.read p = .ok content) (hdecode : Text.Utf8.decode? content = some cs)
      (htext : Settings.read (String.ofList cs) = .ok settings) : Loads around fs (.ok settings)

/-- **Loading gives what the settings file comes to**, and nothing else. -/
theorem loads_iff {around : Surroundings} {fs : FileSystem}
    {result : Except Settings.FileFault Settings} :
    Loads around fs result ↔ (loadSettings around fs).2 = result := by
  constructor
  · intro h
    cases h with
    | nowhere h => simp [loadSettings, h]
    | missing h hmissing => simp [loadSettings, h, Settings.load, hmissing]
    | unreadable h hthere hread =>
        simp [loadSettings, h, Settings.load, hthere, Settings.readFile, Settings.readFileText,
          hread]
    | notText h hthere hread hdecode =>
        simp [loadSettings, h, Settings.load, hthere, Settings.readFile, Settings.readFileText,
          hread, hdecode]
    | refused h hthere hread hdecode htext =>
        simp [loadSettings, h, Settings.load, hthere, Settings.readFile, Settings.readFileText,
          hread, hdecode, htext]
    | accepted h hthere hread hdecode htext =>
        simp [loadSettings, h, Settings.load, hthere, Settings.readFile, Settings.readFileText,
          hread, hdecode, htext]
  · rintro rfl
    cases h : around.settingsPath with
    | none =>
        rw [loadSettings, h]
        exact .nowhere h
    | some p =>
        rw [loadSettings, h]
        show Loads around fs (Settings.load fs p).2
        rw [Settings.load]
        split_ifs with hthere
        · show Loads around fs (Settings.readFile fs p)
          rw [Settings.readFile, Settings.readFileText]
          cases hread : fs.read p with
          | error e => exact .unreadable h hthere hread
          | ok content =>
              dsimp only
              cases hdecode : Text.Utf8.decode? content with
              | none => exact .notText h hthere hread hdecode
              | some cs =>
                  dsimp only
                  cases htext : Settings.read (String.ofList cs) with
                  | error e => exact .refused h hthere hread hdecode htext
                  | ok settings => exact .accepted h hthere hread hdecode htext
        · exact .missing h (by simpa using hthere)

theorem cwd_loadSettings (around : Surroundings) (fs : FileSystem) :
    (loadSettings around fs).1.cwd = fs.cwd := by
  rw [loadSettings]
  split
  · exact Settings.cwd_load fs _
  · rfl

/-! ### The checks -/

/-- **The checks** before the work. -/
inductive Check where
  /-- A word without a meaning. -/
  | unknownWord
  /-- A word that asks for help. -/
  | help
  /-- A word that asks for an installation, and another word. -/
  | installAmongWords
  /-- A settings file that cannot be read. -/
  | settingsFile
  /-- Merged settings outside of their limits. -/
  | settingsRange
  /-- A word or a switch that asks for the version. -/
  | version
  deriving DecidableEq, Repr

namespace Check

/-- The place of a check in the order in which they are made. -/
def rank : Check → Nat
  | .unknownWord => 0
  | .help => 1
  | .installAmongWords => 2
  | .settingsFile => 3
  | .settingsRange => 4
  | .version => 5

/-- The exit status for a check. -/
def code : Check → Nat
  | .unknownWord => 3
  | .help => 0
  | .installAmongWords => 5
  | .settingsFile => 1
  | .settingsRange => 1
  | .version => 0

/-- **When a check applies** to what a command line says, in some surroundings. -/
def Applies (around : Surroundings) (given : Options) (fs : FileSystem) : Check → Prop
  | .unknownWord => ∃ word ∈ given.actions, ActionWord.ofWord? word = none
  | .help => ∃ word ∈ given.actions, ActionWord.ofWord? word = some .help
  | .installAmongWords =>
    (∃ word ∈ given.actions, ActionWord.ofWord? word = some .install) ∧ given.actions.length ≠ 1
  | .settingsFile => ∃ fault, Loads around fs (.error fault)
  | .settingsRange =>
    ∃ settings, Loads around fs (.ok settings) ∧ ¬ (given.flags.merge settings).InRange
  | .version =>
    given.has .version = true ∨ ∃ word ∈ given.actions, ActionWord.ofWord? word = some .version

/-- **The first check that applies.** -/
def IsFirst (around : Surroundings) (given : Options) (fs : FileSystem) (c : Check) : Prop :=
  c.Applies around given fs ∧ ∀ d : Check, d.rank < c.rank → ¬ d.Applies around given fs

/-- If a check applies then there is a first one. -/
theorem exists_isFirst {around : Surroundings} {given : Options} {fs : FileSystem} {c : Check}
    (h : c.Applies around given fs) : ∃ first, IsFirst around given fs first := by
  obtain ⟨first, hfirst, hmin⟩ :=
    (measure rank).wf.has_min {d | d.Applies around given fs} ⟨c, h⟩
  exact ⟨first, hfirst, fun d hd happlies => hmin d happlies hd⟩

/-- The checks that are made before the settings file is looked for. -/
theorem eq_of_rank_lt {c : Check} (h : c.rank < 3) :
    c = .unknownWord ∨ c = .help ∨ c = .installAmongWords := by
  cases c <;> simp [rank] at h ⊢

/-- The checks that are made behind it. -/
theorem eq_of_le_rank {c : Check} (h : 3 ≤ c.rank) :
    c = .settingsFile ∨ c = .settingsRange ∨ c = .version := by
  cases c <;> simp [rank] at h ⊢

end Check

section

variable {around : Surroundings} {given : Options} {fs : FileSystem} {words : List ActionWord}

/-- Words that all have a meaning. -/
theorem exists_words (h : ¬ Check.unknownWord.Applies around given fs) :
    ∃ words, ActionWord.ofWords given.actions = .ok words := by
  cases hwords : ActionWord.ofWords given.actions with
  | ok words => exact ⟨words, rfl⟩
  | error unknown =>
      obtain ⟨before, behind, hactions, hunknown, -⟩ := ActionWord.ofWords_eq_error_iff.mp hwords
      exact absurd ⟨unknown, by simp [hactions], hunknown⟩ h

/-- Whether a meaning is found among the words. -/
theorem contains_iff (h : ActionWord.ofWords given.actions = .ok words) (meaning : ActionWord) :
    words.contains meaning = true ↔
      ∃ word ∈ given.actions, ActionWord.ofWord? word = some meaning := by
  rw [List.contains_iff_mem, ActionWord.mem_of_ofWords h]

/-- The words and the switches of a command line decide on the first three checks. -/
theorem request_of_isFirst {c : Check} (h : c.IsFirst around given fs) (hearly : c.rank < 3)
    (color styled : Bool) :
    ∃ ending, request color styled given = .error ending ∧ ending.status.code = c.code := by
  obtain ⟨happlies, hnone⟩ := h
  rcases Check.eq_of_rank_lt hearly with rfl | rfl | rfl
  · obtain ⟨word, hword, hunknown⟩ := happlies
    cases hwords : ActionWord.ofWords given.actions with
    | error unknown => exact ⟨_, by rw [request, hwords], rfl⟩
    | ok words =>
        have hmap : none ∈ given.actions.map ActionWord.ofWord? :=
          List.mem_map.mpr ⟨word, hword, hunknown⟩
        rw [ActionWord.ofWords_eq_ok_iff.mp hwords] at hmap
        simp at hmap
  · obtain ⟨words, hwords⟩ := exists_words (hnone .unknownWord (by decide))
    have hhelp : words.contains .help = true := (contains_iff hwords _).mpr happlies
    refine ⟨.help styled, ?_, rfl⟩
    simp only [request, hwords, hhelp, if_true]
  · obtain ⟨words, hwords⟩ := exists_words (hnone .unknownWord (by decide))
    have hhelp : words.contains .help = false := by
      rw [Bool.eq_false_iff, ne_eq, contains_iff hwords]
      exact hnone .help (by decide)
    have hinstall : (words.contains .install && words.length != 1) = true := by
      rw [Bool.and_eq_true, contains_iff hwords, bne_iff_ne, ActionWord.length_of_ofWords hwords]
      exact happlies
    refine ⟨.failed .extraArgument color "install takes no other actions", ?_, rfl⟩
    simp only [request, hwords, hhelp, hinstall, if_true, Bool.false_eq_true, if_false]

/-- What words in order ask for, if they ask neither for help nor for too much. -/
def requestOf (given : Options) (words : List ActionWord) : Request :=
  if given.has .version || words.contains .version then .version
  else if words.contains .install then .install
  else .check (ActionWord.selection words)

/-- The words of a command line that none of the first three checks stops. -/
theorem exists_request_of_none (h : ∀ c : Check, c.rank < 3 → ¬ c.Applies around given fs)
    (color styled : Bool) :
    ∃ words, ActionWord.ofWords given.actions = .ok words ∧
      request color styled given = .ok (requestOf given words) := by
  obtain ⟨words, hwords⟩ := exists_words (h .unknownWord (by decide))
  have hhelp : words.contains .help = false := by
    rw [Bool.eq_false_iff, ne_eq, contains_iff hwords]
    exact h .help (by decide)
  have hinstall : (words.contains .install && words.length != 1) = false := by
    rw [Bool.eq_false_iff, ne_eq, Bool.and_eq_true, contains_iff hwords, bne_iff_ne,
      ActionWord.length_of_ofWords hwords]
    exact h .installAmongWords (by decide)
  refine ⟨words, hwords, ?_⟩
  simp only [request, hwords, hhelp, hinstall, Bool.false_eq_true, if_false, requestOf]
  split_ifs <;> rfl

/-- The version is asked for where its check applies. -/
theorem requestOf_eq_version_iff (hwords : ActionWord.ofWords given.actions = .ok words) :
    requestOf given words = .version ↔ Check.version.Applies around given fs := by
  have hversion : (given.has .version || words.contains .version) = true ↔
      Check.version.Applies around given fs := by
    rw [Bool.or_eq_true, contains_iff hwords]
    rfl
  rw [← hversion, requestOf]
  split_ifs <;> simp_all

/-- A settings file without a fault. -/
theorem exists_settings (h : ¬ Check.settingsFile.Applies around given fs) :
    ∃ settings, Loads around fs (.ok settings) := by
  cases hloaded : (loadSettings around fs).2 with
  | error fault => exact absurd ⟨fault, loads_iff.mpr hloaded⟩ h
  | ok settings => exact ⟨settings, loads_iff.mpr hloaded⟩

/-- A settings file without a fault, and merged flags within their limits. -/
theorem exists_settings_inRange (hfile : ¬ Check.settingsFile.Applies around given fs)
    (hrange : ¬ Check.settingsRange.Applies around given fs) :
    ∃ settings, Loads around fs (.ok settings) ∧ (given.flags.merge settings).InRange := by
  obtain ⟨settings, hloads⟩ := exists_settings hfile
  refine ⟨settings, hloads, ?_⟩
  by_contra houtside
  exact hrange ⟨settings, hloads, houtside⟩

/-- A session that its words end, which does not look at the file system. -/
theorem session_of_request_error {ending : Ending}
    (h : request (around.colorFor given) around.styled given = .error ending) :
    session around given fs = ⟨ending, [], fs⟩ := by
  rw [session, prepare, h]

/-- A session whose words are in order, and that has no task. -/
theorem session_of_taskOf_error {asked : Request} {ending : Ending}
    (hrequest : request (around.colorFor given) around.styled given = .ok asked)
    (htask : taskOf (around.colorFor given) given asked (loadSettings around fs).2 =
      .error ending) :
    session around given fs = ⟨ending, [], (loadSettings around fs).1⟩ := by
  rw [session, prepare, hrequest]
  dsimp only
  rw [htask]

/-- A session whose words are in order, and that has a task. -/
theorem session_of_taskOf_ok {asked : Request} {task : Task}
    (hrequest : request (around.colorFor given) around.styled given = .ok asked)
    (htask : taskOf (around.colorFor given) given asked (loadSettings around fs).2 = .ok task) :
    session around given fs =
      task.perform around (around.colorFor given) (loadSettings around fs).1 := by
  rw [session, prepare, hrequest]
  dsimp only
  rw [htask]

/-- What is done about a request with settings within their limits. -/
theorem taskOf_of_inRange {settings : Settings} (h : (given.flags.merge settings).InRange)
    (color : Bool) (asked : Request) :
    taskOf color given asked (.ok settings) =
      match asked with
      | .version => .error .version
      | .install => .ok (.install (given.flags.merge settings))
      | .check selection => .ok (.check (given.flags.merge settings) selection) := by
  have hcheck := Flags.check_eq_ok_iff.mpr h
  cases asked <;> simp only [taskOf, hcheck]

/-- What is done about a request with settings outside of their limits. -/
theorem exists_taskOf_of_not_inRange {settings : Settings}
    (h : ¬ (given.flags.merge settings).InRange) (color : Bool) (asked : Request) :
    ∃ message,
      taskOf color given asked (.ok settings) = .error (.failed .invalidOption color message) := by
  cases hcheck : (given.flags.merge settings).check with
  | error fault => exact ⟨fault.message, by simp only [taskOf, hcheck]⟩
  | ok _ => exact absurd (Flags.check_eq_ok_iff.mp hcheck) h

/-- **The first check that applies ends the session**, and what it says is how it ends.  Only behind
the first three is the settings file looked for. -/
theorem stops_of_isFirst {c : Check} (h : c.IsFirst around given fs) :
    ∃ ending, session around given fs =
        ⟨ending, [], if c.rank < 3 then fs else (loadSettings around fs).1⟩ ∧
      ending.status.code = c.code := by
  by_cases hearly : c.rank < 3
  · obtain ⟨ending, hrequest, hcode⟩ :=
      request_of_isFirst h hearly (around.colorFor given) around.styled
    refine ⟨ending, ?_, hcode⟩
    rw [session_of_request_error hrequest, if_pos hearly]
  · obtain ⟨happlies, hnone⟩ := h
    rw [if_neg hearly]
    -- The words are in order here, so what is left to look at is the settings.
    obtain ⟨words, hwords, hrequest⟩ :=
      exists_request_of_none (fun d hd => hnone d (by omega)) (around.colorFor given) around.styled
    rcases Check.eq_of_le_rank (Nat.le_of_not_lt hearly) with rfl | rfl | rfl
    · obtain ⟨fault, hloads⟩ := happlies
      refine ⟨.failed .invalidOption (around.colorFor given) fault.message,
        session_of_taskOf_error hrequest ?_, rfl⟩
      rw [loads_iff.mp hloads]
      rfl
    · obtain ⟨settings, hloads, hrange⟩ := happlies
      obtain ⟨message, htask⟩ :=
        exists_taskOf_of_not_inRange hrange (around.colorFor given) (requestOf given words)
      refine ⟨.failed .invalidOption (around.colorFor given) message,
        session_of_taskOf_error hrequest ?_, rfl⟩
      rw [loads_iff.mp hloads, htask]
    · obtain ⟨settings, hloads, hrange⟩ :=
        exists_settings_inRange (hnone .settingsFile (by decide)) (hnone .settingsRange (by decide))
      refine ⟨.version, session_of_taskOf_error hrequest ?_, rfl⟩
      rw [loads_iff.mp hloads, (requestOf_eq_version_iff hwords).mpr happlies,
        taskOf_of_inRange hrange]

/-- **A session that a check applies to does nothing**: no command is executed, and it stays in its
directory. -/
theorem idle_of_applies {c : Check} (h : c.Applies around given fs) :
    (session around given fs).calls = [] ∧ (session around given fs).files.cwd = fs.cwd ∧
      ∃ first : Check, first.IsFirst around given fs ∧
        (session around given fs).ending.status.code = first.code := by
  obtain ⟨first, hfirst⟩ := Check.exists_isFirst h
  obtain ⟨ending, hends, hcode⟩ := stops_of_isFirst hfirst
  rw [hends]
  refine ⟨rfl, ?_, first, hfirst, hcode⟩
  show (if first.rank < 3 then fs else (loadSettings around fs).1).cwd = fs.cwd
  split_ifs
  · rfl
  · exact cwd_loadSettings around fs

/-- The task of a session that no check stops. -/
def taskFor (flags : Flags) (words : List ActionWord) : Task :=
  if words.contains .install then .install flags else .check flags (ActionWord.selection words)

/-- **A session that no check stops does its work**, with the merged flags. -/
theorem works_of_none (h : ∀ c : Check, ¬ c.Applies around given fs) :
    ∃ settings words, Loads around fs (.ok settings) ∧
      ActionWord.ofWords given.actions = .ok words ∧
      session around given fs =
        (taskFor (given.flags.merge settings) words).perform around (around.colorFor given)
          (loadSettings around fs).1 := by
  obtain ⟨words, hwords, hrequest⟩ :=
    exists_request_of_none (fun c _ => h c) (around.colorFor given) around.styled
  obtain ⟨settings, hloads, hrange⟩ := exists_settings_inRange (h .settingsFile) (h .settingsRange)
  have hversion : requestOf given words ≠ .version := fun hversion =>
    h .version ((requestOf_eq_version_iff hwords).mp hversion)
  refine ⟨settings, words, hloads, hwords, session_of_taskOf_ok hrequest ?_⟩
  rw [loads_iff.mp hloads, taskOf_of_inRange hrange, taskFor]
  rw [requestOf] at hversion ⊢
  split_ifs at hversion ⊢ <;> first | rfl | exact absurd rfl hversion

end

/-! ### Sessions -/

/-- **A session whose work is guarded by the checks.** -/
structure Guarded (around : Surroundings) (arguments : List String) (given : Options)
    (fs : FileSystem) (record : Record) : Prop where
  /-- A command is executed, or the working directory changed, only if no check applies. -/
  admitted : record.calls ≠ [] ∨ record.files.cwd ≠ fs.cwd →
    ∀ c : Check, ¬ c.Applies around given fs
  /-- If a check applies then nothing is executed, and the first one is how the session ends. -/
  stopped : ∀ c : Check, c.Applies around given fs →
    record.calls = [] ∧ record.files.cwd = fs.cwd ∧
      ∃ first : Check, first.IsFirst around given fs ∧ record.ending.status.code = first.code
  /-- The first three are decided without the settings file: wherever it lies, and whatever is there,
  the session ends in the same way, and leaves the file system as it is. -/
  untouched : ∀ first : Check, first.IsFirst around given fs → first.rank < 3 →
    ∀ place files, sessionOf { around with settingsPath := place } arguments files =
      ⟨record.ending, [], files⟩
  /-- If no check applies then the session does its work, with the merged flags. -/
  works : (∀ c : Check, ¬ c.Applies around given fs) →
    ∃ settings words, Loads around fs (.ok settings) ∧
      ActionWord.ofWords given.actions = .ok words ∧
      record = (taskFor (given.flags.merge settings) words).perform around
        (around.colorFor given) (loadSettings around fs).1

/-- **No session does any work before the checks**, and the first that applies ends it. -/
theorem guarded_sessionOf (around : Surroundings) {arguments : List String} {given : Options}
    (hparse : parse arguments = .ok given) (fs : FileSystem) :
    Guarded around arguments given fs (sessionOf around arguments fs) := by
  have hsession (around : Surroundings) (fs : FileSystem) :
      sessionOf around arguments fs = session around given fs := by
    rw [sessionOf, hparse]
  rw [hsession]
  constructor
  case admitted =>
    intro hmoved c hc
    obtain ⟨hcalls, hcwd, -⟩ := idle_of_applies hc
    rcases hmoved with hmoved | hmoved
    · exact hmoved hcalls
    · exact hmoved hcwd
  case stopped => exact fun c hc => idle_of_applies hc
  case untouched =>
    intro first hfirst hearly place files
    obtain ⟨ending, hrequest, -⟩ :=
      request_of_isFirst hfirst hearly (around.colorFor given) around.styled
    -- The words end the session, and they are the same words elsewhere.
    have helsewhere : session { around with settingsPath := place } given files =
        ⟨ending, [], files⟩ :=
      session_of_request_error hrequest
    rw [hsession, helsewhere, session_of_request_error hrequest]
  case works => exact works_of_none

/-- Surroundings in which every command is silent. -/
def silentSurroundings : Surroundings where
  system := "linux"
  color := false
  styled := false
  settingsPath := some (.ofText "/rc")
  executor _ := { execute _ _ fs := (.ok "", fs), isAvailable _ _ := true, read p fs := fs.read p }

/-- A command line that several checks apply to. -/
def crowdedArguments : List String := ["-V", "update", "lint"]

/-- What it says. -/
def crowdedOptions : Options where
  switches := [.version]
  actions := ["update", "lint"]
  mentioned := [.option .version, .words]

theorem guarded_sessionOf_crowded :
    parse crowdedArguments = .ok crowdedOptions ∧
      Guarded silentSurroundings crowdedArguments crowdedOptions ⟨.emptyDir, []⟩
        (sessionOf silentSurroundings crowdedArguments ⟨.emptyDir, []⟩) ∧
      (sessionOf silentSurroundings crowdedArguments ⟨.emptyDir, []⟩).ending.status.code = 5 :=
  ⟨rfl, guarded_sessionOf silentSurroundings rfl ⟨.emptyDir, []⟩, rfl⟩

end CommandLine

end LintSuite
