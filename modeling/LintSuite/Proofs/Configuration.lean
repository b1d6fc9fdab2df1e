import LintSuite.Proofs.ActionWords
import LintSuite.Settings.Reader
import Mathlib

/-!
# What a run is configured to do

A run takes its values from a command line and from the text of a settings file.  `Configured` says
what becomes of the two, in terms of what the command line spells: which of the two a value comes
from, what the lists hold, which platforms and tools are left.  Limits hold for the values that come
out, wherever they came from, since it is the merged flags that are checked.

`configured_of_accepted` is put together from one lemma for each kind of value: `layered_of_once`
for single values, `splitList_eq_entries` for lists, `Flags.check_eq_ok_iff` for limits, and for
platforms and tools what `distinct` keeps.

### Design decisions

**Values by layers.**  Whether a value comes from the command line, from the settings file or from the
defaults is decided by comparing it with the default, and so a default that is given on the command line
is as good as none.  `Layered` says this in three clauses, and every single value of a run is an
instance of it.

**Limits are on the result.**  They are checked once the layers are merged, which is one hypothesis of
`Accepted` and no condition on either source.  That each value is within its limits is read off it.

The host is a parameter here as elsewhere.  The statement about the platforms needs that it is one,
since a host that is none leaves a run without platforms when no word names one.
-/

namespace LintSuite

open CommandLine

/-! ### Limits -/

namespace Flags

/-- **Flags within the limits.** -/
structure InRange (flags : Flags) : Prop where
  /-- Lines may be as long as the least limit. -/
  least : 70 ≤ flags.length.toNat
  /-- And at most as long as the greatest. -/
  greatest : flags.length.toNat ≤ 100
  /-- The confidence is not negative. -/
  nonneg : 0.0 ≤ flags.confidence
  /-- And at most one. -/
  le_one : flags.confidence ≤ 1.0

theorem check_eq_ok_iff {flags : Flags} : flags.check = .ok () ↔ flags.InRange := by
  have hleast : flags.length < leastLength ↔ flags.length.toNat < 70 := UInt64.lt_iff_toNat_lt
  have hgreatest : greatestLength < flags.length ↔ 100 < flags.length.toNat :=
    UInt64.lt_iff_toNat_lt
  rw [check]
  constructor
  · intro h
    split_ifs at h with hshort hlong hconfidence
    rw [hleast] at hshort
    rw [hgreatest] at hlong
    rw [Bool.and_eq_true, decide_eq_true_eq, decide_eq_true_eq] at hconfidence
    exact ⟨by omega, by omega, hconfidence.1, hconfidence.2⟩
  · rintro ⟨hlow, hhigh, hzero, hone⟩
    rw [if_neg (by rw [hleast]; omega), if_neg (by rw [hgreatest]; omega),
      if_pos (by simp [hzero, hone])]

end Flags

/-- **What is below something is a number.**  The limits leave no room for what is none. -/
theorem isNaN_eq_false_of_le {x y : Float} (h : y ≤ x) : x.isNaN = false := by
  change decide (y.toModel ≤ x.toModel) = true at h
  have hle : y.toModel.unpack.le x.toModel.unpack = true := of_decide_eq_true h
  show x.toModel.unpack.isNaN = false
  generalize y.toModel.unpack = b at hle
  generalize x.toModel.unpack = a at hle
  cases a with
  | notANumber =>
      cases b <;> simp [Float.Model.UnpackedFloat.le, Float.Model.UnpackedFloat.compare] at hle
  | infinity s => rfl
  | zero s => rfl
  | finite s m e hm => rfl

/-! ### Lists -/

theorem betweenCommas_eq_splitOn (cs : List Char) : betweenCommas cs = cs.splitOn ',' := by
  induction cs with
  | nil => rfl
  | cons c rest ih =>
      have hne : rest.splitOn ',' ≠ [] := List.splitOnP_ne_nil _ _
      obtain ⟨piece, others, hpieces⟩ := List.exists_cons_of_ne_nil hne
      have hcons : (c :: rest).splitOn ',' =
          if c = ',' then [] :: rest.splitOn ',' else (c :: piece) :: others := by
        rw [List.splitOn, List.splitOnP_cons_eq_if_modifyHead, ← List.splitOn, hpieces]
        simp
      rw [betweenCommas, ih, hcons, hpieces]

/-- **The entries of a list on the command line**: what stands between the commas of its values,
unless nothing does. -/
def entries (values : List String) : List String :=
  (values.flatMap fun value => (value.toList.splitOn ',').map String.ofList).filter (· ≠ "")

theorem splitList_eq_entries (values : List String) : splitList values = entries values := by
  have hne : (fun text : String => decide (text ≠ "")) ∘ String.ofList = (· != []) := by
    funext cs
    cases cs <;> simp
  simp only [splitList, entries, betweenCommas_eq_splitOn]
  rw [← List.map_flatMap, List.filter_map, hne]

/-! ### Values -/

/-- **A single value** that has a default: what the command line gives lies over what the file says,
but a default that is given gives nothing. -/
inductive Layered {α : Type} [BEq α] (read : String → Except String α) (default file : α) :
    List String → α → Prop
  /-- The command line does not give it. -/
  | silent : Layered read default file [] file
  /-- The command line gives the default. -/
  | default {text : String} {a : α} (h : read text = .ok a) (hdefault : (a == default) = true) :
      Layered read default file [text] file
  /-- The command line gives another value. -/
  | given {text : String} {a : α} (h : read text = .ok a) (hother : (a == default) = false) :
      Layered read default file [text] a

/-- Merging lays single values over those of the file. -/
theorem layered_of_once {α : Type} [BEq α] {read : String → Except String α} {default : α}
    {texts : List String} {said : Option α} (h : Once read texts said)
    (hdefault : (default == default) = true) (file : α) :
    Layered read default file texts
      (if said.getD default == default then file else said.getD default) := by
  cases h with
  | never =>
      rw [Option.getD_none, if_pos hdefault]
      exact .silent
  | @given text a hread =>
      rw [Option.getD_some]
      cases ha : a == default with
      | true => exact .default hread ha
      | false => exact .given hread ha

/-- No time is waited for exactly if the command line says zero. -/
theorem timeLimit_eq_none_iff {given : Options} {texts : List String}
    (h : Once readWord texts given.timeout) (file : Settings) :
    (given.flags.merge file).timeLimit = none ↔ ∃ text, texts = [text] ∧ readWord text = .ok 0 := by
  have hzero : (given.flags.merge file).timeLimit = none ↔
      given.timeout.getD defaultTimeout = 0 := by
    simp [Flags.timeLimit, Flags.merge, Options.flags]
  rw [hzero]
  generalize given.timeout = said at h
  cases h with
  | never => simp [defaultTimeout]
  | @given text a hread => simp [hread]

/-! ### The configuration -/

/-- **What uses and a settings file configure.** -/
structure Configured (uses : List Use) (file : Settings) (config : RunConfig) : Prop where
  /-- Lines may be as long as the least limit. -/
  least : 70 ≤ config.length.toNat
  /-- And at most as long as the greatest. -/
  greatest : config.length.toNat ≤ 100
  /-- The confidence is not negative. -/
  nonneg : 0.0 ≤ config.confidence
  /-- It is at most one. -/
  le_one : config.confidence ≤ 1.0
  /-- And it is a number. -/
  isNumber : config.confidence.isNaN = false
  /-- Where the limit for lines comes from. -/
  length : Layered readWord defaultLength file.length (valuesOf .length uses) config.length
  /-- Where the limit for functions comes from. -/
  complexity :
    Layered readHalfWord defaultComplexity file.complexity (valuesOf .complexity uses)
      config.complexity
  /-- Where the confidence comes from. -/
  confidence :
    Layered readFraction defaultConfidence file.confidence (valuesOf .confidence uses)
      config.confidence
  /-- The words to ignore: those of the command line, then those of the file. -/
  ignore : config.ignore = entries (valuesOf .ignore uses) ++ file.ignore
  /-- What is left out. -/
  prune : config.prune = entries (valuesOf .prune uses) ++ file.prune
  /-- What the spelling check leaves out. -/
  skip : config.skip = entries (valuesOf .skip uses) ++ file.skip
  /-- Either of the two hides progress. -/
  quiet : config.quiet = true ↔ Use.switch .quiet ∈ uses ∨ file.quiet = true
  /-- There is no time limit exactly if zero seconds were given. -/
  unlimited :
    config.timeLimit = none ↔ ∃ text, valuesOf .timeout uses = [text] ∧ readWord text = .ok 0
  /-- There is a platform. -/
  platforms_ne_nil : config.platforms ≠ []
  /-- No platform is there twice. -/
  platforms_nodup : config.platforms.Nodup
  /-- No tool is there twice. -/
  tools_nodup : config.tools.Nodup
  /-- No word removes a tool that is there. -/
  not_removed :
    ∀ t ∈ config.tools, ∀ word ∈ wordsOf uses, ActionWord.ofWord? word ≠ some (.remove t)

/-- **A command line and a settings text that are accepted**, with what they say. -/
structure Accepted (arguments : List String) (text : String) (given : Options)
    (words : List ActionWord) (file : Settings) : Prop where
  /-- The command line can be read. -/
  parses : parse arguments = .ok given
  /-- Its words have a meaning. -/
  known : ActionWord.ofWords given.actions = .ok words
  /-- The settings text can be read. -/
  reads : Settings.read text = .ok file
  /-- What comes of the two is within the limits. -/
  checks : (given.flags.merge file).check = .ok ()

/-- **What a run is configured to do** on a host that is a platform follows from what the command
line spells and what the settings text says. -/
theorem configured_of_accepted {arguments : List String} {text : String} {given : Options}
    {words : List ActionWord} {file : Settings} (h : Accepted arguments text given words file)
    {system : String} (hsystem : (Platform.ofName? system).isSome) (moduleRoot : Bool) :
    ∃ uses, (∀ other, Spelled none arguments other ↔ other = uses) ∧
      Configured uses file
        (RunConfig.of system (given.flags.merge file) (ActionWord.selection words) moduleRoot) := by
  obtain ⟨uses, hspelled, hgiven⟩ := exists_spelled_of_parse h.parses
  have hrange : (given.flags.merge file).InRange := Flags.check_eq_ok_iff.mp h.checks
  refine ⟨uses, hspelled, ?_⟩
  constructor
  case least => exact hrange.least
  case greatest => exact hrange.greatest
  case nonneg => exact hrange.nonneg
  case le_one => exact hrange.le_one
  case isNumber => exact isNaN_eq_false_of_le hrange.nonneg
  case length => exact layered_of_once hgiven.length rfl file.length
  case complexity => exact layered_of_once hgiven.complexity rfl file.complexity
  case confidence => exact layered_of_once hgiven.confidence rfl file.confidence
  case ignore =>
    show splitList given.ignore ++ file.ignore = _
    rw [splitList_eq_entries, hgiven.ignore]
  case prune =>
    show splitList given.prune ++ file.prune = _
    rw [splitList_eq_entries, hgiven.prune]
  case skip =>
    show splitList given.skip ++ file.skip = _
    rw [splitList_eq_entries, hgiven.skip]
  case quiet =>
    show (given.has .quiet || file.quiet) = true ↔ _
    rw [Bool.or_eq_true, Options.has, List.contains_iff_mem, hgiven.switches]
  case unlimited => exact timeLimit_eq_none_iff hgiven.timeout file
  case platforms_ne_nil => exact Selection.platformList_ne_nil _ hsystem
  case platforms_nodup => exact Selection.nodup_platformList _ _
  case tools_nodup => exact Selection.nodup_toolList _
  case not_removed =>
    intro t ht word hword hremove
    refine Selection.not_mem_removed_of_mem_toolList ht (mem_removed_selection.mpr ?_)
    rw [ActionWord.mem_of_ofWords h.known, hgiven.actions]
    exact ⟨word, hword, hremove⟩

/-- A command line with all kinds of uses: a default that is given, a list with a gap, and tools of
which one is removed. -/
def mixedArguments : List String :=
  ["-ql", "80", "--ignore=teh,,recieve", "--over", "15", "all", "noll", "--", "darwin"]

/-- What it says. -/
def mixedOptions : Options where
  ignore := ["teh,,recieve"]
  length := some 80
  complexity := some 15
  switches := [.quiet]
  actions := ["all", "noll", "darwin"]
  mentioned := [.option .quiet, .option .length, .option .ignore, .option .complexity, .words]

/-- A settings text that has more to say about some of the values. -/
def mixedText : String :=
  "\x7b\"over\": 20, \"length\": 90, \"ignore\": [\"hte\"], \"confidence\": 1\x7d"

/-- What it says. -/
def mixedSettings : Settings where
  complexity := 20
  length := 90
  ignore := ["hte"]
  confidence := 1.0

/-- What its words mean. -/
def mixedWords : List ActionWord := [.tools Tool.all, .remove .lineLength, .platforms [.darwin]]

theorem configured_of_accepted_mixed :
    Accepted mixedArguments mixedText mixedOptions mixedWords mixedSettings ∧
      (Platform.ofName? "linux").isSome ∧
      ∃ uses, (∀ other, Spelled none mixedArguments other ↔ other = uses) ∧
        Configured uses mixedSettings
          (RunConfig.of "linux" (mixedOptions.flags.merge mixedSettings)
            (ActionWord.selection mixedWords) true) :=
  have h : Accepted mixedArguments mixedText mixedOptions mixedWords mixedSettings :=
    ⟨rfl, rfl, rfl, rfl⟩
  ⟨h, rfl, configured_of_accepted h rfl true⟩

end LintSuite
