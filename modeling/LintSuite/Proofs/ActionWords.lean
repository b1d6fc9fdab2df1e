import LintSuite.Proofs.CommandLine
import LintSuite.RunConfig
import Mathlib

/-!
# What action words select

`Means` says which words there are and what each of them means, and a word is looked up as what it
means: no word means two things, so the order of the lookup decides nothing.  The lists of a run are
described from the words alone, by `WordsSelect`.  Items stand in the order of their first mention
(`IsFirstMentions`), and a list of platforms or of tools depends on the words that name platforms or
tools, in their order, and on what is left out somewhere, which is `SelectAlike`.

Where no word names a platform, the host stands in, if it is one; so everything here is said for a
host of any name.  A removal is not undone by a later mention, which is why the tools that are left
are told in two steps: those chosen, and of them those that no word leaves out.

### Main statements

* `means_iff` and `ofWords_eq_ok_iff_means`: a word is looked up as what it means, and words are read
  exactly if each of them means something.
* `isFirstMentions_distinct`: leaving out repetitions keeps the order of first mentions.
* `selectedLists_eq_of_selectAlike`: words that select alike come to the same lists.
* `wordsSelect_ofWords`: all of this, for the words of one command line.

### Design decisions

**Two descriptions of one selection.**  `Selects` describes the lists outright, by what is mentioned
and what is left out.  `SelectAlike` compares two lists of words and says nothing of what comes out.
The first answers what a command line does, the second which changes of a command line do nothing:
moving words of different kinds past each other (`SelectAlike.of_perm`) and adding command words
(`SelectAlike.of_commands`) are instances of it, and neither needs an induction of its own.

**The lookup is not opened.**  Behind `means_iff` no proof unfolds the table of words again.  A word
that is added to the table needs one more clause of `Means` and nothing else.
-/

namespace LintSuite

/-! ### First mentions -/

section

variable {α : Type} [DecidableEq α] {mentions items : List α}

/-- **Items in the order of their first mention**, each of them once. -/
structure IsFirstMentions (mentions items : List α) : Prop where
  /-- They are what is mentioned. -/
  mem_iff : ∀ a, a ∈ items ↔ a ∈ mentions
  /-- What is mentioned first stands first. -/
  ordered : items.Pairwise fun a b => mentions.idxOf a < mentions.idxOf b

theorem IsFirstMentions.nodup (h : IsFirstMentions mentions items) : items.Nodup := by
  refine h.ordered.imp fun {a b} hlt => ?_
  rintro rfl
  exact lt_irrefl _ hlt

/-- **There is one such order.** -/
theorem IsFirstMentions.unique {other : List α} (h : IsFirstMentions mentions items)
    (hother : IsFirstMentions mentions other) : items = other := by
  have hperm : items.Perm other :=
    (List.perm_ext_iff_of_nodup h.nodup hother.nodup).mpr fun a => by
      rw [h.mem_iff, hother.mem_iff]
  exact hperm.eq_of_pairwise (fun a b _ _ hab hba => absurd hba hab.asymm) h.ordered hother.ordered

/-- One more mention. -/
theorem IsFirstMentions.concat {before seen : List α} (h : IsFirstMentions before seen) (a : α) :
    IsFirstMentions (before ++ [a]) (if seen.contains a then seen else seen ++ [a]) := by
  have hkept {b : α} (hb : b ∈ seen) : (before ++ [a]).idxOf b = before.idxOf b :=
    List.idxOf_append_of_mem ((h.mem_iff b).mp hb)
  have hordered : seen.Pairwise fun b c => (before ++ [a]).idxOf b < (before ++ [a]).idxOf c :=
    h.ordered.imp_of_mem fun {b c} hb hc hlt => by rwa [hkept hb, hkept hc]
  by_cases ha : a ∈ seen
  · rw [if_pos (by simpa using ha)]
    refine ⟨fun b => ?_, hordered⟩
    rw [h.mem_iff, List.mem_append, List.mem_singleton]
    constructor
    · exact Or.inl
    · rintro (hb | rfl)
      · exact hb
      · exact (h.mem_iff b).mp ha
  · rw [if_neg (by simpa using ha)]
    refine ⟨fun b => by simp [h.mem_iff], ?_⟩
    have hlast : (before ++ [a]).idxOf a = before.length := by
      rw [List.idxOf_append_of_notMem (mt (h.mem_iff a).mpr ha)]
      simp
    refine List.pairwise_append.mpr ⟨hordered, List.pairwise_singleton _ a, fun b hb c hc => ?_⟩
    rw [List.mem_singleton.mp hc, hkept hb, hlast]
    exact List.idxOf_lt_length_of_mem ((h.mem_iff b).mp hb)

/-- **`distinct` keeps first mentions.** -/
theorem isFirstMentions_distinct (mentions : List α) :
    IsFirstMentions mentions (distinct mentions) := by
  have hfold : ∀ before seen : List α, IsFirstMentions before seen →
      IsFirstMentions (before ++ mentions)
        (mentions.foldl (fun seen a => if seen.contains a then seen else seen ++ [a]) seen) := by
    induction mentions with
    | nil => exact fun before seen h => by simpa using h
    | cons a mentions ih =>
        intro before seen h
        rw [List.append_cons]
        exact ih _ _ (h.concat a)
  exact hfold [] [] ⟨fun a => by simp, List.Pairwise.nil⟩

theorem isFirstMentions_iff : IsFirstMentions mentions items ↔ items = distinct mentions := by
  constructor
  · exact fun h => h.unique (isFirstMentions_distinct mentions)
  · rintro rfl
    exact isFirstMentions_distinct mentions

end

/-! ### Lists of a selection -/

namespace Selection

/-- On a host that is a platform, there is always a platform to run for. -/
theorem platformList_ne_nil (s : Selection) {system : String}
    (hsystem : (Platform.ofName? system).isSome) : s.platformList system ≠ [] := by
  rw [platformList]
  split_ifs with h
  · obtain ⟨host, hhost⟩ := Option.isSome_iff_exists.mp hsystem
    rw [hhost]
    exact List.cons_ne_nil _ _
  · obtain ⟨p, hp⟩ := List.exists_mem_of_ne_nil s.platforms (by simpa using h)
    exact List.ne_nil_of_mem (((isFirstMentions_distinct _).mem_iff p).mpr hp)

theorem nodup_platformList (s : Selection) (system : String) : (s.platformList system).Nodup := by
  rw [platformList]
  split_ifs
  · cases Platform.ofName? system with
    | none => exact List.nodup_nil
    | some host => exact List.nodup_singleton host
  · exact (isFirstMentions_distinct _).nodup

theorem nodup_toolList (s : Selection) : s.toolList.Nodup := by
  refine List.Nodup.filter _ ?_
  split_ifs
  · decide
  · exact (isFirstMentions_distinct _).nodup

theorem not_mem_removed_of_mem_toolList {s : Selection} {t : Tool} (h : t ∈ s.toolList) :
    t ∉ s.removed := by
  have hkept := (List.mem_filter.mp h).2
  simpa using hkept

end Selection

namespace CommandLine

/-! ### What words mean -/

/-- The words for a platform. -/
def platformWords : Platform → List String
  | .darwin => ["d", "darwin"]
  | .linux => ["l", "linux"]
  | .windows => ["w", "windows"]

/-- The words for a tool. -/
def toolWords (t : Tool) : List String :=
  [t.entry.name, t.entry.shorthand]

/-- **What an action word means.** -/
inductive Means : String → ActionWord → Prop
  /-- The help text. -/
  | help {word : String} (h : word ∈ ["h", "help"]) : Means word .help
  /-- Installing the tools. -/
  | install {word : String} (h : word ∈ ["i", "install", "u", "update", "upgrade"]) :
      Means word .install
  /-- The version. -/
  | version {word : String} (h : word ∈ ["v", "version"]) : Means word .version
  /-- A platform. -/
  | platform {word : String} (p : Platform) (h : word ∈ platformWords p) :
      Means word (.platforms [p])
  /-- All platforms. -/
  | allPlatforms {word : String} (h : word ∈ ["dlw", "allos", "ao"]) :
      Means word (.platforms Platform.all)
  /-- A tool. -/
  | tool {word : String} (t : Tool) (h : word ∈ toolWords t) : Means word (.tools [t])
  /-- All tools. -/
  | allTools {word : String} (h : word ∈ ["all", "alltools", "at"]) : Means word (.tools Tool.all)
  /-- Leaving a tool out. -/
  | removal {word : String} (t : Tool) (h : word ∈ toolWords t) : Means ("no" ++ word) (.remove t)

theorem mem_toolWords_of_ofWord? {word : String} {t : Tool} (h : Tool.ofWord? word = some t) :
    word ∈ toolWords t := by
  have hname := List.find?_some h
  simp only [Bool.or_eq_true, beq_iff_eq] at hname
  simpa [toolWords, eq_comm] using hname

theorem means_of_mem_fixedWords {word : String} {entry : List String × ActionWord}
    (h : entry ∈ fixedWords) (hword : word ∈ entry.1) : Means word entry.2 := by
  simp only [fixedWords, List.mem_cons, List.not_mem_nil, or_false] at h
  rcases h with rfl | rfl | rfl | rfl | rfl | rfl | rfl | rfl
  · exact .help hword
  · exact .install hword
  · exact .version hword
  · exact .platform .darwin hword
  · exact .platform .linux hword
  · exact .platform .windows hword
  · exact .allPlatforms hword
  · exact .allTools hword

theorem means_of_removed? {word : String} {t : Tool} (h : removed? word = some t) :
    Means word (.remove t) := by
  rw [removed?] at h
  split at h
  · next rest hword =>
      have htext : word = "no" ++ String.ofList rest := by
        rw [← String.toList_inj, hword]
        simp
      rw [htext]
      exact .removal t (mem_toolWords_of_ofWord? h)
  · cases h

theorem ofWord?_of_mem_fixedWords : ∀ entry ∈ fixedWords, ∀ word ∈ entry.1,
    ActionWord.ofWord? word = some entry.2 := by
  decide

/-- No word for a tool is one of the fixed words, and no removal is a word of another kind. -/
theorem ofWord?_of_mem_toolWords (t : Tool) : ∀ word ∈ toolWords t,
    ActionWord.ofWord? word = some (.tools [t]) ∧
      ActionWord.ofWord? ("no" ++ word) = some (.remove t) := by
  cases t <;> decide

/-- **A word is looked up as what it means**, which is one thing at most. -/
theorem means_iff {word : String} {meaning : ActionWord} :
    Means word meaning ↔ ActionWord.ofWord? word = some meaning := by
  constructor
  · intro h
    cases h with
    | help h => exact ofWord?_of_mem_fixedWords (_, .help) (by simp [fixedWords]) _ h
    | install h => exact ofWord?_of_mem_fixedWords (_, .install) (by simp [fixedWords]) _ h
    | version h => exact ofWord?_of_mem_fixedWords (_, .version) (by simp [fixedWords]) _ h
    | platform p h =>
        refine ofWord?_of_mem_fixedWords (platformWords p, .platforms [p]) ?_ _ h
        cases p <;> simp [fixedWords, platformWords]
    | allPlatforms h =>
        exact ofWord?_of_mem_fixedWords (_, .platforms _) (by simp [fixedWords]) _ h
    | tool t h => exact (ofWord?_of_mem_toolWords t _ h).1
    | allTools h => exact ofWord?_of_mem_fixedWords (_, .tools _) (by simp [fixedWords]) _ h
    | removal t h => exact (ofWord?_of_mem_toolWords t _ h).2
  · intro h
    rw [ActionWord.ofWord?] at h
    split at h
    · next ws found hfind =>
        obtain rfl := Option.some.inj h
        exact means_of_mem_fixedWords (List.mem_of_find?_eq_some hfind)
          (by simpa using List.find?_some hfind)
    · split at h
      · next t htool =>
          obtain rfl := Option.some.inj h
          exact .tool t (mem_toolWords_of_ofWord? htool)
      · obtain ⟨t, hremoved, rfl⟩ := Option.map_eq_some_iff.mp h
        exact means_of_removed? hremoved

/-- Words are in order exactly if they have meanings. -/
theorem ofWords_eq_ok_iff_means {words : List String} {meanings : List ActionWord} :
    ActionWord.ofWords words = .ok meanings ↔ List.Forall₂ Means words meanings := by
  have hmeans : Means = fun word meaning => ActionWord.ofWord? word = some meaning := by
    funext word meaning
    exact propext means_iff
  rw [ActionWord.ofWords_eq_ok_iff, ← List.forall₂_eq_eq_eq, List.forall₂_map_left_iff,
    List.forall₂_map_right_iff, hmeans]

theorem exists_meanings_iff {words : List String} :
    (∃ meanings, List.Forall₂ Means words meanings) ↔ ∀ word ∈ words, ∃ m, Means word m := by
  induction words with
  | nil => simp
  | cons word words ih =>
      rw [List.forall_mem_cons, ← ih]
      constructor
      · rintro ⟨_, h⟩
        cases h with
        | cons hword hrest => exact ⟨⟨_, hword⟩, ⟨_, hrest⟩⟩
      · rintro ⟨⟨m, hword⟩, ⟨meanings, hrest⟩⟩
        exact ⟨m :: meanings, .cons hword hrest⟩

/-! ### What words name -/

/-- **A word that names something** of a kind: a platform, a tool, or a tool to leave out. -/
def Names {β : Type} (named : ActionWord → List β) (word : String) : Prop :=
  ∃ meaning, Means word meaning ∧ named meaning ≠ []

section

variable {β : Type} {named : ActionWord → List β} {word : String}

/-- What a word names, if anything. -/
def namedBy (named : ActionWord → List β) (word : String) : List β :=
  ((ActionWord.ofWord? word).map named).getD []

theorem namedBy_of_means {meaning : ActionWord} (h : Means word meaning) :
    namedBy named word = named meaning := by
  rw [namedBy, means_iff.mp h]
  rfl

theorem names_iff : Names named word ↔ namedBy named word ≠ [] := by
  constructor
  · rintro ⟨meaning, h, hne⟩
    rwa [namedBy_of_means h]
  · intro h
    cases hword : ActionWord.ofWord? word with
    | none => simp [namedBy, hword] at h
    | some meaning =>
        have hmeans := means_iff.mpr hword
        rw [namedBy_of_means hmeans] at h
        exact ⟨meaning, hmeans, h⟩

instance (named : ActionWord → List β) : DecidablePred (Names named) := fun word =>
  decidable_of_iff (¬ (namedBy named word).isEmpty = true) (by
    rw [List.isEmpty_iff]
    exact names_iff.symm)

/-- What words name is named by the words that name something. -/
theorem flatMap_namedBy_filter (words : List String) :
    (words.filter (Names named ·)).flatMap (namedBy named) = words.flatMap (namedBy named) := by
  induction words with
  | nil => rfl
  | cons word words ih =>
      rw [List.filter_cons, List.flatMap_cons]
      by_cases h : Names named word
      · rw [if_pos (by simpa using h), List.flatMap_cons, ih]
      · rw [if_neg (by simpa using h), ih, not_not.mp (mt names_iff.mpr h), List.nil_append]

theorem flatMap_of_means {words : List String} {meanings : List ActionWord}
    (h : List.Forall₂ Means words meanings) :
    meanings.flatMap named = words.flatMap (namedBy named) := by
  induction h with
  | nil => rfl
  | cons hword _ ih => rw [List.flatMap_cons, List.flatMap_cons, namedBy_of_means hword, ih]

/-- **What is named depends on the words that name something**, and on their order. -/
theorem flatMap_eq_of_filter {words others : List String} {meanings found : List ActionWord}
    (h : List.Forall₂ Means words meanings) (hothers : List.Forall₂ Means others found)
    (hsame : others.filter (Names named ·) = words.filter (Names named ·)) :
    found.flatMap named = meanings.flatMap named := by
  rw [flatMap_of_means h, flatMap_of_means hothers, ← flatMap_namedBy_filter others, hsame,
    flatMap_namedBy_filter]

/-- Nothing is named exactly if no word names anything. -/
theorem flatMap_eq_nil_iff_names {words : List String} {meanings : List ActionWord}
    (h : List.Forall₂ Means words meanings) :
    meanings.flatMap named = [] ↔ ∀ word ∈ words, ¬ Names named word := by
  rw [flatMap_of_means h, List.flatMap_eq_nil_iff]
  exact forall₂_congr fun word _ => by rw [names_iff, not_not]

end

/-! ### What is selected -/

open ActionWord

instance (word : String) (meaning : ActionWord) : Decidable (Means word meaning) :=
  decidable_of_iff _ means_iff.symm

/-- **A command word**: one that says what the program itself is to do. -/
def IsCommand (word : String) : Prop :=
  Means word .help ∨ Means word .install ∨ Means word .version

instance : DecidablePred IsCommand := fun word =>
  inferInstanceAs (Decidable (Means word .help ∨ Means word .install ∨ Means word .version))

theorem Means.unique {word : String} {meaning other : ActionWord} (h : Means word meaning)
    (hother : Means word other) : meaning = other := by
  rw [means_iff] at h hother
  exact Option.some.inj (h.symm.trans hother)

/-- A command word names nothing. -/
theorem not_isCommand_of_names {β : Type} {named : ActionWord → List β}
    (hnamed : ∀ m ∈ [ActionWord.help, .install, .version], named m = []) {word : String}
    (h : Names named word) : ¬ IsCommand word := by
  obtain ⟨meaning, hmeans, hne⟩ := h
  rintro (hcommand | hcommand | hcommand)
  all_goals
    obtain rfl := hmeans.unique hcommand
    exact hne (hnamed _ (by simp))

/-- **Words that select alike**: the words for platforms are the same in the same order, and so are
the words for tools, and the same tools are left out, wherever that is said. -/
structure SelectAlike (words others : List String) : Prop where
  /-- The words for platforms. -/
  platforms : others.filter (Names platformsNamed ·) = words.filter (Names platformsNamed ·)
  /-- The words for tools. -/
  tools : others.filter (Names toolsNamed ·) = words.filter (Names toolsNamed ·)
  /-- The tools left out. -/
  removed : ∀ t, (∃ word ∈ others, Means word (.remove t)) ↔ ∃ word ∈ words, Means word (.remove t)

/-- A removal may stand anywhere. -/
theorem SelectAlike.of_perm {words others : List String} (h : others.Perm words)
    (hplatforms : others.filter (Names platformsNamed ·) = words.filter (Names platformsNamed ·))
    (htools : others.filter (Names toolsNamed ·) = words.filter (Names toolsNamed ·)) :
    SelectAlike words others where
  platforms := hplatforms
  tools := htools
  removed _ := exists_congr fun _ => and_congr_left' h.mem_iff

/-- Command words make no difference. -/
theorem SelectAlike.of_commands {words others : List String}
    (h : others.filter (¬ IsCommand ·) = words.filter (¬ IsCommand ·)) :
    SelectAlike words others := by
  have hnames {β : Type} {named : ActionWord → List β}
      (hnamed : ∀ m ∈ [ActionWord.help, .install, .version], named m = []) (words : List String) :
      (words.filter (¬ IsCommand ·)).filter (Names named ·) = words.filter (Names named ·) := by
    rw [List.filter_filter]
    refine List.filter_congr fun word _ => ?_
    by_cases hword : Names named word
    · simp [hword, not_isCommand_of_names hnamed hword]
    · simp [hword]
  have hremoval {t : Tool} {word : String} (hword : Means word (.remove t)) :
      word ∈ others ↔ word ∈ words := by
    have hnamed : ∀ m ∈ [ActionWord.help, .install, .version], toolsRemoved m = [] := by
      simp [toolsRemoved]
    have hnot : ¬ IsCommand word :=
      not_isCommand_of_names hnamed ⟨_, hword, List.cons_ne_nil t []⟩
    have hmem (words : List String) : word ∈ words ↔ word ∈ words.filter (¬ IsCommand ·) := by
      simp [hnot]
    rw [hmem others, h, ← hmem]
  constructor
  case platforms =>
    have hnamed : ∀ m ∈ [ActionWord.help, .install, .version], platformsNamed m = [] := by
      simp [platformsNamed]
    rw [← hnames hnamed others, h, hnames hnamed]
  case tools =>
    have hnamed : ∀ m ∈ [ActionWord.help, .install, .version], toolsNamed m = [] := by
      simp [toolsNamed]
    rw [← hnames hnamed others, h, hnames hnamed]
  case removed => exact fun t => exists_congr fun word => and_congr_left hremoval

/-- The lists that a run on a host takes from its words: of platforms and of tools. -/
def selectedLists (system : String) (meanings : List ActionWord) : List Platform × List Tool :=
  ((selection meanings).platformList system, (selection meanings).toolList)

/-- What some words remove. -/
theorem mem_removed_selection {words : List ActionWord} {t : Tool} :
    t ∈ (selection words).removed ↔ ActionWord.remove t ∈ words := by
  have hremoved (word : ActionWord) : t ∈ word.toolsRemoved ↔ word = .remove t := by
    cases word <;> simp [toolsRemoved, eq_comm]
  simp [selection, List.mem_flatMap, hremoved]

section

variable {system : String} {words others : List String} {meanings found : List ActionWord}

theorem mem_removed_iff_means (h : List.Forall₂ Means words meanings) {t : Tool} :
    t ∈ (selection meanings).removed ↔ ∃ word ∈ words, Means word (.remove t) := by
  simp only [mem_removed_selection, mem_of_ofWords (ofWords_eq_ok_iff_means.mpr h), means_iff]

/-- **Words that select alike come to the same lists.** -/
theorem selectedLists_eq_of_selectAlike (hsame : SelectAlike words others)
    (h : List.Forall₂ Means words meanings) (hothers : List.Forall₂ Means others found) :
    selectedLists system found = selectedLists system meanings := by
  have hplatforms : (selection found).platforms = (selection meanings).platforms :=
    flatMap_eq_of_filter h hothers hsame.platforms
  have htools : (selection found).tools = (selection meanings).tools :=
    flatMap_eq_of_filter h hothers hsame.tools
  have hremoved (t : Tool) :
      (selection found).removed.contains t = (selection meanings).removed.contains t := by
    rw [Bool.eq_iff_iff, List.contains_iff_mem, List.contains_iff_mem, mem_removed_iff_means h,
      mem_removed_iff_means hothers, hsame.removed]
  simp only [selectedLists, Selection.platformList, Selection.toolList, hplatforms, htools,
    hremoved]

/-- **What words select** on a host: the lists of platforms and of tools. -/
structure Selects (system : String) (words : List String) (meanings : List ActionWord)
    (platforms : List Platform) (tools : List Tool) : Prop where
  /-- Without a word for a platform it is the host, if that is a platform. -/
  host : (∀ word ∈ words, ¬ Names platformsNamed word) →
    platforms = (Platform.ofName? system).toList
  /-- Otherwise it is the platforms that are named. -/
  platforms_named : (∃ word ∈ words, Names platformsNamed word) →
    IsFirstMentions (meanings.flatMap platformsNamed) platforms
  /-- No platform is there twice. -/
  platforms_nodup : platforms.Nodup
  /-- It is all tools, or those that are named, without those that a word leaves out. -/
  tools_kept : ∃ chosen,
    ((∀ word ∈ words, ¬ Names toolsNamed word) → chosen = Tool.all) ∧
    ((∃ word ∈ words, Names toolsNamed word) →
      IsFirstMentions (meanings.flatMap toolsNamed) chosen) ∧
    tools = chosen.filter fun t => ∀ word ∈ words, ¬ Means word (.remove t)
  /-- No tool is there twice. -/
  tools_nodup : tools.Nodup

theorem selects_selection (h : List.Forall₂ Means words meanings) :
    Selects system words meanings ((selection meanings).platformList system)
      (selection meanings).toolList := by
  have hnone {β : Type} (named : ActionWord → List β) :
      (meanings.flatMap named).isEmpty = true ↔ ∀ word ∈ words, ¬ Names named word := by
    rw [List.isEmpty_iff, flatMap_eq_nil_iff_names h]
  have hsome {β : Type} {named : ActionWord → List β} (hword : ∃ word ∈ words, Names named word) :
      ¬ (meanings.flatMap named).isEmpty = true := by
    rw [hnone]
    push Not
    exact hword
  constructor
  case host => exact fun hword => if_pos ((hnone platformsNamed).mpr hword)
  case platforms_named =>
    intro hword
    rw [isFirstMentions_iff]
    exact if_neg (hsome hword)
  case platforms_nodup => exact Selection.nodup_platformList _ _
  case tools_kept =>
    refine ⟨_, fun hword => if_pos ((hnone toolsNamed).mpr hword),
      fun hword => isFirstMentions_iff.mpr (if_neg (hsome hword)),
      List.filter_congr fun t _ => ?_⟩
    have hremoved := mem_removed_iff_means h (t := t)
    rw [Bool.eq_iff_iff]
    simp [hremoved]
  case tools_nodup => exact Selection.nodup_toolList _

/-! ### What words come to -/

theorem ofWord?_eq_none_iff {word : String} :
    ofWord? word = none ↔ ∀ meaning, ¬ Means word meaning := by
  simp only [Option.eq_none_iff_forall_ne_some, means_iff, ne_eq]

/-- Words that differ from known words in commands alone are known. -/
theorem means_of_commands (hknown : ∀ word ∈ words, ∃ m, Means word m)
    (h : others.filter (¬ IsCommand ·) = words.filter (¬ IsCommand ·)) :
    ∀ word ∈ others, ∃ m, Means word m := by
  intro word hword
  by_cases hcommand : IsCommand word
  · rcases hcommand with hmeans | hmeans | hmeans
    all_goals exact ⟨_, hmeans⟩
  · have hkept : word ∈ others.filter (¬ IsCommand ·) := by simp [hword, hcommand]
    rw [h] at hkept
    exact hknown word (List.mem_of_mem_filter hkept)

/-- Words that are read, and come to these lists on a host. -/
def ComeTo (system : String) (words : List String) (lists : List Platform × List Tool) : Prop :=
  ∃ meanings, ofWords words = .ok meanings ∧ selectedLists system meanings = lists

theorem comeTo_of_selectAlike (h : List.Forall₂ Means words meanings)
    (hknown : ∀ word ∈ others, ∃ m, Means word m) (hsame : SelectAlike words others) :
    ComeTo system others (selectedLists system meanings) := by
  obtain ⟨found, hfound⟩ := exists_meanings_iff.mpr hknown
  exact ⟨found, ofWords_eq_ok_iff_means.mpr hfound,
    selectedLists_eq_of_selectAlike hsame h hfound⟩

end

/-- **What becomes of words** that were read on a host. -/
structure WordsSelect (system : String) (words : List String)
    (read : Except String (List ActionWord)) : Prop where
  /-- Reading fails exactly if some word is unknown. -/
  fails : (∃ unknown, read = .error unknown) ↔ ∃ word ∈ words, ∀ meaning, ¬ Means word meaning
  /-- And then with the first word that is. -/
  unknown : ∀ unknown, read = .error unknown ↔
    ∃ before behind, words = before ++ unknown :: behind ∧ (∀ meaning, ¬ Means unknown meaning) ∧
      ∀ word ∈ before, ∃ meaning, Means word meaning
  /-- Otherwise words are read as what they mean. -/
  known : ∀ meanings, read = .ok meanings ↔ List.Forall₂ Means words meanings
  /-- What they select. -/
  selected : ∀ meanings, read = .ok meanings →
    Selects system words meanings ((selection meanings).platformList system)
      (selection meanings).toolList
  /-- Only the order of the words for platforms and that of the words for tools count. -/
  reordered : ∀ meanings, read = .ok meanings → ∀ others, others.Perm words →
    others.filter (Names platformsNamed ·) = words.filter (Names platformsNamed ·) →
      others.filter (Names toolsNamed ·) = words.filter (Names toolsNamed ·) →
        ComeTo system others (selectedLists system meanings)
  /-- And commands do not count. -/
  commands : ∀ meanings, read = .ok meanings → ∀ others,
    others.filter (¬ IsCommand ·) = words.filter (¬ IsCommand ·) →
      ComeTo system others (selectedLists system meanings)

/-- **The words of a command line select what they name**, in the order in which they name it. -/
theorem wordsSelect_ofWords (system : String) (words : List String) :
    WordsSelect system words (ofWords words) := by
  have hunknown (unknown : String) : ofWords words = .error unknown ↔
      ∃ before behind, words = before ++ unknown :: behind ∧ (∀ m, ¬ Means unknown m) ∧
        ∀ word ∈ before, ∃ m, Means word m := by
    simp only [ofWords_eq_error_iff, ne_eq, ofWord?_eq_none_iff, not_forall, not_not]
  constructor
  case fails =>
    constructor
    · rintro ⟨unknown, h⟩
      obtain ⟨before, behind, rfl, hnone, -⟩ := (hunknown unknown).mp h
      exact ⟨unknown, by simp, hnone⟩
    · rintro ⟨word, hword, hnone⟩
      cases h : ofWords words with
      | error unknown => exact ⟨unknown, rfl⟩
      | ok meanings =>
          obtain ⟨m, hm⟩ := exists_meanings_iff.mp ⟨_, ofWords_eq_ok_iff_means.mp h⟩ word hword
          exact absurd hm (hnone m)
  case unknown => exact hunknown
  case known => exact fun meanings => ofWords_eq_ok_iff_means
  case selected =>
    intro meanings h
    exact selects_selection (ofWords_eq_ok_iff_means.mp h)
  case reordered =>
    intro meanings h others hperm hplatforms htools
    have hmeans := ofWords_eq_ok_iff_means.mp h
    have hknown : ∀ word ∈ others, ∃ m, Means word m := fun word hword =>
      exists_meanings_iff.mp ⟨meanings, hmeans⟩ word (hperm.mem_iff.mp hword)
    exact comeTo_of_selectAlike hmeans hknown (.of_perm hperm hplatforms htools)
  case commands =>
    intro meanings h others hrest
    have hmeans := ofWords_eq_ok_iff_means.mp h
    have hknown := means_of_commands (exists_meanings_iff.mp ⟨meanings, hmeans⟩) hrest
    exact comeTo_of_selectAlike hmeans hknown (.of_commands hrest)

/-- A tool that is the only one named and is left out leaves none. -/
example : (ofWords ["novet", "darwin", "vet"]).map (selectedLists "linux") =
    .ok ([.darwin], []) := by
  decide

end CommandLine

end LintSuite
