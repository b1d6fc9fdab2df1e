import LintSuite.Proofs.LineScan
import LintSuite.Run

/-!
# What is reported of a command

What becomes of a command is classified twice: `outcome` tells a success from the ways of failing,
and `reported` picks the text and the level that are shown.  `Tells` says what the two come to
together, in terms of the streams of the command alone: which blanks are taken off standard error
(`IsTrimmed`), which line feed off standard output (`IsChopped`), and what stands in for a command
that failed without a word.  There is one thing to tell of every end (`tells_iff`).

A failure always has something to tell (`Tells.ne_empty_of_failed`), and a text that is not empty
has a line, so no failure goes unreported unless its text is one to ignore.

### Design decisions

**Ends of a process are given.**  How a process ended, and what it wrote, is a value here
(`ProcessEnd`), whatever brought it about.  `accounts_runCommand` holds for anything that launches
commands, since nothing but the end it returns is looked at.

**What is told, and how it is shown.**  `Tells` gives a text and a level, and `Accounts` the lines that
are made of them.  The first is the classification and knows nothing of lines or labels; the second is
the normalizer, which is the same for every kind of end.

**Trimming by what it leaves.**  `IsTrimmed` and `IsChopped` describe the result and not the way to
it, and each has one solution (`isTrimmed_iff`, `isChopped_iff`).  So who reads `Tells` need not
know by which loop blanks are taken off.
-/

namespace LintSuite

open Host

/-! ### Blanks and line feeds at the ends -/

namespace Text

/-- **A text without the blanks around it**: blanks are taken off, and none is left at either
end. -/
structure IsTrimmed (text kept : List Char) : Prop where
  /-- What is taken off are blanks. -/
  blank : ∃ before behind, text = before ++ (kept ++ behind) ∧
    (∀ c ∈ before, isBlank c = true) ∧ ∀ c ∈ behind, isBlank c = true
  /-- No blank is left in front. -/
  first : ∀ c ∈ kept.head?, isBlank c = false
  /-- No blank is left at the end. -/
  last : ∀ c ∈ kept.getLast?, isBlank c = false

theorem dropWhile_of_head? {α : Type} {p : α → Bool} {l : List α}
    (h : ∀ a ∈ l.head?, p a = false) : l.dropWhile p = l := by
  cases l with
  | nil => rfl
  | cons a l => exact List.dropWhile_cons_of_neg (by simp [h a rfl])

theorem head?_dropWhile {α : Type} {p : α → Bool} {l : List α} :
    ∀ a ∈ (l.dropWhile p).head?, p a = false := by
  intro a ha
  have h := List.head?_dropWhile_not p l
  rw [Option.mem_def.mp ha] at h
  exact h

theorem trimFront_append {before text : List Char} (h : ∀ c ∈ before, isBlank c = true)
    (hhead : ∀ c ∈ text.head?, isBlank c = false) : trimFront (before ++ text) = text := by
  rw [trimFront, List.dropWhile_append_of_pos h, dropWhile_of_head? hhead]

theorem trimBack_append {text behind : List Char} (h : ∀ c ∈ behind, isBlank c = true)
    (hlast : ∀ c ∈ text.getLast?, isBlank c = false) : trimBack (text ++ behind) = text := by
  rw [trimBack, List.reverse_append,
    List.dropWhile_append_of_pos fun c hc => h c (List.mem_reverse.mp hc),
    dropWhile_of_head? (by rwa [List.head?_reverse]), List.reverse_reverse]

/-- What the end is taken off starts as before. -/
theorem head?_trimBack {text : List Char} : ∀ c ∈ (trimBack text).head?, c ∈ text.head? := by
  intro c hc
  have hprefix : trimBack text <+: text := by
    rw [← List.reverse_suffix, trimBack, List.reverse_reverse]
    exact List.dropWhile_suffix _
  obtain ⟨behind, htext⟩ := hprefix
  obtain ⟨rest, hrest⟩ := List.head?_eq_some_iff.mp hc
  rw [← htext, hrest]
  rfl

theorem isTrimmed_trim (text : List Char) : IsTrimmed text (trimBack (trimFront text)) where
  blank := by
    refine ⟨text.takeWhile isBlank, ((trimFront text).reverse.takeWhile isBlank).reverse, ?_,
      fun c hc => List.mem_takeWhile_imp hc,
      fun c hc => List.mem_takeWhile_imp (List.mem_reverse.mp hc)⟩
    rw [trimBack, ← List.reverse_append, List.takeWhile_append_dropWhile, List.reverse_reverse,
      trimFront, List.takeWhile_append_dropWhile]
  first := fun c hc => head?_dropWhile c (head?_trimBack c hc)
  last := by
    rw [trimBack, List.getLast?_reverse]
    exact head?_dropWhile

/-- **A text has one way to be trimmed.** -/
theorem isTrimmed_iff {text kept : List Char} :
    IsTrimmed text kept ↔ kept = trimBack (trimFront text) := by
  constructor
  · rintro ⟨⟨before, behind, rfl, hbefore, hbehind⟩, hfirst, hlast⟩
    cases kept with
    | nil =>
        have hall : trimFront (before ++ ([] ++ behind)) = [] := by
          rw [trimFront, List.dropWhile_eq_nil_iff]
          simpa using fun c hc => hc.elim (hbefore c) (hbehind c)
        rw [hall]
        rfl
    | cons c kept =>
        have hfront : trimFront (before ++ (c :: kept ++ behind)) = c :: kept ++ behind :=
          trimFront_append hbefore hfirst
        rw [hfront, trimBack_append hbehind hlast]
  · rintro rfl
    exact isTrimmed_trim text

namespace Lines

variable {α : Type} [DecidableEq α]

/-- **A text without one mark at its end**, if it ends with it. -/
inductive IsChopped (mark : α) : List α → List α → Prop
  /-- The mark is taken off. -/
  | off (text : List α) : IsChopped mark (text ++ [mark]) text
  /-- There is none to take off. -/
  | none {text : List α} (h : text.getLast? ≠ some mark) : IsChopped mark text text

/-- **A text has one way to be chopped.** -/
theorem isChopped_iff {mark : α} {text kept : List α} :
    IsChopped mark text kept ↔ kept = chop mark text := by
  constructor
  · intro h
    cases h with
    | off => simp [chop, dropLast?]
    | none h => simp [chop, dropLast?, h]
  · rintro rfl
    by_cases h : text.getLast? = some mark
    · obtain ⟨body, rfl⟩ := List.getLast?_eq_some_iff.mp h
      have hchop : chop mark (body ++ [mark]) = body := by simp [chop, dropLast?]
      rw [hchop]
      exact .off body
    · have hchop : chop mark text = text := by simp [chop, dropLast?, h]
      rw [hchop]
      exact .none h

end Lines

end Text

/-! ### What there is to tell -/

open Text

/-- **What is told of a command** that ended in some way, and at which level. -/
inductive Tells (argv : List String) : ProcessEnd → String → Level → Prop
  /-- It was not started. -/
  | refused (e : IoError) :
      Tells argv (.refused e) ("failed to read cmd output: " ++ e.message) .error
  /-- It could not be waited for. -/
  | lost (e : IoError) :
      Tells argv (.lost e) ("failed to wait for " ++ commandLine argv ++ ": " ++ e.message) .error
  /-- It was stopped. -/
  | stopped (after : Duration) :
      Tells argv (.stopped after) (commandLine argv ++ ": timed out after " ++ after.text) .error
  /-- It succeeded: what it printed is told, without one line feed at the end. -/
  | succeeded {stdout stderr : List UInt8} {text : List Char}
      (htext : Lines.IsChopped '\n' (Utf8.decodeLossy stdout) text) :
      Tells argv (.ended (.code 0) stdout stderr) (String.ofList text) .warn
  /-- It failed and said why. -/
  | complained {exit : ExitState} {stdout stderr : List UInt8} {text : List Char}
      (hexit : exit ≠ .code 0) (htext : IsTrimmed (Utf8.decodeLossy stderr) text)
      (hne : text ≠ []) : Tells argv (.ended exit stdout stderr) (String.ofList text) .error
  /-- It failed without saying why, but it printed something. -/
  | found {exit : ExitState} {stdout stderr : List UInt8} {text : List Char}
      (hexit : exit ≠ .code 0) (hsilent : IsTrimmed (Utf8.decodeLossy stderr) [])
      (htext : Lines.IsChopped '\n' (Utf8.decodeLossy stdout) text) (hne : text ≠ []) :
      Tells argv (.ended exit stdout stderr) (String.ofList text) .warn
  /-- It failed without a word, with a state of its own. -/
  | exited {n : Nat} {stdout stderr : List UInt8} (hexit : n ≠ 0)
      (hsilent : IsTrimmed (Utf8.decodeLossy stderr) [])
      (hnothing : Lines.IsChopped '\n' (Utf8.decodeLossy stdout) []) :
      Tells argv (.ended (.code n) stdout stderr)
        (commandLine argv ++ ": exit status " ++ toString n) .error
  /-- It was ended by a signal, without a word. -/
  | signalled {signal : Nat} {stdout stderr : List UInt8}
      (hsilent : IsTrimmed (Utf8.decodeLossy stderr) [])
      (hnothing : Lines.IsChopped '\n' (Utf8.decodeLossy stdout) []) :
      Tells argv (.ended (.signal signal) stdout stderr) (commandLine argv ++ ": exit status -1")
        .error

theorem errorText_eq_of_isTrimmed {bytes : List UInt8} {text : List Char}
    (h : IsTrimmed (Utf8.decodeLossy bytes) text) : errorText bytes = String.ofList text := by
  rw [errorText, trim, String.toList_ofList, streamText, ← isTrimmed_iff.mp h]

theorem outputText_eq_of_isChopped {bytes : List UInt8} {text : List Char}
    (h : Lines.IsChopped '\n' (Utf8.decodeLossy bytes) text) :
    outputText bytes = String.ofList text := by
  rw [outputText, streamText, ← Lines.isChopped_iff.mp h]

/-- What is reported of a command that failed by itself: what it complained of, else what it
printed, else how it ended. -/
theorem reported_of_failed {exit : ExitState} (hexit : exit ≠ .code 0) (argv : List String)
    (stdout stderr : List UInt8) :
    reported (outcome argv (.ended exit stdout stderr)) =
      if errorText stderr = "" then
        if outputText stdout = "" then
          (commandLine argv ++ ": exit status " ++ toString exit.number, .error)
        else (outputText stdout, .warn)
      else (errorText stderr, .error) := by
  rw [outcome, if_neg hexit, failureOf]
  by_cases herr : errorText stderr = ""
  · rw [if_pos (String.isEmpty_iff.mpr herr), if_pos herr, reported]
    by_cases hout : outputText stdout = ""
    · rw [if_pos (String.isEmpty_iff.mpr hout), if_pos hout]
      rfl
    · rw [if_neg (mt String.isEmpty_iff.mp hout), if_neg hout]
  · rw [if_neg (mt String.isEmpty_iff.mp herr), if_neg herr]
    rfl

theorem isTrimmed_errorText (bytes : List UInt8) :
    IsTrimmed (Utf8.decodeLossy bytes) (errorText bytes).toList := by
  rw [errorText, trim, String.toList_ofList, String.toList_ofList]
  exact isTrimmed_trim _

theorem isChopped_outputText (bytes : List UInt8) :
    Lines.IsChopped '\n' (Utf8.decodeLossy bytes) (outputText bytes).toList := by
  rw [outputText, String.toList_ofList]
  exact Lines.isChopped_iff.mpr rfl

/-- There is something to tell of every end: what is reported of it. -/
theorem tells_reported (argv : List String) (e : ProcessEnd) :
    Tells argv e (reported (outcome argv e)).1 (reported (outcome argv e)).2 := by
  cases e with
  | refused e => exact .refused e
  | lost e => exact .lost e
  | stopped after => exact .stopped after
  | ended exit stdout stderr =>
      have htext := isTrimmed_errorText stderr
      have hprinted := isChopped_outputText stdout
      by_cases hexit : exit = .code 0
      · subst hexit
        have h : Tells argv (.ended (.code 0) stdout stderr) _ _ := .succeeded hprinted
        rwa [String.ofList_toList] at h
      rw [reported_of_failed hexit]
      by_cases herr : errorText stderr = ""
      · rw [if_pos herr]
        rw [herr] at htext
        by_cases hout : outputText stdout = ""
        · rw [if_pos hout]
          rw [hout] at hprinted
          cases exit with
          | code n => exact .exited (by simpa using hexit) htext hprinted
          | signal n =>
              rw [ExitState.number, String.append_assoc]
              exact .signalled htext hprinted
        · rw [if_neg hout]
          have h : Tells argv (.ended exit stdout stderr) _ _ :=
            .found hexit htext hprinted (mt String.toList_eq_nil_iff.mp hout)
          rwa [String.ofList_toList] at h
      · rw [if_neg herr]
        have h : Tells argv (.ended exit stdout stderr) _ _ :=
          .complained hexit htext (mt String.toList_eq_nil_iff.mp herr)
        rwa [String.ofList_toList] at h

/-- **What is told is what is reported**, and nothing else. -/
theorem tells_iff {argv : List String} {e : ProcessEnd} {text : String} {level : Level} :
    Tells argv e text level ↔ reported (outcome argv e) = (text, level) := by
  constructor
  · intro h
    cases h with
    | refused e => rfl
    | lost e => rfl
    | stopped after => rfl
    | succeeded htext =>
        rw [← outputText_eq_of_isChopped htext]
        rfl
    | complained hexit htext hne =>
        rw [reported_of_failed hexit, errorText_eq_of_isTrimmed htext,
          if_neg (mt String.ofList_eq_empty_iff.mp hne)]
    | found hexit hsilent htext hne =>
        rw [reported_of_failed hexit, errorText_eq_of_isTrimmed hsilent,
          outputText_eq_of_isChopped htext, if_pos rfl,
          if_neg (mt String.ofList_eq_empty_iff.mp hne)]
    | exited hexit hsilent hnothing =>
        rw [reported_of_failed (by simpa using hexit), errorText_eq_of_isTrimmed hsilent,
          outputText_eq_of_isChopped hnothing, if_pos rfl, if_pos rfl]
        rfl
    | signalled hsilent hnothing =>
        rw [reported_of_failed (by simp), errorText_eq_of_isTrimmed hsilent,
          outputText_eq_of_isChopped hnothing, if_pos rfl, if_pos rfl, ExitState.number,
          String.append_assoc]
        rfl
  · intro h
    have hboth := tells_reported argv e
    rwa [h] at hboth

/-! ### No failure is silent -/

/-- Whether a command succeeded: it ended by itself, with state zero. -/
def ProcessEnd.Succeeded (e : ProcessEnd) : Prop :=
  ∃ stdout stderr, e = .ended (.code 0) stdout stderr

/-- **There is something to tell of every failure.** -/
theorem Tells.ne_empty_of_failed {argv : List String} {e : ProcessEnd} {text : String}
    {level : Level} (h : Tells argv e text level) (hfailed : ¬ e.Succeeded) : text ≠ "" := by
  cases h with
  | refused e => simp
  | lost e => simp
  | stopped after => simp
  | succeeded htext => exact absurd ⟨_, _, rfl⟩ hfailed
  | complained hexit htext hne => exact mt String.ofList_eq_empty_iff.mp hne
  | found hexit hsilent htext hne => exact mt String.ofList_eq_empty_iff.mp hne
  | exited hexit hsilent hnothing => simp
  | signalled hsilent hnothing => simp

/-- A text that is not empty has a line. -/
theorem Text.Lines.ofText_ne_nil {text : List Char} (h : text ≠ []) : ofText text ≠ [] := by
  intro he
  have hflat := flatten_cut '\n' text
  rw [List.map_eq_nil_iff.mp he] at hflat
  exact h hflat.symm

/-! ### What is found -/

section Launching

variable {σ : Type}

theorem Executor.execute_launching (launch : List String → RunContext → σ → ProcessEnd × σ)
    (isAvailable : String → σ → Bool) (read : Path → σ → Except IoError (List UInt8))
    {argv : List String} (hargv : argv ≠ []) (ctx : RunContext) (s : σ) :
    (Executor.launching launch isAvailable read).execute argv ctx s =
      (outcome argv (launch argv ctx s).1, (launch argv ctx s).2) :=
  if_neg (mt List.isEmpty_iff.mp hargv)

/-- **What is found by a command** that ended in some way: a text at a level, line by line. -/
structure Accounts (normalizer : Normalizer) (argv : List String) (e : ProcessEnd)
    (found : List Diagnostic) (text : String) (level : Level) : Prop where
  /-- The text and the level are what is told of the end. -/
  tells : Tells argv e text level
  /-- Nothing else is told of it. -/
  only : ∀ other otherLevel, Tells argv e other otherLevel → other = text ∧ otherLevel = level
  /-- There is one diagnostic for each line of the text, without its labels, unless the text is one
  to ignore. -/
  lines : ∃ pieces, Lines.IsCut '\n' text.toList pieces ∧
    found = if normalizer.ignores text then []
      else pieces.map fun piece => ⟨level, String.ofList (normalizer.strip (Lines.lineOf piece))⟩
  /-- All diagnostics have the level. -/
  level : ∀ d ∈ found, d.level = level
  /-- A failure is never silent, unless its text is one to ignore. -/
  loud : ¬ e.Succeeded → normalizer.ignores text = false → found ≠ []

/-- The diagnostics of an end are those of the lines of what is told of it. -/
theorem findings_of_tells (normalizer : Normalizer) {argv : List String} {e : ProcessEnd}
    {text : String} {level : Level} (h : Tells argv e text level) :
    findings normalizer (outcome argv e) =
      if normalizer.ignores text then []
      else (Lines.cut '\n' text.toList).map fun piece =>
        ⟨level, String.ofList (normalizer.strip (Lines.lineOf piece))⟩ := by
  rw [findings, tells_iff.mp h, Normalizer.normalize]
  by_cases hignored : normalizer.ignores text
  · rw [if_pos hignored, if_pos hignored]
    rfl
  · rw [if_neg hignored, if_neg hignored, Normalizer.clean, Lines.ofText, List.map_map,
      List.map_map]
    rfl

/-- **Every command is accounted for.** -/
theorem accounts_findings (normalizer : Normalizer) (argv : List String) (e : ProcessEnd) :
    ∃ text level, Accounts normalizer argv e (findings normalizer (outcome argv e)) text level := by
  have h := tells_reported argv e
  refine ⟨_, _, h, ?_, ?_, ?_, ?_⟩
  · intro other otherLevel hother
    rw [tells_iff.mp hother]
    exact ⟨rfl, rfl⟩
  · exact ⟨_, Lines.isCut_cut _ _, findings_of_tells normalizer h⟩
  · intro d hd
    obtain ⟨line, -, rfl⟩ := List.mem_map.mp hd
    rfl
  · intro hfailed hkept hnone
    rw [findings_of_tells normalizer h, if_neg (by simp [hkept]), List.map_eq_nil_iff] at hnone
    have hne : (reported (outcome argv e)).1.toList ≠ [] :=
      mt String.toList_eq_nil_iff.mp (h.ne_empty_of_failed hfailed)
    refine Lines.ofText_ne_nil hne ?_
    rw [Lines.ofText, hnone, List.map_nil]

/-- **Running a command accounts for how it ended**, whatever launches it: what is told of the end
is shown line by line, at one level, and no failure is silent. -/
theorem accounts_runCommand (launch : List String → RunContext → σ → ProcessEnd × σ)
    (isAvailable : String → σ → Bool) (read : Path → σ → Except IoError (List UInt8))
    (normalizer : Normalizer) {argv : List String} (hargv : argv ≠ []) (ctx : RunContext) (s : σ) :
    ∃ text level, Accounts normalizer argv (launch argv ctx s).1
      (runCommand (.launching launch isAvailable read) normalizer argv ctx s).1 text level := by
  have hrun : (runCommand (.launching launch isAvailable read) normalizer argv ctx s).1 =
      findings normalizer (outcome argv (launch argv ctx s).1) := by
    rw [runCommand, Executor.execute_launching launch isAvailable read hargv]
  rw [hrun]
  exact accounts_findings normalizer argv _

/-- A command that only prints an empty line, and fails, is reported by an empty warning. -/
theorem accounts_runCommand_emptyLine :
    ["vet"] ≠ [] ∧
      (∃ text level, Accounts (.ofDir none) ["vet"] (.ended (.code 1) [0x0A, 0x0A] [0x20, 0x0A])
        [⟨.warn, ""⟩] text level) :=
  ⟨by decide, accounts_runCommand
    (fun _ _ s => (.ended (.code 1) [0x0A, 0x0A] [0x20, 0x0A], s)) (fun _ (_ : Unit) => true)
    (fun _ _ => .error .notFound) (.ofDir none) (by decide) (.host "linux") ()⟩

end Launching

end LintSuite
