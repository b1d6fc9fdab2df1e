import LintSuite.Proofs.FileText
import LintSuite.Proofs.Messages
import Mathlib

/-!
# Failures that leave nothing but blanks

A command that fails may leave both of its streams blank: nothing, an empty line, or any other white
space.  Standard error is then taken as empty, since all blanks around it are taken off.  Standard
output is taken as empty only if it is so without one line feed (`outputText_eq_empty_iff`); the two
notions differ.

So the failure is reported as such exactly if standard output is empty or a single line feed.  What
else is blank is reported as if it were a finding: by warnings, one for each line, that show nothing
(`reportsBlank_runCommand`).

### Design decisions

**Blankness is a property of what is read.**  A stream is bytes, and what is blank is the text that
they are decoded to (`IsBlankStream`).  So a stream that is no text is not blank, as it shows
replacement characters.

**Both cases in one statement.**  `ReportsBlank` says what is found for either kind of standard
output.  That the report is an error in the one case and a warning in the other is then no matter of
which lemma one happens to use, and that there is no third case is part of the statement.

The second case is not what one would want: a tool that fails and prints an empty line or two is told
by warnings without a text, and how it ended is not told at all (`reportOnFailure_twoFeeds`).
-/

namespace LintSuite

open Host Text

/-- **A blank stream**: what is read from it is white space, of any length. -/
def IsBlankStream (bytes : List UInt8) : Prop :=
  ∀ c ∈ Utf8.decodeLossy bytes, isBlank c = true

instance (bytes : List UInt8) : Decidable (IsBlankStream bytes) :=
  decidable_of_iff ((Utf8.decodeLossy bytes).all isBlank = true) List.all_eq_true

theorem decodeLossy_eq_nil_iff {bytes : List UInt8} :
    Utf8.decodeLossy bytes = [] ↔ bytes = [] := by
  constructor
  · intro h
    by_contra hne
    exact Utf8.decodeLossy_ne_nil hne h
  · rintro rfl
    rfl

/-- **Standard output is taken as empty** if it has no more than a line feed. -/
theorem outputText_eq_empty_iff {bytes : List UInt8} :
    outputText bytes = "" ↔ bytes = [] ∨ bytes = [0x0A] := by
  by_cases hlast : bytes.getLast? = some 0x0A
  · obtain ⟨body, rfl⟩ := List.getLast?_eq_some_iff.mp hlast
    rw [outputText_append_feed, String.ofList_eq_empty_iff, decodeLossy_eq_nil_iff]
    simp
  · rw [outputText_of_getLast?_ne hlast, String.ofList_eq_empty_iff, decodeLossy_eq_nil_iff]
    constructor
    · exact .inl
    · rintro (rfl | rfl)
      · rfl
      · exact absurd rfl hlast

/-- The messages of a blank text are blank. -/
theorem isBlank_of_mem_normalize {n : Normalizer} {text message : String}
    (h : ∀ c ∈ text.toList, isBlank c = true) (hmessage : message ∈ n.normalize text) :
    ∀ c ∈ message.toList, isBlank c = true := by
  intro c hc
  rw [Normalizer.normalize] at hmessage
  split_ifs at hmessage with hignored
  · cases hmessage
  · obtain ⟨line, hline, rfl⟩ := List.mem_map.mp hmessage
    rw [String.toList_ofList] at hc
    exact h c (Lines.mem_of_mem_ofText hline ((n.strip_suffix line).subset hc))

section

variable {exit : ExitState} {stdout stderr : List UInt8}

theorem isBlank_outputText (h : IsBlankStream stdout) :
    ∀ c ∈ (outputText stdout).toList, isBlank c = true := by
  intro c hc
  rw [outputText, String.toList_ofList] at hc
  exact h c ((Lines.isPrefix_chop '\n' _).subset hc)

/-- What is found of a failure that says nothing on standard error. -/
theorem findings_of_failure (n : Normalizer) (argv : List String) (hexit : exit ≠ .code 0)
    (hstderr : IsBlankStream stderr) :
    findings n (outcome argv (.ended exit stdout stderr)) =
      if stdout = [] ∨ stdout = [0x0A] then
        (n.normalize (commandLine argv ++ ": exit status " ++ toString exit.number)).map .error
      else (n.normalize (outputText stdout)).map .warn := by
  rw [findings, reported_of_isQuiet (.inr hstderr)]
  by_cases hnothing : stdout = [] ∨ stdout = [0x0A]
  · rw [if_pos hnothing, if_pos ⟨hexit, outputText_eq_empty_iff.mpr hnothing⟩]
    rfl
  · rw [if_neg hnothing, if_neg fun hboth => hnothing (outputText_eq_empty_iff.mp hboth.2)]
    rfl

end

/-- **What a failed command is reported by** that left nothing but blanks. -/
structure ReportsBlank (n : Normalizer) (argv : List String) (exit : ExitState)
    (stdout : List UInt8) (found : List Diagnostic) : Prop where
  /-- Without output, or with a line feed alone, how it ended is an error. -/
  failure : stdout = [] ∨ stdout = [0x0A] →
    found = (n.normalize (commandLine argv ++ ": exit status " ++ toString exit.number)).map .error
  /-- Any other output is shown by warnings, and they are blank. -/
  blank : ¬(stdout = [] ∨ stdout = [0x0A]) →
    ∀ d ∈ found, d.level = .warn ∧ ∀ c ∈ d.message.toList, isBlank c = true
  /-- There is one, and so the failure itself is not reported, unless such an output is ignored. -/
  failure_iff : n.ignores (outputText stdout) = false →
    (found = (n.normalize (commandLine argv ++ ": exit status " ++ toString exit.number)).map
      .error ↔ stdout = [] ∨ stdout = [0x0A])

theorem reportsBlank_findings (n : Normalizer) (argv : List String) {exit : ExitState}
    {stdout stderr : List UInt8} (hexit : exit ≠ .code 0) (hstdout : IsBlankStream stdout)
    (hstderr : IsBlankStream stderr) :
    ReportsBlank n argv exit stdout (findings n (outcome argv (.ended exit stdout stderr))) := by
  rw [findings_of_failure n argv hexit hstderr]
  refine ⟨?failure, ?blank, ?failure_iff⟩
  case failure => exact fun hnothing => if_pos hnothing
  case blank =>
    intro hsomething d hd
    rw [if_neg hsomething] at hd
    obtain ⟨message, hmessage, rfl⟩ := List.mem_map.mp hd
    exact ⟨rfl, isBlank_of_mem_normalize (isBlank_outputText hstdout) hmessage⟩
  case failure_iff =>
    intro hkept
    refine ⟨fun hfound => ?_, fun hnothing => if_pos hnothing⟩
    by_contra hsomething
    rw [if_neg hsomething] at hfound
    -- The output has a line, and what shows it is no error.
    have hline : n.normalize (outputText stdout) ≠ [] := by
      have htext : (outputText stdout).toList ≠ [] :=
        mt String.toList_eq_nil_iff.mp (mt outputText_eq_empty_iff.mp hsomething)
      rw [Normalizer.normalize, hkept]
      exact mt List.map_eq_nil_iff.mp (Lines.ofText_ne_nil htext)
    obtain ⟨message, more, hmessages⟩ := List.exists_cons_of_ne_nil hline
    have hwarned : Diagnostic.warn message ∈ (n.normalize (outputText stdout)).map .warn := by
      rw [hmessages]
      exact List.mem_cons_self
    rw [hfound] at hwarned
    obtain ⟨other, -, hother⟩ := List.mem_map.mp hwarned
    have hlevel : Level.error = Level.warn := congrArg Diagnostic.level hother
    cases hlevel

section Launching

variable {σ : Type}

/-- **A failure that leaves nothing but blanks is reported as such** exactly if standard output is
empty or a line feed; else by blank warnings. -/
theorem reportsBlank_runCommand (launch : List String → RunContext → σ → ProcessEnd × σ)
    (isAvailable : String → σ → Bool) (read : Path → σ → Except IoError (List UInt8))
    (n : Normalizer) {argv : List String} (hargv : argv ≠ []) (ctx : RunContext) (s : σ)
    {exit : ExitState} {stdout stderr : List UInt8}
    (hend : (launch argv ctx s).1 = .ended exit stdout stderr) (hexit : exit ≠ .code 0)
    (hstdout : IsBlankStream stdout) (hstderr : IsBlankStream stderr) :
    ReportsBlank n argv exit stdout
      (runCommand (.launching launch isAvailable read) n argv ctx s).1 := by
  have hrun : (runCommand (.launching launch isAvailable read) n argv ctx s).1 =
      findings n (outcome argv (.ended exit stdout stderr)) := by
    rw [runCommand, Executor.execute_launching launch isAvailable read hargv, hend]
  rw [hrun]
  exact reportsBlank_findings n argv hexit hstdout hstderr

end Launching

/-- The report on a command that ends with state one and prints something. -/
def reportOnFailure (argv : List String) (stdout stderr : List UInt8) : List Diagnostic :=
  (runCommand
    (.launching (fun _ _ s => (.ended (.code 1) stdout stderr, s)) (fun _ (_ : Unit) => true)
      fun _ _ => .error .notFound)
    (.ofDir none) argv (.host "linux") ()).1

/-- A no-break space, a form feed and the end of a line. -/
def blankLine : List UInt8 := [0xC2, 0xA0, 0x0C, 0x0A]

theorem reportsBlank_runCommand_blankLine :
    ["golint"] ≠ [] ∧ ExitState.code 1 ≠ .code 0 ∧ IsBlankStream blankLine ∧
      ReportsBlank (.ofDir none) ["golint"] (.code 1) blankLine
        (reportOnFailure ["golint"] blankLine blankLine) := by
  have hblank : IsBlankStream blankLine := by decide
  refine ⟨by decide, by decide, hblank, ?_⟩
  exact reportsBlank_runCommand (fun _ _ s => (.ended (.code 1) blankLine blankLine, s))
    (fun _ (_ : Unit) => true) (fun _ _ => .error .notFound) (.ofDir none) (by decide)
    (.host "linux") () rfl (by decide) hblank hblank

/-- **A failure can be told by a blank warning alone**: two line feeds are taken for a finding. -/
theorem reportOnFailure_twoFeeds :
    reportOnFailure ["golint"] [0x0A, 0x0A] [] = [⟨.warn, ""⟩] ∧
      ¬ ∀ argv stdout stderr, argv ≠ [] → IsBlankStream stdout → IsBlankStream stderr →
        reportOnFailure argv stdout stderr =
          ((Normalizer.ofDir none).normalize (commandLine argv ++ ": exit status 1")).map
            .error := by
  have hblank : reportOnFailure ["golint"] [0x0A, 0x0A] [] = [⟨.warn, ""⟩] := by decide
  refine ⟨hblank, fun h => ?_⟩
  have hfeeds : IsBlankStream [0x0A, 0x0A] := by decide
  have hnothing : IsBlankStream [] := by decide
  have herror := h ["golint"] [0x0A, 0x0A] [] (by decide) hfeeds hnothing
  rw [hblank] at herror
  exact absurd herror (by decide)

end LintSuite
