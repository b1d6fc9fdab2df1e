import LintSuite.Report
import Mathlib

/-!
# What a reporter prints

A reporter renders, counts and sums up by three functions that look at an event each for itself.  They
agree on what an event is: a diagnostic is printed as one line in either mode and counted at its level,
and everything else is progress, which is printed unless the reporter is quiet and is never counted.

`handle_shown` and `tally_count` say so for one event.  Over a sequence of events the lines are those
of the events that are shown, in order (`fst_handleAll`), and the counts are those of the diagnostics
(`tally_handleAll`), so that two reporters of which one is quiet differ in the lines of the progress
and in nothing else (`reportsAlike_handleAll`).

### Design decisions

**Events one by one.**  A reporter has a state, but what it prints for an event does not depend on what
came before.  This is said by two equations for one event, and the theorems about sequences are these
two folded over a list.

**Lines are computed by a specification.**  `Event.line` says what the line of an event is, in terms of
its tag and its text, and `render_eq` that it is what is rendered.  The summary is described in the same
way (`Counts`, `SumsUp`), by what it says for no finding, for one, and for several.
-/

namespace LintSuite

/-! ### Events -/

namespace Event

/-- **The line of an event**: its tag and its text. -/
def line (color : Bool) : Event → String
  | .info message => Tag.info.line color message
  | .step message => Tag.step.line color message
  | .diagnostic d => d.level.tag.line color d.message

/-- Whether an event is progress and no diagnostic. -/
def isProgress : Event → Bool
  | .diagnostic _ => false
  | _ => true

/-- The number of diagnostics of a level among some events. -/
def countOf (level : Level) (events : List Event) : Nat :=
  (diagnostics events).countP (·.level = level)

theorem countOf_cons (level : Level) (e : Event) (events : List Event) :
    countOf level (e :: events) = countOf level [e] + countOf level events := by
  rw [countOf, diagnostics, ← List.singleton_append, List.filterMap_append, List.countP_append]
  rfl

/-- Progress is not counted. -/
theorem countOf_of_isProgress {e : Event} (h : e.isProgress = true) (level : Level) :
    countOf level [e] = 0 := by
  cases e with
  | info | step => rfl
  | diagnostic d => cases h

/-- A diagnostic counts at its level. -/
theorem countOf_diagnostic (d : Diagnostic) (level : Level) :
    countOf level [.diagnostic d] = if d.level = level then 1 else 0 := by
  have hdiagnostics : diagnostics [.diagnostic d] = [d] := rfl
  rw [countOf, hdiagnostics, List.countP_singleton]
  simp

/-- Nothing is counted exactly if there are no diagnostics. -/
theorem diagnostics_eq_nil_iff {events : List Event} :
    diagnostics events = [] ↔ countOf .warn events = 0 ∧ countOf .error events = 0 := by
  rw [countOf, countOf, List.countP_eq_zero, List.countP_eq_zero]
  constructor
  · intro h
    simp [h]
  · rintro ⟨hwarn, herror⟩
    refine List.eq_nil_iff_forall_not_mem.mpr fun d hd => ?_
    cases hlevel : d.level with
    | warn => exact hwarn d hd (decide_eq_true hlevel)
    | error => exact herror d hd (decide_eq_true hlevel)

end Event

/-! ### One event -/

namespace Reporter

/-- Whether a reporter shows an event. -/
def shows (r : Reporter) (e : Event) : Bool :=
  !(r.quiet && e.isProgress)

theorem render_eq (r : Reporter) (e : Event) :
    r.render e = if r.shows e then some (e.line r.color) else none := by
  cases e with
  | info | step => cases hquiet : r.quiet <;> simp [render, shows, hquiet, Event.isProgress, Event.line]
  | diagnostic d => simp [render, shows, Event.isProgress, Event.line]

/-- **An event is printed as its line, or not at all.** -/
theorem handle_shown (r : Reporter) (e : Event) :
    (r.handle e).1 = if r.shows e then [e.line r.color] else [] := by
  rw [handle, render_eq]
  split <;> rfl

@[simp] theorem quiet_count (r : Reporter) (e : Event) : (r.count e).quiet = r.quiet := by
  obtain message | message | ⟨_ | _, message⟩ := e <;> rfl

@[simp] theorem color_count (r : Reporter) (e : Event) : (r.count e).color = r.color := by
  obtain message | message | ⟨_ | _, message⟩ := e <;> rfl

/-- Counting does not change what is shown. -/
theorem shows_count (r : Reporter) (e other : Event) : (r.count e).shows other = r.shows other := by
  rw [shows, shows, quiet_count]

/-- The count of a level. -/
def tally (r : Reporter) : Level → Nat
  | .warn => r.warnings
  | .error => r.errors

/-- **One event is counted at its level**, if it is a diagnostic. -/
theorem tally_count (r : Reporter) (e : Event) (level : Level) :
    (r.count e).tally level = r.tally level + Event.countOf level [e] := by
  cases e with
  | info message | step message =>
      rw [Event.countOf_of_isProgress rfl]
      rfl
  | diagnostic d =>
      obtain ⟨found, message⟩ := d
      rw [Event.countOf_diagnostic]
      cases found <;> cases level <;> rfl

/-! ### A sequence of events -/

theorem fst_handleAll_cons (r : Reporter) (e : Event) (events : List Event) :
    (r.handleAll (e :: events)).1 = (r.handle e).1 ++ ((r.count e).handleAll events).1 := rfl

theorem snd_handleAll_cons (r : Reporter) (e : Event) (events : List Event) :
    (r.handleAll (e :: events)).2 = ((r.count e).handleAll events).2 := rfl

/-- **The lines that are printed are those of the events that are shown**, in order. -/
theorem fst_handleAll (r : Reporter) (events : List Event) :
    (r.handleAll events).1 = (events.filter r.shows).map (Event.line r.color) := by
  induction events generalizing r with
  | nil => rfl
  | cons e events ih =>
      have hshows : (r.count e).shows = r.shows := funext (shows_count r e)
      rw [fst_handleAll_cons, ih, hshows, color_count, handle_shown, List.filter_cons]
      split <;> rfl

/-- **The counts grow by the diagnostics**, whatever progress lies between them. -/
theorem tally_handleAll (r : Reporter) (events : List Event) (level : Level) :
    (r.handleAll events).2.tally level = r.tally level + Event.countOf level events := by
  induction events generalizing r with
  | nil => rfl
  | cons e events ih =>
      rw [snd_handleAll_cons, ih, tally_count, Event.countOf_cons level e events, Nat.add_assoc]

/-- The mode and the colors stay as they are. -/
theorem modes_handleAll (r : Reporter) (events : List Event) :
    (r.handleAll events).2.quiet = r.quiet ∧ (r.handleAll events).2.color = r.color := by
  induction events generalizing r with
  | nil => exact ⟨rfl, rfl⟩
  | cons e events ih =>
      rw [snd_handleAll_cons, (ih _).1, (ih _).2, quiet_count, color_count]
      exact ⟨rfl, rfl⟩

/-! ### The summary -/

/-- **A number with its noun**, which is in the singular for one and in the plural otherwise. -/
inductive Counts (noun : String) : Nat → String → Prop
  /-- One. -/
  | one : Counts noun 1 ("1 " ++ noun)
  /-- None, or several. -/
  | other {n : Nat} (h : n ≠ 1) : Counts noun n (toString n ++ " " ++ noun ++ "s")

theorem counts_counted (n : Nat) (noun : String) : Counts noun n (counted n noun) := by
  by_cases h : n = 1
  · subst h
    have hone : counted 1 noun = "1 " ++ noun := by
      rw [counted, if_pos rfl, String.append_empty]
      rfl
    rw [hone]
    exact .one
  · rw [counted, if_neg h]
    exact .other h

/-- **The summary of some counts.** -/
inductive SumsUp : Nat → Nat → String → Prop
  /-- Nothing was found and nothing failed. -/
  | clean : SumsUp 0 0 "Done"
  /-- Both counts are stated if one of them is not zero. -/
  | tally {warnings errors : Nat} {findings failures : String}
      (hsome : ¬(warnings = 0 ∧ errors = 0)) (hwarnings : Counts "warning" warnings findings)
      (herrors : Counts "error" errors failures) :
      SumsUp warnings errors ("Done (" ++ findings ++ ", " ++ failures ++ ")")

/-- Reporters with the same counts sum up alike. -/
theorem summary_congr {r other : Reporter} (hwarnings : r.warnings = other.warnings)
    (herrors : r.errors = other.errors) : r.summary = other.summary := by
  rw [summary, summary, hwarnings, herrors]

theorem summary_of_zero {r : Reporter} (h : r.warnings = 0 ∧ r.errors = 0) : r.summary = "Done" := by
  rw [summary, h.1, h.2]
  rfl

theorem summary_of_not_zero {r : Reporter} (h : ¬(r.warnings = 0 ∧ r.errors = 0)) :
    r.summary =
      "Done (" ++ counted r.warnings "warning" ++ ", " ++ counted r.errors "error" ++ ")" := by
  rw [summary, if_neg (by simpa using h)]

theorem sumsUp_summary (r : Reporter) : SumsUp r.warnings r.errors r.summary := by
  by_cases h : r.warnings = 0 ∧ r.errors = 0
  · rw [summary_of_zero h, h.1, h.2]
    exact .clean
  · rw [summary_of_not_zero h]
    exact .tally h (counts_counted _ _) (counts_counted _ _)

/-- The summary states no counts exactly if there is nothing to count. -/
theorem summary_eq_done_iff {r : Reporter} :
    r.summary = "Done" ↔ r.warnings = 0 ∧ r.errors = 0 := by
  refine ⟨fun hdone => ?_, summary_of_zero⟩
  by_contra h
  rw [summary_of_not_zero h, ← String.toList_inj] at hdone
  simp at hdone

/-! ### Two reporters -/

/-- **A reporter that has handled some events**, in either mode. -/
structure HasHandled (color : Bool) (events : List Event) (r : Reporter) : Prop where
  /-- The findings are counted. -/
  warnings : r.warnings = Event.countOf .warn events
  /-- So are the failures. -/
  errors : r.errors = Event.countOf .error events
  /-- A diagnostic that follows is rendered and printed as one text. -/
  shown : ∀ d : Diagnostic,
    r.render (.diagnostic d) = some (Event.line color (.diagnostic d)) ∧
      (r.handle (.diagnostic d)).1 = [Event.line color (.diagnostic d)]
  /-- The summary states no counts exactly if there was no diagnostic. -/
  done_iff : r.summary = "Done" ↔ Event.diagnostics events = []
  /-- And otherwise it states both. -/
  sums : SumsUp (Event.countOf .warn events) (Event.countOf .error events) r.summary

/-- **A new reporter accounts for the events that it handles.** -/
theorem hasHandled_handleAll (quiet color : Bool) (events : List Event) :
    HasHandled color events (handleAll { quiet := quiet, color := color } events).2 := by
  have hcolor := (modes_handleAll { quiet := quiet, color := color } events).2
  have hwarnings := tally_handleAll { quiet := quiet, color := color } events .warn
  have herrors := tally_handleAll { quiet := quiet, color := color } events .error
  simp only [tally, Nat.zero_add] at hcolor hwarnings herrors
  generalize (handleAll { quiet := quiet, color := color } events).2 = r at *
  constructor
  case warnings => exact hwarnings
  case errors => exact herrors
  case shown =>
    intro d
    have hshows : r.shows (.diagnostic d) = true := by simp [shows, Event.isProgress]
    rw [render_eq, handle_shown, hshows, hcolor]
    exact ⟨rfl, rfl⟩
  case done_iff => rw [summary_eq_done_iff, Event.diagnostics_eq_nil_iff, hwarnings, herrors]
  case sums =>
    rw [← hwarnings, ← herrors]
    exact sumsUp_summary r

/-- **What two reporters come to** that handle the same events, of which one is quiet: the lines that
they print, and the reporters afterwards. -/
structure ReportsAlike (color : Bool) (events : List Event) (loud hushed : List String × Reporter) :
    Prop where
  /-- Each event has its line. -/
  lines : loud.1 = events.map (Event.line color)
  /-- The quiet reporter leaves out the lines of the progress. -/
  hidden : hushed.1 = (events.filter (!·.isProgress)).map (Event.line color)
  /-- The one accounts for all events. -/
  handled : HasHandled color events loud.2
  /-- So does the other. -/
  handledQuietly : HasHandled color events hushed.2
  /-- They sum up alike. -/
  same : loud.2.summary = hushed.2.summary

/-- **Being quiet hides the lines of the progress and changes nothing else**, whatever the events
are. -/
theorem reportsAlike_handleAll (color : Bool) (events : List Event) :
    ReportsAlike color events
      (handleAll { quiet := false, color := color } events)
      (handleAll { quiet := true, color := color } events) := by
  have hloud := hasHandled_handleAll false color events
  have hhushed := hasHandled_handleAll true color events
  have hall : shows { quiet := false, color := color } = fun _ => true := rfl
  have hdiagnostics : shows { quiet := true, color := color } = (!·.isProgress) := rfl
  refine ⟨?_, ?_, hloud, hhushed, ?_⟩
  · rw [fst_handleAll, hall, List.filter_true]
  · rw [fst_handleAll, hdiagnostics]
  · exact summary_congr (hloud.warnings.trans hhushed.warnings.symm)
      (hloud.errors.trans hhushed.errors.symm)

/-- One finding and two failures, with progress between them. -/
example :
    (handleAll { quiet := true, color := false }
      [.info "Setting GOOS to linux", .diagnostic (.error "a"), .step "Vetting",
        .diagnostic (.warn "b"), .diagnostic (.error "c")]).2.summary = "Done (1 warning, 2 errors)" := by
  decide +kernel

end Reporter

end LintSuite
