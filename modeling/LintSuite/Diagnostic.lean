/-!
# Diagnostics and events

A run reports *diagnostics*, one line each, at one of two levels, and between them announces its
progress.  A run as a whole is the list of its events in the order they happened.
-/

namespace LintSuite

/-- The level a diagnostic is reported at. -/
inductive Level where
  /-- A finding of a tool or of the line scan. -/
  | warn
  /-- A tool could not be run or failed. -/
  | error
  deriving DecidableEq, Repr

/-- **A diagnostic**: one line of a tool's output, or one finding of the line scan. -/
structure Diagnostic where
  /-- How serious it is. -/
  level : Level
  /-- What it says. -/
  message : String
  deriving DecidableEq, Repr

/-- A finding. -/
def Diagnostic.warn (message : String) : Diagnostic := ⟨.warn, message⟩

/-- A failure. -/
def Diagnostic.error (message : String) : Diagnostic := ⟨.error, message⟩

/-- **An event** of a run. -/
inductive Event where
  /-- Progress of the run as a whole. -/
  | info (message : String)
  /-- Progress within one platform. -/
  | step (message : String)
  /-- Something found. -/
  | diagnostic (d : Diagnostic)
  deriving DecidableEq, Repr

/-- The diagnostic that an event reports, if it is one. -/
def Event.diagnostic? : Event → Option Diagnostic
  | .diagnostic d => some d
  | _ => none

/-- The diagnostics among a list of events. -/
def Event.diagnostics (events : List Event) : List Diagnostic :=
  events.filterMap Event.diagnostic?

end LintSuite
