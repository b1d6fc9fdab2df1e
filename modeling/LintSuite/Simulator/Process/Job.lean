import LintSuite.Simulator.Text.Numeral

/-!
# Jobs

A job is a command that runs beside the shell that started it.  Jobs stand at places of a table,
which count from one; the one that was started last comes first (`Job.named`).  A place is free for
another job when the job at it has ended and somebody has waited for it (`Job.vacancy`).
-/

namespace LintSuite

open Text

/-- **A job.** -/
structure Job where
  /-- Its place. -/
  place : Nat
  /-- The number of its process. -/
  number : Nat
  /-- How many processes it has. -/
  processes : Nat := 1
  /-- When it ends, if it does. -/
  ending : Option Nat
  /-- The state in which it ends. -/
  status : Nat
  /-- The signal that ends it. -/
  signal : Option Nat := none
  /-- Whether somebody has waited for it. -/
  awaited : Bool := false
  /-- Whether the shell knows that it has ended. -/
  noticed : Bool := false
  deriving DecidableEq, Repr

namespace Job

/-- Whether a job has ended at a time. -/
def hasEnded (time : Nat) (job : Job) : Bool := job.ending.any (· ≤ time)

/-- The first free place among some that follow each other. -/
def vacancyFrom (time : Nat) (jobs : List Job) : Nat → Nat → Nat
  | 0, place => place
  | steps + 1, place =>
    match jobs.find? (·.place == place) with
    | none => place
    | some job =>
      if job.awaited && job.hasEnded time then place else vacancyFrom time jobs steps (place + 1)

/-- **The first free place**, and the jobs at the others. -/
def vacancy (time : Nat) (jobs : List Job) : Nat × List Job :=
  let place := vacancyFrom time jobs jobs.length 1
  (place, jobs.filter (·.place != place))

/-- Why a text names no job. -/
inductive Fault where
  /-- There is none. -/
  | noCurrent
  /-- There is no more than one. -/
  | noPrevious
  /-- There is no such one. -/
  | unknown (text : String)
  deriving DecidableEq, Repr

/-- The text of a fault. -/
def Fault.message : Fault → String
  | .noCurrent => "No current job"
  | .noPrevious => "No previous job"
  | .unknown text => "No such job: " ++ text

/-- **The job that a text names**: by its place, or as the last one or the one before it. -/
def named (jobs : List Job) (text : String) : Except Fault Job :=
  match text.toList with
  | ['%'] | ['%', '+'] | ['%', '%'] =>
    match jobs with
    | job :: _ => .ok job
    | [] => .error .noCurrent
  | ['%', '-'] =>
    match jobs with
    | _ :: job :: _ => .ok job
    | _ => .error .noPrevious
  | '%' :: digits =>
    match jobs.find? fun job => Numeral.ofDigits? digits == some job.place with
    | some job => .ok job
    | none => .error (.unknown text)
  | _ => .error (.unknown text)

end Job

end LintSuite
