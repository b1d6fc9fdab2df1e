import LintSuite.Simulator.Process.Utility

/-!
# What utilities read

A utility reads the files that its operands name, one after another; a dash stands for standard
input, and so does the lack of operands.  A file that cannot be read is reported, and the next one
is read all the same (`onInputs`).

-/

namespace LintSuite

open Host Text

/-! ### Files -/

/-- The feed of a file that does not end. -/
def zeros : Feed :=
  { chunks := [⟨0, 0, List.replicate Utility.endlessSize 0⟩], endless := true, still := true }

/-- What a file holds, to be read. -/
def Host.FileSystem.feed (fs : FileSystem) (p : Path) : Except IoError Feed := do
  match ← fs.find p with
  | (_, .device .zero) => .ok zeros
  | (_, .device .full) => .ok zeros
  | _ => .ok (Feed.ofBytes (← fs.read p) true)

/-- The descriptor that a path stands for, if it stands for one. -/
def Host.FileSystem.descriptor? (fs : FileSystem) (p : Path) : Option Nat :=
  match fs.find p with
  | .ok (_, .device (.descriptor n)) => some n
  | _ => none

namespace Process

/-- **Reading** a portion of a file, or, for a dash, of standard input. -/
def readFile (p : Process) (portion : Feed → Feed.Portion) (file : String) :
    Except IoError (Feed.Portion × Process) :=
  match if file = "-" then some 0 else p.files.descriptor? (Octets.path file) with
  | some n =>
    match p.take n portion with
    | some result => .ok result
    | none => .error (.other "Bad file descriptor")
  | none => do
    let feed ← p.files.feed (Octets.path file)
    let taken := portion feed
    .ok (taken, if taken.ended && feed.endless then { p with flow := .overdue } else p)

/-- All bytes of a file, or of standard input. -/
def readAll (p : Process) (file : String) : Except IoError (List UInt8 × Process) := do
  let (taken, p) ← p.readFile Feed.takeAll file
  .ok (taken.bytes, p)

/-- The files that operands name. -/
def inputsOf (operands : List String) : List String :=
  if operands.isEmpty then ["-"] else operands

/-- **Doing something with each of some files.**  One that cannot be read is reported in the name of
the program, and the state is one in the end. -/
def onInputs (files : List String) (report : String → IoError → String)
    (f : String → List UInt8 → Process → Process) (p : Process) : Process :=
  files.foldl (fun p file =>
    match p.readAll file with
    | .ok (bytes, p) => f file bytes p
    | .error e => p.failed (report file e) 1) (p.withStatus 0)

/-- What is said of a file that cannot be read. -/
def plainReport (file : String) (e : IoError) : String := ShellQuoted.asNeeded file ++ ": " ++ e.reason

/-- All bytes of some files, one behind another. -/
def gather (files : List String) (report : String → IoError → String) (p : Process) :
    List UInt8 × Process :=
  let (parts, p) := files.foldl (fun (parts, p) file =>
    match p.readAll file with
    | .ok (bytes, p) => (bytes :: parts, p)
    | .error e => (parts, p.failed (report file e) 1)) (([] : List (List UInt8)), p.withStatus 0)
  (parts.reverse.flatten, p)

end Process

end LintSuite
