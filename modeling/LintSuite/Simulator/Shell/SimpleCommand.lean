import LintSuite.Simulator.Shell.Grammar
import LintSuite.Simulator.Shell.Redirection

/-!
# Simple commands

A simple command is a list of assignments and a list of words.  Its words are replaced by what they
stand for, and the first of them names a function, a command of the shell, or a program
(`dispatch`).  Assignments without words change the shell; in front of words they last as long as
the command does, unless it is one that keeps them (`keepers`).
-/

namespace LintSuite.Shell

open Host Text

/-- The shell after a program that it ran.  A signal that ended the program is reported, two of them
aside.  A subshell that is there for one command ends as that does. -/
def afterProgram (p child : Process) : Process :=
  let after := p.rejoin child
  match child.flow with
  | .killed signal =>
    if p.single then { after with flow := .killed signal }
    else if Signal.isReported signal then after.complain (Signal.report signal)
    else after
  | _ => after

/-- The state that stands for a program that cannot be started, and the reason.  One that was looked
for and may nowhere be executed counts as not found, whatever the reason. -/
def unstarted (name : String) (e : IoError) : Nat × String :=
  if e = .notFound || e = .notDirectory then (127, "not found")
  else (if e = .denied && !SearchPath.isPlaced name then 127 else 126, e.reason)

/-- Searching a program as a shell does, which takes the lack of a name for a directory. -/
def searchProgram (p : Process) (argv : List String) : Except IoError (String × List String) :=
  if argv.head? = some "" then .error .denied
  else match p.var? "PATH" with
    | some path => Program.search true p.files path argv
    | none =>
      if SearchPath.isPlaced (argv.headD "") then Program.search true p.files "" argv
      else .error .notFound

/-- The shell when it has found a program by a name without a slash. -/
def remember (p : Process) (name : String) : Process :=
  if SearchPath.isPlaced name then p
  else if p.hashed.any (·.1 == name) then
    { p with hashed := p.hashed.map fun h => if h.1 == name then (name, false) else h }
  else { p with hashed := p.hashed ++ [(name, false)] }

/-- Running a program with some variables set for it. -/
def runProgram (m : Means) (argv : List String) (assigned : List (String × String)) (p : Process) :
    Process :=
  match searchProgram p argv with
  | .error e =>
    let (status, reason) := unstarted (argv.headD "") e
    (p.warn (argv.headD "" ++ ": " ++ reason)).withStatus status
  | .ok (name, argv) =>
    let p := remember p (argv.headD "")
    let set := assigned.foldl (fun q (name, value) => q.setExported name value) p
    afterProgram p (m.native name argv set.child)

/-- The process with variables as they were before, unless a command keeps them. -/
def withoutAssigned (command : String) (assigned : List (String × String))
    (before after : Process) : Process :=
  if keepers.contains command then after
  else assigned.foldl (fun p (name, _) =>
    match before.vars.find? (·.name == name) with
    | some v => { (p.unsetVar name) with vars := v :: (p.unsetVar name).vars }
    | none => p.unsetVar name) after

/-- A process that goes on where something told it to go back. -/
def returned (p : Process) : Process :=
  match p.flow with
  | .returning => { p with flow := .onward }
  | _ => p

/-- The path of a file of commands: on the search path if it has no slash. -/
def sourcePath (p : Process) (file : String) : Option String :=
  if SearchPath.isPlaced file then some file
  else (SearchPath.candidates ((p.var? "PATH").getD "") file).find? fun path =>
    p.files.isFile (Octets.path path)

/-- Running a text that comes from somewhere else in the same shell. -/
def runFrom (m : Means) (asked : Bool) (origin : String) (text : List Char) (p : Process) :
    Process :=
  let after := m.script asked text { p with line := 1, origin := some origin, status := 0 }
  { after with line := p.line, origin := p.origin }

/-- Running the text of a file in the same shell.  A directory is read as an empty file. -/
def source (m : Means) (asked : Bool) (file : String) (p : Process) : Process :=
  match sourcePath p file with
  | none => p.abort (".: " ++ file ++ ": not found")
  | some path =>
    match p.files.read (Octets.path path) with
    | .ok content => returned (runFrom m asked path (Octets.chars content) p)
    | .error .isDirectory => p.withStatus 0
    | .error e => p.abort (".: cannot open " ++ file ++ ": " ++ openReason e "No such file")

/-- What a name stands for as a command. -/
inductive Meaning where
  /-- A word of the language. -/
  | keyword
  /-- An alias for a text. -/
  | alias (value : String)
  /-- A function. -/
  | function
  /-- A command of the shell that keeps the variables set for it. -/
  | special
  /-- Another command of the shell. -/
  | builtin
  /-- A program under a path. -/
  | program (path : String)
  deriving DecidableEq, Repr

/-- What a name stands for, if it stands for anything. -/
def meaning? (p : Process) (name : String) : Option Meaning :=
  if keywords.contains name then some .keyword
  else if let some (_, value) := p.aliases.find? (·.1 == name) then some (.alias value)
  else if keepers.contains name then some .special
  else if p.functions.any (·.1 == name) then some .function
  else if (builtins.map (·.1) ++ runners).contains name then some .builtin
  else ((SearchPath.candidates ((p.var? "PATH").getD "") name).find?
    (Program.isExecutable p.files)).map .program

/-- Printing where a command would be found. -/
def describe (p : Process) (name : String) : Process :=
  match meaning? p name with
  | some (.program path) => (p.print (path ++ "\n")).withStatus 0
  | some (.alias value) => (p.print ("alias " ++ Builtin.shownAlias name value)).withStatus 0
  | some _ => (p.print (name ++ "\n")).withStatus 0
  | none => p.withStatus 127

/-- Printing what a name stands for. -/
def explain (p : Process) (name : String) : Process :=
  let is := fun (text : String) => p.print (name ++ " is " ++ text ++ "\n")
  match meaning? p name with
  | some .keyword => is "a shell keyword"
  | some (.alias value) => is ("an alias for " ++ value)
  | some .function => is "a shell function"
  | some .special => is "a special shell builtin"
  | some .builtin => is "a shell builtin"
  | some (.program path) =>
    is (if p.hashed.any (·.1 == name) then "a tracked alias for " ++ path else path)
  | none => (p.print (name ++ ": not found\n")).withStatus 127

/-- Putting a program in the place of the shell. -/
def becomeProgram (m : Means) (assigned : List (String × String)) (argv : List String)
    (p : Process) : Process :=
  match searchProgram p argv with
  | .ok (name, argv) =>
    let set := assigned.foldl (fun q (name, value) => q.setExported name value) p
    let child := m.native name argv set.successor
    let after := { p.rejoin child with traps := [] }
    match child.flow with
    | .killed signal => { after with flow := .killed signal }
    | _ => if after.isOnward then after.endWith child.status else after
  | .error e =>
    let (status, reason) := unstarted (argv.headD "") e
    (p.warn ("exec: " ++ argv.headD "" ++ ": " ++ reason)).endWith status

/-- How deep functions may call each other. -/
def callDepth : Nat := 1000

/-- Calling a function: it has arguments of its own, and so are the variables that it declares. -/
def callFunction (m : Means) (asked : Bool) (body : Command) (arguments : List String)
    (p : Process) : Process :=
  if callDepth ≤ p.calls then
    p.abort ("Maximum function recursion depth (" ++ toString callDepth ++ ") reached")
  else
    let inside :=
      { p.withArguments arguments with loops := 0, locals := some [], calls := p.calls + 1 }
    let after := returned (m.command asked body inside)
    let back := { after with
      arguments := p.arguments, optionPlace := p.optionPlace, optionTaken := p.optionTaken
      loops := p.loops, locals := p.locals, calls := p.calls }
    (after.locals.getD []).foldl Process.restoreVar back

/-- The shell after one of its own commands, which may have had nowhere to print to. -/
def afterBuiltin (name : String) (p : Process) : Process :=
  if p.unprinted.isSome then
    ({ p with unprinted := none }.warn (name ++ ": " ++ name ++ ": I/O error")).withStatus 1
  else p

/-- Running a command of the shell itself, which complains in its own name. -/
def runBuiltin (name : String) (utility : Utility) (arguments : List String) (p : Process) :
    Process :=
  { afterBuiltin name (utility arguments { p with origin := none }) with origin := p.origin }

/-- What a command of the shell does when it is run by `command`: a fault in it does not end the
shell. -/
def spared (p after : Process) : Process :=
  if after.faulty && !p.faulty then { after with flow := .onward, status := 2, faulty := false }
  else after

/-- Running a command by its words; functions may be passed over. -/
def dispatch (m : Means) (asked functions : Bool) (assigned : List (String × String))
    (p : Process) : List String → Process
  | [] => p.withStatus 0
  | "command" :: "-p" :: rest => spared p (dispatch m asked false assigned p rest)
  | "command" :: "--" :: rest => spared p (dispatch m asked false assigned p rest)
  | "command" :: first :: rest =>
    if first = "-v" || first = "-V" then
      match rest with
      | [] => p.withStatus 0
      | name :: _ => if first = "-v" then describe p name else explain (p.withStatus 0) name
    else match first.toList with
      | '-' :: c :: _ =>
        ({ p with origin := none }.object "command" ("Illegal option -" ++ String.ofList [c])
          |>.withStatus 2)
      | _ => spared p (dispatch m asked false assigned p (first :: rest))
  | ["command"] => p.withStatus 0
  | "type" :: names => names.foldl explain (p.withStatus 0)
  | "eval" :: rest =>
    runFrom m asked "eval" (String.intercalate " " rest).toList
      (assigned.foldl (fun q (name, value) => q.setVar name value) p)
  | ["."] => p.withStatus 0
  | "." :: file :: _ =>
    source m asked file (assigned.foldl (fun q (name, value) => q.setVar name value) p)
  | "exec" :: rest =>
    if rest.isEmpty then p.withStatus 0 else becomeProgram m assigned rest p
  | name :: rest =>
    let set := assigned.foldl (fun q (name, value) => q.setVar name value) p
    let isSpecial := keepers.contains name
    match if functions && !isSpecial then p.functions.find? (·.1 == name) else none with
    | some (_, body) => withoutAssigned name assigned p (callFunction m asked body rest set)
    | none =>
      match builtins.find? (·.1 == name) with
      | some (_, utility) =>
        withoutAssigned name assigned p (runBuiltin name utility rest set)
      | none => runProgram m (name :: rest) assigned p

/-- The values of assignments, each of which may need those before it, and the process after
them. -/
def expandAssignments (m : Means) : List (String × Word) → Process →
    List (String × String) × Process
  | [], p => ([], p)
  | (name, word) :: rest, p =>
    let (value, p) := expandValue m.inner word p
    if p.isOnward then
      let before := p.vars.find? (·.name == name)
      let (more, p) := expandAssignments m rest (p.setVar name value)
      ((name, value) :: more, p.restoreVar (name, before))
    else ([], p)

/-- Setting variables one after another, each to a word that may need those before it. -/
def assignAll (m : Means) : List (String × Word) → Process → Process
  | [], p => p
  | (name, word) :: rest, p =>
    let (value, p) := expandValue m.inner word p
    if !p.isOnward then p
    else match p.assignmentFault? name value with
      | some text => p.abort text
      | none => assignAll m rest (p.setVar name value)

/-- What stands in front of a command that is shown: the expansion of a text, or the text itself if
it has none. -/
def tracePrompt (m : Means) (p : Process) : String × Process :=
  let text := (p.var? "PS4").getD ""
  let src : Source := { rest := text.toList, line := 1 }
  match readWord (readList src.depth .any) .document src with
  | .error e => (text, { { p with line := 1 }.warn ("Syntax error: " ++ e.text) with line := p.line })
  | .ok (w, _) =>
    let (shown, after) := expandText m.inner w p
    if after.isOnward then (shown, { after with status := p.status, substituted := p.substituted })
    else (text, { after with flow := p.flow, status := p.status, faulty := p.faulty })

/-- Showing what is run, if the shell has the option `x`. -/
def traced (m : Means) (assigned : List (String × String)) (fields : List String) (p : Process) :
    Process :=
  if !p.options.contains 'x' then p
  else
    let words := (assigned.map fun (name, value) => name ++ "=" ++ value) ++ fields
    if words.isEmpty then p
    else
      let (shown, p) := tracePrompt m { p with options := Switches.turn false (some 'x') p.options }
      { p with options := Switches.turn true (some 'x') p.options }.complain
        (shown ++ String.intercalate " " words)

/-- **A simple command.** -/
def runSimple (m : Means) (asked : Bool) (assignments : List (String × Word)) (words : List Word)
    (redirections : List Redirection) (p : Process) : Process :=
  let (fields, p) := expandCommand m.inner words { p with substituted := 0 }
  if !p.isOnward then p
  else if fields.isEmpty then
    let p := withRedirections m redirections id (p.withStatus 0)
    if p.isOnward && p.status = 0 then
      let before := p
      let p := assignAll m assignments p
      let p := traced m (assignments.map fun (name, _) => (name, (p.var? name).getD "")) []
        { p with options := before.options }
      if p.isOnward then p.withStatus p.substituted else p
    else p
  else
    let (assigned, p) := expandAssignments m assignments p
    let p := if p.isOnward then traced m assigned fields p else p
    if !p.isOnward then p
    else match assigned.findSome? fun (name, value) => p.assignmentFault? name value with
      | some text => p.abort text
      | none =>
        if fields = ["exec"] then
          match redirectAll m redirections p with
          | (true, p) => p.withStatus 0
          | (false, p) => if p.isOnward then p.endWith 2 else p
        else
          -- A command that keeps its variables ends the shell if it cannot be redirected.
          match redirectAll m redirections p with
          | (true, q) => restore redirections p (dispatch m asked true assigned q fields)
          | (false, q) =>
            let q := restore redirections p q
            if !q.isOnward then q
            else if keepers.contains (fields.headD "") then q.endWith 2
            else q.withStatus 2

end LintSuite.Shell
