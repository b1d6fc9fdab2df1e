import LintSuite.Simulator.Process.Mode
import LintSuite.Simulator.Process.Program
import LintSuite.Simulator.Shell.Builtin.Jobs
import LintSuite.Simulator.Shell.Builtin.Reading

/-!
# Commands of the shell itself

These commands change the shell they run in: its working directory, its variables and arguments,
what it does on signals, and where it stands.  Those that run other commands are part of the
execution of scripts.
-/

namespace LintSuite.Shell

open Host Text

namespace Builtin

/-- The names in a path, and what stands in front of the first one: two slashes count as such, and
more count as one. -/
def rooted (path : String) : String × List String :=
  let cs := path.toList
  (if cs.take 2 = ['/', '/'] && (cs.drop 2).head? != some '/' then "//" else "/",
    ((Path.segments (Octets.ofChars cs)).filter (!·.isEmpty)).map Octets.toText)

/-- **The path that another path leads to** from a directory, by the names alone: two dots take the
last name back. -/
def pathFrom (directory path : String) : String :=
  let isAbsolute := path.toList.head? = some '/'
  let (root, before) := rooted (if isAbsolute then path else directory)
  let names := (rooted path).2.foldl (fun (names : List String) name =>
    if name = "." then names else if name = ".." then names.dropLast else names ++ [name])
    (if isAbsolute then [] else before)
  root ++ String.intercalate "/" names

/-- The directory on the search path for directories that a name leads to, and whether that is to be
told. -/
def searchedDirectory? (p : Process) (name : String) : Option (String × Bool) :=
  let isPlaced := match (name.toList.takeWhile (· != '/')), name.toList.head? with
    | _, some '/' => true
    | first, _ => first = ['.'] || first = ['.', '.']
  if isPlaced then none
  else (p.var? "CDPATH").bind fun path =>
    let candidates := (path.splitOn ":").map fun dir =>
      (if dir.isEmpty then name
        else if dir.endsWith "/" then dir ++ name
        else dir ++ "/" ++ name, !dir.isEmpty)
    candidates.find? fun (dir, _) => p.files.isDir (Octets.path dir)

/-- Whether the last one of the options asks for the path without links. -/
def isPhysical (a : Arguments) : Bool :=
  (a.options.filter fun o => o.1 == 'P' || o.1 == 'L').getLast?.any (·.1 == 'P')

/-- Changing the working directory.  The shell knows it by the path that led there, unless the path
without links is asked for. -/
def cd : Utility := optioned "cd" false ['L', 'P'] [] fun a p =>
  let back := a.operands.head? = some "-"
  let target := (if back then p.var? "OLDPWD" else a.operands.head? <|> p.var? "HOME").getD ""
  let (dir, told) := (searchedDirectory? p (if target.isEmpty then "." else target)).getD
    (if target.isEmpty then "." else target, false)
  let path := if isPhysical a then dir else pathFrom p.directory dir
  match p.files.enter (Octets.path path) with
  | .error _ => (p.object "cd" ("can't cd to " ++ target)).withStatus 2
  | .ok files =>
    let directory := if isPhysical a then Octets.ofPath files.workingDir else path
    let p := (p.setExported "OLDPWD" p.directory).setExported "PWD" directory
    let p := { p with files, directory, hashed := p.hashed.map fun (h : String × Bool) => (h.1, true) }
    (if back || told then p.print (directory ++ "\n") else p).withStatus 0

/-- Printing the working directory. -/
def pwd : Utility := optioned "pwd" false ['L', 'P'] [] fun a p =>
  if isPhysical a then Utility.pwd [] p else (p.print (p.directory ++ "\n")).withStatus 0

/-- Printing by a format. -/
def printf : Utility := optioned "printf" false [] [] fun a p =>
  Utility.printf Printf.Fault.message
    (fun faults => if faults.any (·.isDirective) then 2 else if faults.isEmpty then 0 else 1)
    (fun p => (p.object "printf" "usage: printf format [arg ...]").withStatus 2) a.operands p

/-- Variables as a script would set them again, behind some words. -/
def listing (words : String) (vars : List Variable) : String :=
  let sorted := vars.mergeSort fun a b => !(b.name < a.name)
  String.join (sorted.map fun v =>
    words ++ v.name ++ (if v.isSet then "=" ++ inQuotes v.value else "") ++ "\n")

/-- A command that gives variables a property, and perhaps a value, or lists those that have it. -/
def declaring (name : String) (has : Variable → Bool) (give : Variable → Variable) : Utility :=
  optioned name true ['p'] [] fun a p =>
    if a.operands.isEmpty || a.has 'p' then
      (p.print (listing (name ++ " ") (p.vars.filter has))).withStatus 0
    else a.operands.foldl (fun p text =>
      let (variable', value) := assignmentOf text
      if !p.isOnward then p
      else if !isName variable' then p.abort (name ++ ": " ++ variable' ++ ": bad variable name")
      else match value with
        | some v =>
          match p.assignmentFault? variable' v with
          | some text => p.abort (name ++ ": " ++ text)
          | none => (p.setVar variable' v).changeVar variable' give
        | none => p.changeVar variable' give) (p.withStatus 0)

/-- Handing variables on to children. -/
def exportVariables : Utility := declaring "export" (·.exported) ({ · with exported := true })

/-- Setting variables that may not be changed any more. -/
def fixVariables : Utility := declaring "readonly" (·.fixed) ({ · with fixed := true })

/-- Declaring variables of a function. -/
def declareLocals : Utility := fun arguments p =>
  match p.locals with
  | none => p.abort "local: not in a function"
  | some _ =>
    arguments.foldl (fun p a =>
      let (name, value) := assignmentOf a
      let known := p.locals.getD []
      let p := if known.any (·.1 == name) then p
        else { p with locals := some ((name, p.vars.find? (·.name == name)) :: known) }
      match value with
      | some v =>
        match p.assignmentFault? name v with
        | some text => p.abort ("local: " ++ text)
        | none => p.setVar name v
      | none => p) (p.withStatus 0)

/-- Forgetting variables or functions. -/
def unset : Utility := optioned "unset" true ['v', 'f'] [] fun a p =>
  if a.has 'f' then
    { p with functions := p.functions.filter fun f => !a.operands.contains f.1, status := 0 }
  else a.operands.foldl (fun p name =>
    if !p.isOnward then p
    else if !isName name then p.abort ("unset: " ++ name ++ ": bad variable name")
    else match p.assignmentFault? name "" with
      | some text => p.abort ("unset: " ++ text)
      | none => p.unsetVar name) (p.withStatus 0)

/-! ### Aliases -/

/-- An alias as it would be given again. -/
def shownAlias (name value : String) : String := name ++ "=" ++ inQuotes value ++ "\n"

/-- Giving words other texts to stand for, or listing those that have one. -/
def nameTexts : Utility := fun arguments p =>
  if arguments.isEmpty then
    let sorted := p.aliases.mergeSort fun a b => tableRow a.1 ≤ tableRow b.1
    (p.print (String.join (sorted.map fun (name, value) => shownAlias name value))).withStatus 0
  else arguments.foldl (fun p text =>
    let (name, value) := assignmentOf text
    let known := p.aliases.find? (·.1 == name)
    match value, known with
    | some value, some _ =>
      { p with aliases := p.aliases.map fun a => if a.1 == name then (name, value) else a }
    | some value, none => { p with aliases := p.aliases ++ [(name, value)] }
    | none, some (_, value) => p.print (shownAlias name value)
    | none, none => (p.complain ("alias: " ++ name ++ " not found")).withStatus 1) (p.withStatus 0)

/-- Taking words the texts they stand for, or all of them. -/
def unalias : Utility := optioned "unalias" false ['a'] [] fun a p =>
  if a.has 'a' then { p with aliases := [], status := 0 }
  else a.operands.foldl (fun p name =>
    if p.aliases.any (·.1 == name) then { p with aliases := p.aliases.filter (·.1 != name) }
    else (p.complain ("unalias: " ++ name ++ " not found")).withStatus 1) (p.withStatus 0)

/-! ### Arguments and flow -/

/-- Dropping arguments from the front. -/
def shift : Utility := fun arguments p =>
  numberArgument p "shift" arguments fun n =>
    if p.arguments.length < n then p.abort "shift: can't shift that many"
    else (p.withArguments (p.arguments.drop n)).withStatus 0

/-- Ending the shell. -/
def exit : Utility := fun arguments p =>
  match arguments with
  | [] => p.endWith (p.held.getD p.status)
  | a :: _ =>
    match Numeral.small? a with
    | some n => p.endWith n
    | none => p.abort ("exit: Illegal number: " ++ a)

/-- Going back from a function or a file of commands. -/
def return' : Utility := fun arguments p =>
  match arguments with
  | [] => { p with flow := .returning }
  | a :: _ =>
    match Numeral.small? a with
    | some n => { p with flow := .returning, status := n }
    | none => p.abort ("return: Illegal number: " ++ a)

/-- Leaving loops, as many as there are. -/
def break' : Utility := fun arguments p =>
  numberArgument p "break" arguments fun n =>
    if n = 0 then p.abort "break: Illegal number: 0"
    else if p.loops = 0 then p.withStatus 0
    else { p with flow := .leaving (min n p.loops - 1), status := 0 }

/-- Going on with the next round of a loop, behind the loops that are left. -/
def continue' : Utility := fun arguments p =>
  numberArgument p "continue" arguments fun n =>
    if n = 0 then p.abort "continue: Illegal number: 0"
    else if p.loops = 0 then p.withStatus 0
    else { p with flow := .skipping (min n p.loops - 1), status := 0 }

/-- Setting switches and arguments. -/
def set : Utility := fun arguments p =>
  if arguments.isEmpty then (p.print (listing "" (p.vars.filter (·.isSet)))).withStatus 0
  else match Switches.read false p.options arguments with
    | .error text => p.abort ("set: " ++ text)
    | .ok s =>
      let p := { p with options := s.on, status := 0 }
      let p := match s.listing with
        | some reader => p.print (Switches.listed reader s.on)
        | none => p
      if s.rest.isEmpty && !s.divided then p else p.withArguments s.rest

/-- Printing, or saying, which rights new files do not get. -/
def umask : Utility := optioned "umask" false ['S'] [] fun a p =>
  let digits := fun (n : Nat) => String.ofList (Nat.toDigits 8 n)
  let rights := fun (n : Nat) =>
    (if n &&& 4 = 0 then "r" else "") ++ (if n &&& 2 = 0 then "w" else "") ++
      (if n &&& 1 = 0 then "x" else "")
  match a.operands with
  | [] =>
    let text := if a.has 'S' then
        "u=" ++ rights (p.mask / 64) ++ ",g=" ++ rights (p.mask / 8 % 8) ++ ",o=" ++
          rights (p.mask % 8)
      else String.ofList (List.replicate (4 - (digits p.mask).length) '0') ++ digits p.mask
    (p.print (text ++ "\n")).withStatus 0
  | mode :: _ =>
    let cs := mode.toList
    if cs.head?.any Char.isDigit then
      if cs.all Printf.isOctal then { p with mask := Printf.octal cs % 512, status := 0 }
      else (p.object "umask" ("Illegal number: " ++ mode)).withStatus 2
    else match Mode.after? (511 - p.mask) cs with
      | some rights => { p with mask := 511 - rights, status := 0 }
      | none => (p.object "umask" ("Illegal mode: " ++ mode)).withStatus 2

/-- Printing how much time has been used: none. -/
def times : Utility := fun _ p =>
  let line := "0m0.000000s 0m0.000000s\n"
  (p.print (line ++ line)).withStatus 0

/-- The letters of what has limits, and of the ways to tell them. -/
def limitLetters : List Char := "HSatfdscmlpnvwr".toList

/-- Printing a limit, of which there is none, or setting one, which changes nothing. -/
def ulimit : Utility := optioned "ulimit" false limitLetters [] fun a p =>
  match a.operands with
  | [] => (p.print "unlimited\n").withStatus 0
  | [limit] =>
    if limit = "unlimited" || (Numeral.digits? limit).isSome then p.withStatus 0
    else (p.object "ulimit" "bad number").withStatus 2
  | _ => (p.object "ulimit" "too many arguments").withStatus 2

end Builtin

/-- The commands of the shell itself that look for no others. -/
def plainBuiltins : List (String × Utility) :=
  [(":", Utility.leaving 0), ("true", Utility.leaving 0), ("false", Utility.leaving 1),
    ("echo", Utility.echo), ("printf", Builtin.printf), ("test", Utility.test "test"),
    ("[", Utility.bracket), ("pwd", Builtin.pwd), ("kill", Utility.kill), ("cd", Builtin.cd),
    ("export", Builtin.exportVariables), ("readonly", Builtin.fixVariables),
    ("local", Builtin.declareLocals), ("unset", Builtin.unset), ("alias", Builtin.nameTexts),
    ("unalias", Builtin.unalias), ("shift", Builtin.shift),
    ("set", Builtin.set), ("exit", Builtin.exit), ("return", Builtin.return'),
    ("break", Builtin.break'), ("continue", Builtin.continue'), ("read", Builtin.read),
    ("getopts", Builtin.getopts), ("wait", Builtin.wait), ("trap", Builtin.trap),
    ("umask", Builtin.umask), ("times", Builtin.times),
    ("ulimit", Builtin.ulimit), ("jobs", Builtin.jobs), ("fg", Builtin.moveJob "fg"),
    ("bg", Builtin.moveJob "bg")]

/-- The commands of the shell that run others. -/
def runners : List String := ["eval", ".", "exec", "command", "type"]

namespace Builtin

/-- The paths of the programs that have been found, with a star behind those that have to be looked
for again. -/
def hashedPaths (p : Process) : List String :=
  let sorted := p.hashed.mergeSort fun a b => rowOf 31 a.1 ≤ rowOf 31 b.1
  sorted.filterMap fun (name, again) =>
    ((SearchPath.candidates ((p.var? "PATH").getD "") name).find?
      (Program.isExecutable p.files)).map (· ++ (if again then "*" else ""))

/-- Whether a name is that of a command of the shell itself. -/
def isOwn (name : String) : Bool :=
  name = "hash" || runners.contains name || plainBuiltins.any (·.1 == name)

/-- Finding programs without running them, or listing those that have been found. -/
def hash : Utility := optioned "hash" false ['r'] [] fun a p =>
  if a.has 'r' then { p with hashed := [], status := 0 }
  else if a.operands.isEmpty then
    (p.print (String.join ((hashedPaths p).map (· ++ "\n")))).withStatus 0
  else a.operands.foldl (fun p name =>
    let others := p.hashed.filter (·.1 != name)
    if SearchPath.isPlaced name || p.functions.any (·.1 == name) || isOwn name then p
    else if (SearchPath.candidates ((p.var? "PATH").getD "") name).any
        (Program.isExecutable p.files) then
      { p with hashed := others ++ [(name, false)] }
    else ({ p with hashed := others }.object "hash" (name ++ ": not found")).withStatus 1)
    (p.withStatus 0)

end Builtin

/-- The commands of the shell itself that run no others. -/
def builtins : List (String × Utility) := plainBuiltins ++ [("hash", Builtin.hash)]

end LintSuite.Shell
