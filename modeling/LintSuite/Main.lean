import LintSuite.CommandLine.Session
import LintSuite.Host.SearchPath
import LintSuite.Host.Setup

/-!
# The program

The program takes a picture of the files it may need, holds a session on it, prints what the session
shows, and writes the settings file if the session made one.  The picture holds the tree below the
root of the module, the tools on the search path, and the settings file; of other files than sources
only the names are taken.

A picture starts no processes: every command is refused (`Picture.executor`), and a session reports
that of each tool it comes to.
-/

namespace LintSuite.Picture

open Host

/-- The variables of the environment that are handed on. -/
def variableNames : List String :=
  ["HOME", "PATH", "XDG_CONFIG_HOME", "CLICOLOR_FORCE", "NO_COLOR", "CC", "CGO_ENABLED", "GOPATH",
    "GOROOT"]

/-- The programs that may be looked for. -/
def toolNames : List String :=
  Tool.all.filterMap (·.entry.command.head?) ++ [Spelling.program, "go"] ++
    Install.managers.map (·.1)

/-- How deep a tree is taken. -/
def depthLimit : Nat := 64

/-- The environment. -/
def readEnvironment : IO (List (String × String)) :=
  variableNames.filterMapM fun name => return (← IO.getEnv name).map (name, ·)

/-- The value of a variable. -/
def var? (environment : List (String × String)) (name : String) : Option String :=
  (environment.find? (·.1 == name)).map (·.2)

/-- **The executor of a picture**, which refuses every command. -/
def executor (environment : List (String × String)) : Executor FileSystem :=
  .launching (fun _ _ fs => (.refused (.other "Function not implemented (os error 38)"), fs))
    (fun program fs => SearchPath.isFound fs (.ofText ((var? environment "HOME").getD "/root"))
      (var? environment "PATH") program)
    fun p fs => fs.read p

/-- The file under a path, if there is one that can be read. -/
def fileAt? (executable : Bool) (path : String) : IO (Option (Path × Entry)) := do
  try
    let content ← IO.FS.readBinFile path
    return some (.ofText path, .file executable content.toList)
  catch _ => return none

/-- The tree below a directory. -/
def readTree : Nat → String → IO (List (Path × Entry))
  | 0, _ => return []
  | depth + 1, dir => do
    let here ← IO.currentDir
    let found ← try (here / dir).readDir catch _ => pure #[]
    let below ← found.toList.mapM fun e => do
      let path := dir ++ "/" ++ e.fileName
      let type ← try (·.type) <$> e.path.symlinkMetadata catch _ => pure .other
      match type with
      | .dir => return (.ofText path, .dir) :: (← readTree depth path)
      | .symlink =>
        let target ← try (·.toString) <$> IO.FS.realPath e.path catch _ => pure ""
        return [(.ofText path, .link (.ofText target))]
      | _ =>
        let entry ← if path.endsWith ".go" then fileAt? false path else pure none
        return [entry.getD (.ofText path, .file false [])]
    return below.flatten

/-- The module marks above a directory. -/
def readMarks (dir : Path) : IO (List (Path × Entry)) :=
  dir.ancestors.filterMapM fun d => fileAt? false (d.join (.ofText moduleMark)).text

/-- The tools on a search path. -/
def readTools (searchPath : String) : IO (List (Path × Entry)) :=
  (toolNames.flatMap (SearchPath.candidates searchPath)).filterMapM (fileAt? true)

/-- **The picture** of the files, seen from the working directory. -/
def readFiles (environment : List (String × String)) : IO FileSystem := do
  let here := Path.ofText (← IO.currentDir).toString
  let marks ← readMarks here
  let marked := (FileSystem.empty.put here .dir).putAll marks
  let root := (findRoot marked here).getD here
  let tree ← readTree depthLimit root.text
  let tools ← readTools ((var? environment "PATH").getD SearchPath.fallback)
  let settings ← match CommandLine.settingsPath (var? environment) with
    | some p => fileAt? false p.text
    | none => pure none
  let fs := marked.putAll (tree ++ tools ++ settings.toList)
  return (fs.enter here).toOption.getD fs

/-- Writing the settings file if there was none before. -/
def writeSettings (p : Path) (before after : FileSystem) : IO Unit := do
  match before.read p, after.read p with
  | .error .notFound, .ok content =>
    try
      if let some dir := p.parent? then IO.FS.createDirAll dir.text
      IO.FS.writeBinFile p.text ⟨content.toArray⟩
    catch _ => return ()
  | _, _ => return ()

end LintSuite.Picture

open LintSuite in
/-- **The program.** -/
def main (arguments : List String) : IO UInt32 := do
  let environment ← Picture.readEnvironment
  let before ← Picture.readFiles environment
  let var? := Picture.var? environment
  let path := CommandLine.settingsPath var?
  let around : CommandLine.Surroundings :=
    ⟨"linux", CommandLine.isColored var?, CommandLine.isStyled var?, path,
      fun _ => Picture.executor environment⟩
  let record := CommandLine.sessionOf around arguments before
  if let some p := path then Picture.writeSettings p before record.files
  (← IO.getStdout).putStr record.ending.output
  for line in record.ending.errors do
    (← IO.getStderr).putStrLn line
  return UInt32.ofNat record.ending.status.code
