import LintSuite.Host.FileSystem

/-!
# Search paths

A program is named by a path, if its name has a slash, or looked for in the directories of a search
path (`candidates`).  Whether it can be found is asked without starting it (`isFound`): it must be a
file that may be executed.
-/

namespace LintSuite.Host.SearchPath

open LintSuite RawText

/-- The search path where none is set. -/
def fallback : String := "/bin:/usr/bin"

/-- Whether a name says where its program is. -/
def isPlaced (name : String) : Bool := name.toList.contains '/'

/-- Where a program is looked for: where its name says, if it has a slash, else in each directory of
a search path.  An empty directory is the working directory. -/
def candidates (searchPath name : String) : List String :=
  if isPlaced name then [name]
  else if name.isEmpty then []
  else (searchPath.splitOn ":").map fun dir => if dir.isEmpty then name else dir ++ "/" ++ name

/-- Whether a file that may be executed lies under a path. -/
def isExecutable (fs : FileSystem) (p : Path) : Bool :=
  match fs.find p with
  | .ok (_, .file access _) => access.execute
  | _ => false

/-- The home directory in place of a tilde that is the first name of a directory. -/
def homed (home : Path) (dir : String) : String :=
  match (Path.ofText dir).components with
  | .name first :: _ =>
    if first = .ofText "~" then
      (((Path.body (.ofText dir)).drop 1).foldl (fun (p : Path) s =>
        if Path.isTrivial s then p else p.join s) home).text
    else dir
  | _ => dir

/-- **Whether a program can be found** by its name: as a file that may be executed.  A directory of
the search path may begin with a tilde for the home directory, although nothing is ever started from
there.  Without a search path only a name with a slash leads anywhere. -/
def isFound (fs : FileSystem) (home : Path) (searchPath : Option String) (name : String) : Bool :=
  if isPlaced name then isExecutable fs (.ofText name)
  else match searchPath with
    | some path =>
      (candidates (String.intercalate ":" ((path.splitOn ":").map (homed home))) name).any
        fun candidate => isExecutable fs (.ofText candidate)
    | none => false

end LintSuite.Host.SearchPath
