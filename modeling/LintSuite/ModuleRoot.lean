import LintSuite.Host.FileSystem

/-!
# The root of a module

A module is marked by a file in its root directory.  Its root is looked for from a directory
upwards, and the nearest one counts; a directory of the same name marks nothing.

`enterRoot` goes there from the working directory, and stays where it is if there is no module.
-/

namespace LintSuite

open Host

/-- The file that marks the root of a module. -/
def moduleMark : String := "go.mod"

/-- **The nearest module root** at or above a directory. -/
def findRoot (fs : FileSystem) (start : Path) : Option Path :=
  start.ancestors.find? fun dir => fs.isFile (dir.join (.ofText moduleMark))

/-- **Entering the module root**: whether there is one, and the file system seen from it. -/
def enterRoot (fs : FileSystem) : Except IoError (Bool × FileSystem) :=
  match findRoot fs fs.workingDir with
  | some root =>
    match fs.enter root with
    | .ok after => .ok (true, after)
    | .error e => .error e
  | none => .ok (false, fs)

end LintSuite
