import LintSuite.Host.FileSystem

/-!
# Setting up a file system

A file system is set up entry by entry; the directories that an entry lies in are made as needed.
An entry that cannot be made is left out.
-/

namespace LintSuite.Host

open LintSuite

/-- What is put under a path. -/
inductive Entry where
  /-- A file, which may be a program. -/
  | file (executable : Bool) (content : List UInt8)
  /-- A device. -/
  | device (d : Device)
  /-- A symbolic link. -/
  | link (target : RawText)
  /-- A directory. -/
  | dir

namespace FileSystem

/-- The file system with the directories that a path lies in. -/
def makeParents (fs : FileSystem) (p : Path) : FileSystem :=
  match p.parent? with
  | some parent => (fs.makeDirs parent).1
  | none => fs

/-- The file system with a node under a path, if the path is free. -/
def place (fs : FileSystem) (p : Path) (node : Node) : FileSystem :=
  match fs.look .entry p with
  | .ok (.free parent name) => (fs.create parent name node).toOption.getD fs
  | _ => fs

/-- The file system in which the file under a path may be executed. -/
def makeExecutable (fs : FileSystem) (p : Path) : FileSystem :=
  match fs.find p with
  | .ok (location, .file access content) =>
    { fs with root := fs.root.set (.file { access with execute := true } content) location }
  | _ => fs

/-- **Putting an entry** under a path. -/
def put (fs : FileSystem) (p : Path) (e : Entry) : FileSystem :=
  match e with
  | .dir => (fs.makeDirs p).1
  | .link target => (fs.makeParents p).place p (.link target)
  | .device d => (fs.makeParents p).place p (.device d)
  | .file executable content =>
    let fs := fs.makeParents p
    match fs.write p content with
    | .error _ => fs
    | .ok after => if executable then after.makeExecutable p else after

/-- **Setting up** some entries, one after another. -/
def putAll (fs : FileSystem) (entries : List (Path × Entry)) : FileSystem :=
  entries.foldl (fun fs e => fs.put e.1 e.2) fs

/-- The file system with nothing in it. -/
def empty : FileSystem := ⟨.emptyDir, []⟩

end FileSystem

end LintSuite.Host
