import LintSuite.Host.FileSystem

/-!
# Taking away and moving

Requests that take a node out of the file system or put it under another name.  They are about what
lies under a path itself, so a link at its end is not followed.
-/

namespace LintSuite.Host.FileSystem

/-- The node under a path itself, and its location. -/
def locate (fs : FileSystem) (p : Path) : Except IoError (Location × Node) :=
  match fs.look .entry p with
  | .ok (.found location node) => .ok (location, node)
  | .ok (.free _ _) => .error .notFound
  | .error e => .error e

/-- **Removing** a file or a link. -/
def remove (fs : FileSystem) (p : Path) : Except IoError FileSystem := do
  match ← fs.locate p with
  | (_, .dir _ _) => .error .isDirectory
  | (location, _) => .ok { fs with root := fs.root.erase location }

/-- **Removing a directory**, which must be empty. -/
def removeDir (fs : FileSystem) (p : Path) : Except IoError FileSystem := do
  match ← fs.locate p with
  | (location, .dir _ .none) =>
    if location.isEmpty then .error (.other "Device or resource busy")
    else .ok { fs with root := fs.root.erase location }
  | (_, .dir _ _) => .error (.other "Directory not empty")
  | _ => .error .notDirectory

/-- Removing a directory with all that is in it. -/
def removeTree (fs : FileSystem) (p : Path) : Except IoError FileSystem := do
  let (location, _) ← fs.locate p
  if location.isEmpty then .error (.other "Device or resource busy")
  else .ok { fs with root := fs.root.erase location }

/-- Whether a node may take the place of another. -/
def mayReplace (node : Node) : Node → Except IoError Unit
  | .dir _ entries =>
    match node, entries with
    | .dir _ _, .none => .ok ()
    | .dir _ _, _ => .error (.other "Directory not empty")
    | _, _ => .error .isDirectory
  | _ =>
    match node with
    | .dir _ _ => .error .notDirectory
    | _ => .ok ()

/-- **Moving** a node to another path, where it takes the place of what is there. -/
def rename (fs : FileSystem) (source target : Path) : Except IoError FileSystem := do
  let (from', node) ← fs.locate source
  let isDir := match node with
    | .dir _ _ => true
    | _ => false
  let place ← fs.look .entry
    (if isDir && endsInSlash target then withoutSlash target else target)
  let to' := match place with
    | .found location _ => location
    | .free parent name => parent ++ [name]
  if to' = from' then .ok fs
  else if isDir && from'.isPrefixOf to' then .error (.other "Invalid argument")
  else
    match place with
    | .found _ old => mayReplace node old
    | .free _ _ => .ok ()
    .ok { fs with root := ((fs.root.erase from').erase to').set node to' }

/-- **Granting or withdrawing** the right to execute a file. -/
def setExecutable (fs : FileSystem) (p : Path) (b : Bool) : Except IoError FileSystem := do
  match ← fs.find p with
  | (location, .file access content) =>
    .ok { fs with root := fs.root.set (.file { access with execute := b } content) location }
  | _ => .ok fs

end LintSuite.Host.FileSystem
