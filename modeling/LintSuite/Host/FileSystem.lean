import LintSuite.Path
import LintSuite.Host.IoError
import LintSuite.Host.Tree

/-!
# The file system

A file system is a directory tree and the location of the working directory.  Every request names a
path; `FileSystem.look` leads it to a node, or to the directory and the name where a node could be
made, following links as it goes.  A link inside the path is always followed, one at its end if the
purpose of the request asks for it, and after forty links the search is given up.

`exists`, `isFile`, `isDir` and `read` only look.  The other requests give the file system after
them; where they refuse, nothing has changed, except that `makeDirs` may have made some of the
directories on the way.
-/

namespace LintSuite.Host

open LintSuite RawText

/-- **A file system**, seen from a working directory. -/
structure FileSystem where
  /-- The root directory. -/
  root : Node
  /-- The location of the working directory. -/
  cwd : Location

/-- Where a path leads. -/
inductive Place where
  /-- To a node. -/
  | found (location : Location) (node : Node)
  /-- To a name that is free in a directory that exists. -/
  | free (parent : Location) (name : RawText)

/-- The most links that one lookup follows. -/
def linkLimit : Nat := 40

/-- The longest name, in bytes. -/
def nameLimit : Nat := 255

/-- The longest path, in bytes. -/
def pathLimit : Nat := 4095

/-- What a lookup is made for. -/
inductive Purpose where
  /-- What lies under the path itself, even if it is a link. -/
  | entry
  /-- What the path leads to. -/
  | target
  /-- A file to be written, which the path leads to, and which is made if it is not there. -/
  | output
  deriving DecidableEq, Repr

/-- The names of a path, in order.  A slash at the end counts as an empty name: it asks for a
directory, as a dot would. -/
def namesOf (spelling : RawText) : List RawText :=
  let pieces := Path.segments spelling
  let names := pieces.filter (· != [])
  if pieces.length > 1 && pieces.getLast? == some [] && !names.isEmpty then names ++ [[]]
  else names

/-- Where a link starts from: the root for an absolute target, else the directory it lies in. -/
def linkStart (here : Location) (target : RawText) : Location :=
  if target.head? == some slash then [] else here

/-- Following names from a directory, with a number of links still allowed.  A name with a slash
behind it is no file to be written, whatever lies under it. -/
def lookFrom (root : Node) (purpose : Purpose) (links : Nat) (here : Location) :
    List RawText → Except IoError Place
  | [] =>
    match root.get? here with
    | some node => .ok (.found here node)
    | none => .error .notFound
  | name :: rest =>
    match root.get? here with
    | some (.dir access entries) =>
      if !access.execute then .error .denied
      else if name = [] || name = [dot] then lookFrom root purpose links here rest
      else if name = [dot, dot] then lookFrom root purpose links here.dropLast rest
      else if purpose = .output && rest = [[]] then .error .isDirectory
      else if nameLimit < name.length then .error .nameTooLong
      else match entries.find? name with
        | none => if rest.isEmpty then .ok (.free here name) else .error .notFound
        | some (.link target) =>
          if rest.isEmpty && purpose = .entry then .ok (.found (here ++ [name]) (.link target))
          else match links with
            | 0 => .error .linkLoop
            | links + 1 =>
              lookFrom root purpose links (linkStart here target) (namesOf target ++ rest)
        | some _ => lookFrom root purpose links (here ++ [name]) rest
    | some _ => .error .notDirectory
    | none => .error .notFound
  termination_by names => (links, names.length)

namespace FileSystem

/-- **Path lookup.** -/
def look (fs : FileSystem) (purpose : Purpose) (p : Path) : Except IoError Place :=
  if p.bytes.contains 0 then .error .nulInPath
  else if p.bytes.isEmpty then .error .notFound
  else if pathLimit < p.bytes.length then .error .nameTooLong
  else lookFrom fs.root purpose linkLimit (if p.isAbsolute then [] else fs.cwd) (namesOf p.bytes)

/-- The node a path leads to, links followed, and its location. -/
def find (fs : FileSystem) (p : Path) : Except IoError (Location × Node) :=
  match fs.look .target p with
  | .ok (.found location node) => .ok (location, node)
  | .ok (.free _ _) => .error .notFound
  | .error e => .error e

/-- The node a path leads to, a link at its end not followed. -/
def findSelf (fs : FileSystem) (p : Path) : Except IoError Node :=
  match fs.look .entry p with
  | .ok (.found _ node) => .ok node
  | .ok (.free _ _) => .error .notFound
  | .error e => .error e

/-- Whether a path leads to anything. -/
def exists? (fs : FileSystem) (p : Path) : Bool :=
  match fs.find p with
  | .ok _ => true
  | .error _ => false

/-- Whether a path leads to a file. -/
def isFile (fs : FileSystem) (p : Path) : Bool :=
  match fs.find p with
  | .ok (_, .file _ _) => true
  | _ => false

/-- Whether a path leads to a directory. -/
def isDir (fs : FileSystem) (p : Path) : Bool :=
  match fs.find p with
  | .ok (_, .dir _ _) => true
  | _ => false

/-- **Reading a file.**  Of a device only what it holds can be read, and nothing of one that holds
more than can be read. -/
def read (fs : FileSystem) (p : Path) : Except IoError (List UInt8) :=
  match fs.find p with
  | .ok (_, .file access content) => if access.read then .ok content else .error .denied
  | .ok (_, .device _) => .ok []
  | .ok (_, .dir access _) => .error (if access.read then .isDirectory else .denied)
  | .ok (_, .link _) => .error .linkLoop
  | .error e => .error e

/-- The file system with a new node under a free name, if the directory may be written. -/
def create (fs : FileSystem) (parent : Location) (name : RawText) (node : Node) :
    Except IoError FileSystem :=
  match fs.root.get? parent with
  | some (.dir access _) =>
    if access.write then .ok { fs with root := fs.root.set node (parent ++ [name]) }
    else .error .denied
  | _ => .error .notDirectory

/-- Whether a spelling ends in a slash behind a name. -/
def endsInSlash (p : Path) : Bool :=
  p.bytes.getLast? == some slash && (Path.segments p.bytes).any (· != [])

/-- The spelling without the slashes at its end. -/
def withoutSlash (p : Path) : Path :=
  ⟨(p.bytes.reverse.dropWhile (· == slash)).reverse⟩

/-- **Writing a file**, a new one or one that is there.  A path that ends in a slash names no file,
nor does a link whose target ends in one. -/
def write (fs : FileSystem) (p : Path) (content : List UInt8) : Except IoError FileSystem :=
  match fs.look .output p with
  | .ok (.found location node) =>
    match node with
    | .file access _ =>
      if access.write then .ok { fs with root := fs.root.set (.file access content) location }
      else .error .denied
    | .device _ => .ok fs
    | .dir _ _ => .error .isDirectory
    | .link _ => .error .linkLoop
  | .ok (.free parent name) => fs.create parent name (.file .ofFile content)
  | .error e => .error e

/-- Putting a new node under a path, with slashes at its end or without: the place must be free. -/
def placeNew (fs : FileSystem) (p : Path) (node : Node) : Except IoError FileSystem :=
  match fs.look .entry (if endsInSlash p then withoutSlash p else p) with
  | .ok (.found _ _) => .error .alreadyExists
  | .ok (.free parent name) => fs.create parent name node
  | .error e => .error e

/-- **Making a directory** in one that exists. -/
def makeDir (fs : FileSystem) (p : Path) : Except IoError FileSystem := fs.placeNew p .emptyDir

/-- Making the first of some directories, each of which lies in the next.  The file system comes
back in any case: on a refusal some of the directories may have been made. -/
def makeDirsFrom (fs : FileSystem) : List Path → FileSystem × Option IoError
  | [] => (fs, some (.other "failed to create whole tree"))
  | p :: parents =>
    if p.bytes.isEmpty then (fs, none)
    else match fs.makeDir p with
      | .ok after => (after, none)
      | .error .notFound =>
        match makeDirsFrom fs parents with
        | (between, some e) => (between, some e)
        | (between, none) =>
          match between.makeDir p with
          | .ok after => (after, none)
          | .error e => (between, if between.isDir p then none else some e)
      | .error e => (fs, if fs.isDir p then none else some e)

/-- **Making a directory** and those it lies in. -/
def makeDirs (fs : FileSystem) (p : Path) : FileSystem × Option IoError :=
  fs.makeDirsFrom p.ancestors

/-- **Changing the working directory.** -/
def enter (fs : FileSystem) (p : Path) : Except IoError FileSystem :=
  match fs.find p with
  | .ok (location, .dir access _) =>
    if access.execute then .ok { fs with cwd := location } else .error .denied
  | .ok _ => .error .notDirectory
  | .error e => .error e

/-- **The working directory** as the system reports it. -/
def workingDir (fs : FileSystem) : Path :=
  if fs.cwd.isEmpty then ⟨[slash]⟩ else ⟨fs.cwd.flatMap (slash :: ·)⟩

end FileSystem

end LintSuite.Host
