import LintSuite.FileName
import LintSuite.FileSet
import LintSuite.Host.FileSystem

/-!
# Surveying a tree

`survey` walks the directories below a root and sorts every file it meets into one of three sets.
Directories of version control, and those on the prune list, are left out with all they hold; files
on the prune list and files with ignored names are dropped one by one.  The root is what was asked
for: its own name is never looked at as a directory.

Links are entries like files and are not followed, except that a root that is a link to a directory
is walked too.  A directory that cannot be listed loses only what lies below it.

The walk goes by bytes, but what a name is compared with is text, and a set of files keeps names as
text.  So a name is decoded before it is judged (`isPrunedDir`, `listedName`), and a file whose name
is no text is listed by the name that is shown for it, under which it cannot be opened again.
Directories keep their bytes.
-/

namespace LintSuite

open Host

/-- The directory of version control data. -/
def vcsDir : String := ".git"

/-- Whether a directory below the root is left out, by its name as it is shown. -/
def isPrunedDir (prune : List String) (name : RawText) : Bool :=
  name.shown == vcsDir || prune.contains name.shown

/-- Whether the directory under a path can be listed.  `entered` says whether the directory that
holds it lets one pass; and the path must not be too long to be looked up. -/
def canList (entered : Bool) (p : Path) (access : Access) : Bool :=
  entered && access.read && p.bytes.length ≤ pathLimit

mutual

/-- The paths of what is no directory below a node, in the order of the walk.  `entered` says
whether the directory that holds the node lets one pass. -/
def filesBelow (prune : List String) (entered : Bool) (p : Path) (name : RawText) :
    Node → List Path
  | .file _ _ => [p]
  | .device _ => [p]
  | .link _ => [p]
  | .dir access entries =>
    if isPrunedDir prune name || !canList entered p access then []
    else filesAmong prune access.execute p entries

/-- The paths of what is no directory among entries of a directory and below. -/
def filesAmong (prune : List String) (entered : Bool) (dir : Path) : Entries → List Path
  | .none => []
  | .entry name node rest =>
    filesBelow prune entered (dir.join name) name node ++ filesAmong prune entered dir rest

end

/-- The paths below a directory, if it can be listed. -/
def filesOfDir (prune : List String) (p : Path) : Node → List Path
  | .dir access entries => if access.read then filesAmong prune access.execute p entries else []
  | _ => []

/-- **The walk**: the paths of everything below a root that is no directory. -/
def walk (fs : FileSystem) (prune : List String) (root : Path) : List Path :=
  match fs.findSelf root with
  | .error _ => []
  | .ok (.link _) =>
    match fs.find root with
    | .ok (_, node) => root :: filesOfDir prune root node
    | .error _ => []
  | .ok (.file _ _) => [root]
  | .ok (.device _) => [root]
  | .ok node => filesOfDir prune root node

/-- The directory a file is listed under: its parent without a leading dot, or the current one. -/
def listedUnder (p : Path) : Path :=
  let parent := p.parent?.getD .here
  let bare := parent.behindDot?.getD parent
  if bare.bytes.isEmpty then .here else bare

/-- **The name a file is listed by**: its own, as it is shown. -/
def listedName (p : Path) : String :=
  RawText.shown (p.fileName?.getD p.bytes)

/-- Whether a file is listed at all. -/
def isListed (prune : List String) (name : String) : Bool :=
  !isIgnored name && !prune.contains name

/-- The sets with one more file. -/
def FileSets.add (sets : FileSets) (dir : Path) (name : String) : FileSets :=
  match FileKind.ofName name with
  | .test => { sets with test := sets.test.push dir name }
  | .source => { sets with source := sets.source.push dir name }
  | .other => { sets with other := sets.other.push dir name }

/-- **The survey** of a tree: its files by kind and directory. -/
def survey (fs : FileSystem) (prune : List String) (root : Path) : FileSets :=
  (walk fs prune root).foldl
    (fun sets p =>
      if isListed prune (listedName p) then sets.add (listedUnder p) (listedName p) else sets)
    {}

end LintSuite
