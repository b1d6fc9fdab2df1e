import LintSuite.Path

/-!
# Sets of files

Files are grouped by the directory they were found in.  Directories stand in path order, each once,
under the spelling it was first given; the names within one directory keep the order in which they
were added.  No group is empty: a directory enters a set with its first file.

`FileSet.push` adds a file.  Everything else reads the groups: `paths` lists the files in order,
`get?` looks a directory up, and the counts count.
-/

namespace LintSuite

/-- The files of one directory. -/
structure Bucket where
  /-- The directory, as first spelled. -/
  dir : Path
  /-- The names of its files, in the order they were added. -/
  names : List String
  deriving DecidableEq, Repr

/-- The path of a file, without a leading dot if its directory is the current one. -/
def fileIn (dir : Path) (name : String) : Path :=
  if dir.same .here then .ofText name else dir.join (.ofText name)

/-- The paths of the files of a directory. -/
def Bucket.paths (b : Bucket) : List Path :=
  b.names.map (fileIn b.dir)

/-- **A set of files**, by directory. -/
structure FileSet where
  /-- The directories in path order. -/
  buckets : List Bucket
  deriving DecidableEq, Repr

namespace FileSet

/-- The set without files. -/
def empty : FileSet := ⟨[]⟩

/-- Adding a name to the bucket of its directory, or a new bucket in its place. -/
def insert (dir : Path) (name : String) : List Bucket → List Bucket
  | [] => [⟨dir, [name]⟩]
  | b :: rest =>
    match dir.order b.dir with
    | .lt => ⟨dir, [name]⟩ :: b :: rest
    | .eq => ⟨b.dir, b.names ++ [name]⟩ :: rest
    | .gt => b :: insert dir name rest

/-- **Adding a file** to a directory. -/
def push (set : FileSet) (dir : Path) (name : String) : FileSet :=
  ⟨insert dir name set.buckets⟩

/-- The set that holds the given files, added one after another. -/
def ofList (files : List (Path × String)) : FileSet :=
  files.foldl (fun set f => set.push f.1 f.2) empty

/-- The names recorded for a directory. -/
def get? (set : FileSet) (dir : Path) : Option (List String) :=
  (set.buckets.find? (·.dir.same dir)).map Bucket.names

/-- The paths of all files. -/
def paths (set : FileSet) : List Path :=
  set.buckets.flatMap Bucket.paths

/-- Whether a path is that of a file of the set. -/
def contains (set : FileSet) (p : Path) : Bool :=
  set.buckets.any fun b => b.names.any fun name => (fileIn b.dir name).same p

/-- The number of directories. -/
def dirCount (set : FileSet) : Nat :=
  set.buckets.length

/-- The number of files. -/
def fileCount (set : FileSet) : Nat :=
  (set.buckets.flatMap Bucket.names).length

/-- Whether there is no directory. -/
def isEmpty (set : FileSet) : Bool :=
  set.buckets.isEmpty

end FileSet

/-- **The three sets** that the files of a tree fall into. -/
structure FileSets where
  /-- Source files. -/
  source : FileSet := .empty
  /-- Test files. -/
  test : FileSet := .empty
  /-- All other files. -/
  other : FileSet := .empty
  deriving DecidableEq, Repr

namespace FileSets

/-- What the compiler reads: source and test files. -/
def code (sets : FileSets) : List FileSet :=
  [sets.source, sets.test]

/-- All three sets. -/
def all (sets : FileSets) : List FileSet :=
  [sets.source, sets.test, sets.other]

/-- The number of files. -/
def fileCount (sets : FileSets) : Nat :=
  sets.source.fileCount + sets.test.fileCount + sets.other.fileCount

end FileSets

end LintSuite
