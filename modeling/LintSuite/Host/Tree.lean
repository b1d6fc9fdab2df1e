import LintSuite.Text.Raw

/-!
# Directory trees

A node of the file system is a file, a device, a symbolic link or a directory; a directory holds
named nodes in the order in which it hands them out.  A node is found by its *location*, the names
that lead to it from the root, and no link is followed on the way: links are the business of path
lookup.
-/

namespace LintSuite.Host

open LintSuite

/-- What may be done with a file or a directory.  For a directory, executing is passing through. -/
structure Access where
  /-- Whether it may be read. -/
  read : Bool := true
  /-- Whether it may be written. -/
  write : Bool := true
  /-- Whether it may be executed. -/
  execute : Bool := false
  deriving DecidableEq, Repr

/-- The access to a file as it is created. -/
def Access.ofFile : Access := {}

/-- The access to a directory, or a program, as it is created. -/
def Access.full : Access := ⟨true, true, true⟩

/-- What may stand in the place of a file. -/
inductive Device where
  /-- It swallows everything and holds nothing. -/
  | null
  /-- It swallows everything and holds zeros without end. -/
  | zero
  /-- It holds zeros without end and takes nothing. -/
  | full
  /-- Whatever a descriptor of the process at hand leads to. -/
  | descriptor (n : Nat)
  deriving DecidableEq, Repr

mutual

/-- **A node** of the file system. -/
inductive Node where
  /-- A file and its bytes. -/
  | file (access : Access) (content : List UInt8)
  /-- A device. -/
  | device (d : Device)
  /-- A symbolic link and the path it stands for. -/
  | link (target : RawText)
  /-- A directory. -/
  | dir (access : Access) (entries : Entries)

/-- The named nodes of a directory, in the order in which they are handed out. -/
inductive Entries where
  /-- No more entries. -/
  | none
  /-- An entry, and those after it. -/
  | entry (name : RawText) (node : Node) (rest : Entries)

end

/-- The names that lead to a node from the root directory. -/
abbrev Location := List RawText

namespace Entries

/-- The node under a name. -/
def find? (name : RawText) : Entries → Option Node
  | .none => Option.none
  | .entry n node rest => if n = name then some node else rest.find? name

/-- The entries with one more node, in place of the one under its name or at the end. -/
def put (name : RawText) (node : Node) : Entries → Entries
  | .none => .entry name node .none
  | .entry n old rest => if n = name then .entry n node rest else .entry n old (put name node rest)

/-- The entries without the one under a name. -/
def erase (name : RawText) : Entries → Entries
  | .none => .none
  | .entry n node rest => if n = name then rest else .entry n node (rest.erase name)

/-- The entries as pairs. -/
def toList : Entries → List (RawText × Node)
  | .none => []
  | .entry name node rest => (name, node) :: rest.toList

/-- The entries with the given pairs. -/
def ofList : List (RawText × Node) → Entries
  | [] => .none
  | (name, node) :: rest => .entry name node (ofList rest)

@[simp] theorem toList_ofList (entries : List (RawText × Node)) :
    (ofList entries).toList = entries := by
  induction entries with
  | nil => rfl
  | cons e rest ih => simp [ofList, toList, ih]

/-- What was put under a name is found there. -/
theorem find?_put_self (name : RawText) (node : Node) :
    (entries : Entries) → (entries.put name node).find? name = some node
  | .none => by simp [put, find?]
  | .entry n old rest => by
    by_cases h : n = name
    · simp [put, find?, h]
    · simp [put, find?, h, find?_put_self name node rest]

end Entries

namespace Node

/-- A directory without entries. -/
def emptyDir : Node := .dir .full .none

/-- The node at a location below this one. -/
def get? (node : Node) : Location → Option Node
  | [] => some node
  | name :: rest =>
    match node with
    | .dir _ entries => (entries.find? name).bind (·.get? rest)
    | _ => none

/-- The tree with another node at a location.  Directories that lack on the way are made; where a
file or a link stands in the way, nothing changes. -/
def set (node : Node) (new : Node) : Location → Node
  | [] => new
  | name :: rest =>
    match node with
    | .dir access entries =>
      .dir access (entries.put name (((entries.find? name).getD emptyDir).set new rest))
    | other => other

/-- The tree without the node at a location. -/
def erase (node : Node) : Location → Node
  | [] => node
  | [name] =>
    match node with
    | .dir access entries => .dir access (entries.erase name)
    | other => other
  | name :: rest =>
    match node with
    | .dir access entries =>
      match entries.find? name with
      | some below => .dir access (entries.put name (below.erase rest))
      | none => node
    | other => other

end Node

end LintSuite.Host
