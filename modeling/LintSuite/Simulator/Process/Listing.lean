import LintSuite.Simulator.Process.FileChange
import LintSuite.Simulator.Shell.Glob

/-!
# Listing files

`ls` prints the names in directories, `find` the paths below them that pass a test, and `readlink`
and `realpath` where links lead.
-/

namespace LintSuite.Utility

open Host Text Shell

/-! ### Names in directories -/

/-- The mark that tells the kind of a node, behind its name. -/
def kindMark (a : Arguments) : Node → String
  | .dir _ _ => if a.has 'F' || a.has 'p' then "/" else ""
  | .link _ => if a.has 'F' then "@" else ""
  | .file access _ => if a.has 'F' && access.execute then "*" else ""
  | .device _ => ""

/-- Names in order. -/
def ordered (a : Arguments) (entries : List (String × Node)) : List (String × Node) :=
  let sorted := entries.mergeSort fun x y =>
    Octets.le (Octets.ofString x.1) (Octets.ofString y.1)
  if a.has 'r' then sorted.reverse else sorted

/-- Names as they are printed. -/
def nameLines (a : Arguments) (entries : List (String × Node)) : String :=
  let names := entries.map fun e => e.1 ++ kindMark a e.2
  if a.has 'm' then
    if names.isEmpty then "" else String.intercalate ", " names ++ "\n"
  else String.join (names.map (· ++ "\n"))

/-- The entries of a directory that are shown. -/
def shownEntries (a : Arguments) (node : Node) : List (String × Node) :=
  match node with
  | .dir _ entries =>
    let all := if a.has 'a' then
        [(".", Node.emptyDir), ("..", Node.emptyDir)] ++ Octets.named entries
      else if a.has 'A' then Octets.named entries
      else (Octets.named entries).filter (!·.1.startsWith ".")
    ordered a all
  | _ => []

/-- The listings of a directory and, if they are wanted, of the directories below it, on a number
of levels. -/
def listings (a : Arguments) (path : String) : Nat → Node → List (String × String)
  | 0, _ => []
  | levels + 1, node =>
    let shown := shownEntries a node
    (path, nameLines a shown) ::
      if a.has 'R' then shown.flatMap fun (name, below) =>
        match below with
        | .dir _ _ =>
          if name = "." || name = ".." then []
          else listings a (within path name) levels below
        | _ => []
      else []

/-- How deep a directory may be listed. -/
def listingDepth : Nat := 256

/-- Listing files and directories. -/
def ls : Utility :=
  reading { flags := ['1', 'a', 'A', 'd', 'F', 'p', 'R', 'r', 'm', 'l', 's', 'S', 't', 'C', 'x',
              'h', 'i', 'n', 'g', 'o', 'U', 'L', 'H', 'q', 'b', 'N', 'u', 'c', 'X', 'v']
            words := [("all", 'a'), ("almost-all", 'A'), ("directory", 'd'), ("classify", 'F'),
              ("recursive", 'R'), ("reverse", 'r')] } 2 fun a p =>
    let operands := if a.operands.isEmpty then ["."] else a.operands
    let follows := !(a.has 'd' || a.has 'F' || a.has 'l')
    let (p, found) := operands.foldl (fun (p, found) path =>
      let node := if follows then
          match p.files.find (Octets.path path) with
          | .ok (_, node) => Except.ok node
          | .error _ => p.files.findSelf (Octets.path path)
        else p.files.findSelf (Octets.path path)
      match node with
      | .ok node => (p, (path, node) :: found)
      | .error e => (p.failed ("cannot access " ++ quoted path ++ ": " ++ e.reason) 2, found))
      (p.withStatus 0, ([] : List (String × Node)))
    let isDir := fun (e : String × Node) => match e.2 with
      | .dir _ _ => !a.has 'd'
      | _ => false
    let found := ordered a found.reverse
    let files := found.filter (!isDir ·)
    let lists := (found.filter isDir).flatMap fun (path, node) => listings a path listingDepth node
    let headed := operands.length > 1 || a.has 'R'
    let blocks := (if files.isEmpty then [] else [nameLines a files]) ++
      lists.map fun (path, text) => if headed then path ++ ":\n" ++ text else text
    p.print (String.intercalate "\n" blocks)

/-! ### Where links lead -/

/-- The path of a location. -/
def pathOf (location : Location) : String :=
  if location.isEmpty then "/" else String.join (location.map ("/" ++ Octets.toText ·))

/-- The path without links that another path means; the last name need not be there. -/
def canonical (fs : FileSystem) (path : String) : Except IoError String :=
  match fs.look .target (Octets.path path) with
  | .ok (.found location _) => .ok (pathOf location)
  | .ok (.free parent name) => .ok (pathOf (parent ++ [name]))
  | .error e => .error e

/-- Printing what links say, or the paths that they mean in the end. -/
def readlink : Utility :=
  reading { flags := ['f', 'e', 'm', 'n', 'q', 's', 'v', 'z']
            words := [("canonicalize", 'f'), ("no-newline", 'n'), ("verbose", 'v')] } 1 fun a p =>
    if a.operands.isEmpty then p.misused "missing operand" 1
    else
      let ending := if a.has 'n' && a.operands.length = 1 then "" else "\n"
      onEach a.operands (fun path p =>
        if a.has 'f' || a.has 'e' || a.has 'm' then
          match canonical p.files path with
          | .ok text => p.print (text ++ ending)
          | .error _ => p.withStatus 1
        else match p.files.findSelf (Octets.path path) with
          | .ok (.link target) => p.print (Octets.toText target ++ ending)
          | _ => p.withStatus 1) p

/-- Printing the paths that others mean. -/
def realpath : Utility :=
  reading { flags := ['e', 'm', 'q', 's', 'z', 'L', 'P'] } 1 fun a p =>
    if a.operands.isEmpty then p.misused "missing operand" 1
    else onEach a.operands (fun path p =>
      match canonical p.files path with
      | .ok text => p.print (text ++ "\n")
      | .error e => if a.has 'q' then p.withStatus 1 else p.failed (ShellQuoted.asNeeded path ++ ": " ++ e.reason) 1) p

/-! ### Finding -/

/-- A test of a file that is found, or something done with it. -/
inductive FindTest where
  /-- Nothing is asked. -/
  | always
  /-- Its name fits a pattern, in which case may not matter. -/
  | name (pattern : String) (caseless : Bool)
  /-- Its path fits a pattern. -/
  | path (pattern : String)
  /-- It is of a kind. -/
  | kind (letter : Char)
  /-- It is a file or a directory with nothing in it. -/
  | empty
  /-- It is printed, with something behind it. -/
  | print (ending : String)
  /-- It is removed. -/
  | delete
  /-- What is below it is passed over. -/
  | prune
  /-- A test fails. -/
  | not (t : FindTest)
  /-- Two tests pass. -/
  | both (s t : FindTest)
  /-- One of two tests passes. -/
  | either (s t : FindTest)
  deriving DecidableEq, Repr

namespace FindTest

/-- Whether files are printed or removed by a test. -/
def acts : FindTest → Bool
  | .print _ => true
  | .delete => true
  | .not t => acts t
  | .both s t => acts s || acts t
  | .either s t => acts s || acts t
  | _ => false

/-- Whether files are removed by a test. -/
def deletes : FindTest → Bool
  | .delete => true
  | .not t => deletes t
  | .both s t => deletes s || deletes t
  | .either s t => deletes s || deletes t
  | _ => false

/-- Whether a text fits a pattern as a whole. -/
def fits (pattern text : String) (caseless : Bool) : Bool :=
  let fold := fun (s : String) => if caseless then s.toLower else s
  Glob.fits (Glob.items ((fold pattern).toList.map (·, true))) (fold text).toList

/-- What a test finds, with what it prints, removes and passes over. -/
structure Outcome where
  /-- Whether it passes. -/
  passes : Bool
  /-- What is printed. -/
  printed : String := ""
  /-- Whether the file is removed. -/
  removed : Bool := false
  /-- Whether what is below is passed over. -/
  pruned : Bool := false

/-- The outcome of two tests, of which the second decides. -/
def Outcome.andThen (a b : Outcome) : Outcome :=
  ⟨b.passes, a.printed ++ b.printed, a.removed || b.removed, a.pruned || b.pruned⟩

/-- Running a test on a file. -/
def run (path : String) (node : Node) : FindTest → Outcome
  | .always => { passes := true }
  | .name pattern caseless => { passes := fits pattern (lastName path) caseless }
  | .path pattern => { passes := fits pattern path false }
  | .kind letter =>
    { passes := match node with
        | .file _ _ => letter == 'f'
        | .dir _ _ => letter == 'd'
        | .link _ => letter == 'l'
        | .device _ => letter == 'c' }
  | .empty =>
    { passes := match node with
        | .file _ content => content.isEmpty
        | .dir _ entries => entries.toList.isEmpty
        | _ => false }
  | .print ending => { passes := true, printed := path ++ ending }
  | .delete => { passes := true, removed := true }
  | .prune => { passes := true, pruned := true }
  | .not t =>
    let o := run path node t
    { o with passes := !o.passes }
  | .both s t =>
    let o := run path node s
    if o.passes then o.andThen (run path node t) else o
  | .either s t =>
    let o := run path node s
    if o.passes then o else o.andThen (run path node t)

end FindTest

/-- What is asked of files that are looked for. -/
structure FindQuery where
  /-- The test. -/
  test : FindTest := .always
  /-- The least depth that counts. -/
  least : Nat := 0
  /-- The greatest depth that counts. -/
  most : Option Nat := none
  /-- Whether directories come behind what is in them. -/
  deep : Bool := false

/-- What two queries ask together, their tests aside. -/
def joined (q r : FindQuery) : FindQuery :=
  { least := max q.least r.least, most := r.most <|> q.most, deep := q.deep || r.deep }

mutual

/-- A choice between tests, and the words that follow it. -/
def readTests : Nat → List String → Except String (FindTest × FindQuery × List String)
  | 0, _ => .error "invalid expression"
  | steps + 1, words => do
    let (t, q, rest) ← readTestRow steps words
    match rest with
    | "-o" :: rest | "-or" :: rest =>
      let (u, r, rest) ← readTests steps rest
      .ok (.either t u, joined q r, rest)
    | _ => .ok (t, q, rest)

/-- Tests of which all must pass, and the words that follow them. -/
def readTestRow : Nat → List String → Except String (FindTest × FindQuery × List String)
  | 0, _ => .error "invalid expression"
  | steps + 1, words => do
    let (t, q, rest) ← readTest steps words
    match rest with
    | [] => .ok (t, q, rest)
    | "-o" :: _ | "-or" :: _ | ")" :: _ => .ok (t, q, rest)
    | "-a" :: rest | "-and" :: rest =>
      let (u, r, rest) ← readTestRow steps rest
      .ok (.both t u, joined q r, rest)
    | _ =>
      let (u, r, rest) ← readTestRow steps rest
      .ok (.both t u, joined q r, rest)

/-- One test, and the words that follow it. -/
def readTest : Nat → List String → Except String (FindTest × FindQuery × List String)
  | 0, _ => .error "invalid expression"
  | _ + 1, [] => .error "invalid expression"
  | steps + 1, word :: rest => do
    let valued := fun (f : String → Except String (FindTest × FindQuery)) =>
      match rest with
      | value :: rest => do
        let (t, q) ← f value
        Except.ok (t, q, rest)
      | [] => .error ("missing argument to \x60" ++ word ++ "'")
    let number := fun (f : Nat → FindQuery) => valued fun value =>
      match Numeral.digits? value with
      | some n => .ok (.always, f n)
      | none => .error ("Expected a positive decimal integer argument to " ++ word ++
          ", but got " ++ ShellQuoted.plain value)
    match word with
    | "(" =>
      let (t, q, rest) ← readTests steps rest
      match rest with
      | ")" :: rest => .ok (t, q, rest)
      | _ =>
        .error ("invalid expression; I was expecting to find a ')' somewhere " ++
          "but did not see one.")
    | "!" | "-not" =>
      let (t, q, rest) ← readTest steps rest
      .ok (.not t, q, rest)
    | "-name" => valued fun v => .ok (.name v false, {})
    | "-iname" => valued fun v => .ok (.name v true, {})
    | "-path" | "-wholename" => valued fun v => .ok (.path v, {})
    | "-type" => valued fun v =>
        match v.toList with
        | [c] =>
          if ['f', 'd', 'l', 'c', 'b', 'p', 's'].contains c then .ok (.kind c, {})
          else .error ("Unknown argument to -type: " ++ v)
        | _ => .error ("Unknown argument to -type: " ++ v)
    | "-maxdepth" => number fun n => { most := some n }
    | "-mindepth" => number fun n => { least := n }
    | "-depth" | "-d" => .ok (.always, { deep := true }, rest)
    | "-empty" => .ok (.empty, {}, rest)
    | "-print" => .ok (.print "\n", {}, rest)
    | "-print0" => .ok (.print "\x00", {}, rest)
    | "-delete" => .ok (.delete, { deep := true }, rest)
    | "-prune" => .ok (.prune, {}, rest)
    | "-true" => .ok (.always, {}, rest)
    | "-false" => .ok (.not .always, {}, rest)
    | _ => .error ("unknown predicate \x60" ++ word ++ "'")

end

/-- What is printed and removed at and below a path, on a number of levels. -/
def findBelow (q : FindQuery) (path : String) (depth : Nat) : Nat → Node → String × List String
  | 0, _ => ("", [])
  | levels + 1, node =>
    let o := if depth < q.least then { passes := false } else q.test.run path node
    let self := (o.printed, if o.removed then [path] else [])
    let below := match node with
      | .dir _ entries =>
        if (o.pruned && !q.deep) || q.most.any (· ≤ depth) then []
        else (Octets.named entries).map fun (name, n) =>
          findBelow q (within path name) (depth + 1) levels n
      | _ => []
    let printed := String.join (below.map (·.1))
    let removed := below.flatMap (·.2)
    if q.deep then (printed ++ self.1, removed ++ self.2)
    else (self.1 ++ printed, self.2 ++ removed)

/-- Finding files. -/
def find : Utility := fun arguments p =>
  let isPath := fun (a : String) => !(a.startsWith "-" || a = "(" || a = "!")
  let paths := arguments.takeWhile isPath
  let words := arguments.drop paths.length
  let query : Except String FindQuery :=
    if words.isEmpty then .ok { test := .print "\n" }
    else match readTests (8 * words.length + 8) words with
      | .error e => .error e
      | .ok (test, q, []) =>
        .ok { q with test := if test.acts then test else .both test (.print "\n") }
      | .ok (_, _, ")" :: _) => .error "you have too many ')'"
      | .ok _ => .error "paths must precede expression"
  match query with
  | .error text => p.failed text 1
  | .ok q =>
    onEach (if paths.isEmpty then ["."] else paths) (fun path p =>
      match p.files.findSelf (Octets.path path) with
      | .error e => p.failed (ShellQuoted.plain path ++ ": " ++ e.reason) 1
      | .ok _ =>
        let node := match p.files.locate (Octets.path path) with
          | .ok (_, node) => node
          | .error _ => Node.emptyDir
        let (printed, removed) := findBelow q path 0 listingDepth node
        let p := p.print printed
        removed.foldl (fun p path =>
          let request := if p.files.isDir (Octets.path path) && kindAt p.files path = some true
            then p.files.removeDir (Octets.path path) else p.files.remove (Octets.path path)
          attempt request ("cannot delete " ++ ShellQuoted.plain path) none p) p) p

end LintSuite.Utility
