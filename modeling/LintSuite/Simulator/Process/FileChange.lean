import LintSuite.Simulator.Host.Change
import LintSuite.Simulator.Process.Input

/-!
# Changing files

The utilities that make, remove, move and copy files.  Each goes through its operands and reports
what the file system refuses; what can be done is done all the same.
-/

namespace LintSuite.Utility

open Host Text

/-- A text in quotes, as messages show names. -/
def quoted (text : String) : String := ShellQuoted.always text

/-- Doing something with one operand after another. -/
def onEach (operands : List String) (f : String → Process → Process) (p : Process) : Process :=
  operands.foldl (fun p operand => f operand p) (p.withStatus 0)

/-- A request to the file system, with what to say if it is refused and what if it is granted. -/
def attempt (request : Except IoError FileSystem) (refusal : String) (grant : Option String)
    (p : Process) : Process :=
  match request with
  | .ok files =>
    let p := { p with files }
    match grant with
    | some text => p.print (text ++ "\n")
    | none => p
  | .error e => p.failed (refusal ++ ": " ++ e.reason) 1

/-! ### Removing -/

/-- Whether a path ends in a dot or two. -/
def endsInDots (path : String) : Bool := lastName path = "." || lastName path = ".."

/-- What is below a node, the deepest first, with the kinds that messages name. -/
def removals (path : String) : Node → List String
  | .dir _ entries => removalsIn entries ++ ["removed directory " ++ quoted path]
  | _ => ["removed " ++ quoted path]
where
  /-- What is below the entries of a directory. -/
  removalsIn : Entries → List String
    | .none => []
    | .entry name node rest => removals (path ++ "/" ++ Octets.toText name) node ++ removalsIn rest

/-- Removing what is under a path. -/
def removeOne (a : Arguments) (path : String) (p : Process) : Process :=
  let deep := a.has 'r' || a.has 'R'
  let refusal := "cannot remove " ++ quoted path
  match p.files.locate (Octets.path path) with
  | .error e =>
    if a.has 'f' && (e = .notFound || e = .notDirectory) then p
    else p.failed (refusal ++ ": " ++ e.reason) 1
  | .ok (location, node) =>
    let said := if a.has 'v' then some (String.intercalate "\n" (removals path node)) else none
    match node with
    | .dir _ entries =>
      if deep then
        if endsInDots path then
          p.failed ("refusing to remove '.' or '..' directory: skipping " ++ quoted path) 1
        else if location.isEmpty then
          (p.failed ("it is dangerous to operate recursively on " ++ quoted path) 1).failed
            "use --no-preserve-root to override this failsafe" 1
        else attempt (p.files.removeTree (Octets.path path)) refusal said p
      else if a.has 'd' then
        match entries with
        | .none => attempt (p.files.removeDir (Octets.path path)) refusal said p
        | _ => p.failed (refusal ++ ": Directory not empty") 1
      else p.failed (refusal ++ ": Is a directory") 1
    | _ => attempt (p.files.remove (Octets.path path)) refusal said p

/-- Removing files. -/
def rm : Utility :=
  reading { flags := ['r', 'R', 'f', 'd', 'v', 'i', 'I']
            words := [("recursive", 'r'), ("force", 'f'), ("dir", 'd'), ("verbose", 'v')] } 1
    fun a p =>
      if a.operands.isEmpty then
        if a.has 'f' then p.withStatus 0 else p.misused "missing operand" 1
      else onEach a.operands (removeOne a) p

/-- Removing empty directories. -/
def rmdir : Utility :=
  reading { flags := ['p', 'v'], words := [("parents", 'p'), ("verbose", 'v')] } 1 fun a p =>
    if a.operands.isEmpty then p.misused "missing operand" 1
    else onEach a.operands (fun path p =>
      let paths := if a.has 'p' then
          ((Octets.path path).ancestors.map Octets.ofPath).filter fun t => !t.isEmpty && t != "/"
        else [path]
      (paths.foldl (fun (going, p) path =>
        if !going then (false, p)
        else match p.files.removeDir (Octets.path path) with
          | .ok files =>
            let p := { p with files }
            (true, if a.has 'v' then p.print ("rmdir: removing directory, " ++ quoted path ++ "\n")
              else p)
          | .error e =>
            (false, p.failed ("failed to remove " ++ quoted path ++ ": " ++ e.reason) 1))
        (true, p)).2) p

/-- Taking the name of a file away. -/
def unlink : Utility := fun arguments p =>
  match arguments with
  | [path] =>
    attempt (p.files.remove (Octets.path path)) ("cannot unlink " ++ quoted path) none (p.withStatus 0)
  | [] => p.misused "missing operand" 1
  | _ :: extra :: _ => p.misused ("extra operand " ++ ShellQuoted.plain extra) 1

/-! ### Making -/

/-- Making directories one after another, each of which lies in the one before. -/
def makeAll (verbose : Bool) : List String → Process → Process
  | [], p => p
  | path :: deeper, p =>
    let failed := fun (e : IoError) =>
      p.failed ("cannot create directory " ++ quoted path ++ ": " ++ e.reason) 1
    match p.files.makeDir (Octets.path path) with
    | .ok files =>
      let p := { p with files }
      makeAll verbose deeper
        (if verbose then p.print (p.name ++ ": created directory " ++ quoted path ++ "\n") else p)
    | .error .alreadyExists =>
      if p.files.isDir (Octets.path path) then makeAll verbose deeper p
      else failed (if deeper.isEmpty then .alreadyExists else .notDirectory)
    | .error e => if p.files.isDir (Octets.path path) then makeAll verbose deeper p else failed e

/-- Making directories. -/
def mkdir : Utility :=
  reading { flags := ['p', 'v'], valued := ['m']
            words := [("parents", 'p'), ("verbose", 'v'), ("mode", 'm')] } 1 fun a p =>
    if a.operands.isEmpty then p.misused "missing operand" 1
    else onEach a.operands (fun path p =>
      if a.has 'p' then
        let steps := ((Octets.path path).ancestors.map Octets.ofPath).filter (!·.isEmpty)
        makeAll (a.has 'v') steps.reverse p
      else attempt (p.files.makeDir (Octets.path path)) ("cannot create directory " ++ quoted path)
        (if a.has 'v' then some (p.name ++ ": created directory " ++ quoted path) else none) p) p

/-- Making files that are not there. -/
def touch : Utility :=
  reading { flags := ['a', 'c', 'f', 'h', 'm'], valued := ['d', 'r', 't']
            words := [("no-create", 'c'), ("date", 'd'), ("reference", 'r')] } 1 fun a p =>
    if a.operands.isEmpty then p.misused "missing file operand" 1
    else onEach a.operands (fun path p =>
      if p.files.exists? (Octets.path path) || a.has 'c' then p
      else attempt (p.files.write (Octets.path path) []) ("cannot touch " ++ quoted path) none p) p

/-! ### Moving and copying -/

/-- The path of a name in a directory. -/
def within (dir name : String) : String :=
  if dir.endsWith "/" then dir ++ name else dir ++ "/" ++ name

/-- Where files go: into a directory, or one to a path of its own. -/
inductive Destination where
  /-- Each of some files into a directory. -/
  | into (dir : String) (sources : List String)
  /-- A file to a path. -/
  | to (path source : String)

/-- The destination that operands name: the last of them, unless an option names a directory. -/
def destinationOf (a : Arguments) (p : Process) : Except String Destination :=
  let inPlace := a.has 'T'
  match a.value? 't' with
  | some dir =>
    if p.files.isDir (Octets.path dir) then .ok (.into dir a.operands)
    else .error ("target directory " ++ quoted dir ++ ": No such file or directory")
  | none =>
    match a.operands.reverse with
    | target :: source :: rest =>
      if !inPlace && p.files.isDir (Octets.path target) then .ok (.into target (source :: rest).reverse)
      else if rest.isEmpty then .ok (.to target source)
      else .error ("target " ++ quoted target ++ ": " ++
        if p.files.exists? (Octets.path target) then "Not a directory" else "No such file or directory")
    | _ => .error ""

/-- Bringing files to where they belong. -/
def bring (one : String → String → Process → Process) (a : Arguments) (p : Process) : Process :=
  match a.operands, a.has 't' with
  | [], _ => p.misused "missing file operand" 1
  | [only], false => p.misused ("missing destination file operand after " ++ quoted only) 1
  | _, _ =>
    match destinationOf a p with
    | .error text => p.failed text 1
    | .ok (.into dir sources) =>
      onEach sources (fun source => one source (within dir (lastName source))) p
    | .ok (.to target source) => one source target (p.withStatus 0)

/-- Whether two paths lead to one node. -/
def areSame (fs : FileSystem) (a b : String) : Bool :=
  match fs.locate (Octets.path a), fs.locate (Octets.path b) with
  | .ok (l, _), .ok (m, _) => l == m
  | _, _ => false

/-- What kind of node is where something is to go. -/
def kindAt (fs : FileSystem) (path : String) : Option Bool :=
  match fs.findSelf (Octets.path path) with
  | .ok (.dir _ _) => some true
  | .ok _ => some false
  | .error _ => none

/-- Moving a file. -/
def moveOne (a : Arguments) (source target : String) (p : Process) : Process :=
  match p.files.locate (Octets.path source) with
  | .error e => p.failed ("cannot stat " ++ quoted source ++ ": " ++ e.reason) 1
  | .ok (location, node) =>
    let isDir := match node with
      | .dir _ _ => true
      | _ => false
    let old := kindAt p.files target
    let inside := match p.files.look .entry (Octets.path target) with
      | .ok (.found l _) => location.isPrefixOf l && location != l
      | .ok (.free l _) => location.isPrefixOf l
      | .error _ => false
    if a.has 'n' && old.isSome then p
    else if areSame p.files source target then
      p.failed (quoted source ++ " and " ++ quoted target ++ " are the same file") 1
    else if isDir && inside then
      p.failed ("cannot move " ++ quoted source ++ " to a subdirectory of itself, " ++
        quoted target) 1
    else if isDir && old = some false then
      p.failed ("cannot overwrite non-directory " ++ quoted target ++ " with directory " ++
        quoted source) 1
    else if !isDir && old = some true then
      p.failed ("cannot overwrite directory " ++ quoted target ++ " with non-directory") 1
    else if !isDir && FileSystem.endsInSlash (Octets.path target) then
      p.failed ("cannot move " ++ quoted source ++ " to " ++ quoted target ++ ": Not a directory") 1
    else
      attempt (p.files.rename (Octets.path source) (Octets.path target))
        ("cannot move " ++ quoted source ++ " to " ++ quoted target)
        (if a.has 'v' then some ("renamed " ++ quoted source ++ " -> " ++ quoted target)
          else none) p

/-- Moving files. -/
def mv : Utility :=
  reading { flags := ['f', 'i', 'n', 'v', 'T', 'u'], valued := ['t']
            words := [("force", 'f'), ("no-clobber", 'n'), ("verbose", 'v'),
              ("target-directory", 't'), ("no-target-directory", 'T')] } 1
    fun a => bring (moveOne a) a

mutual

/-- A node with what another one holds put into it. -/
def merged (new : Node) : Option Node → Node
  | some (.dir access entries) =>
    match new with
    | .dir _ more => .dir access (mergedEntries more entries)
    | _ => new
  | some (.file access _) =>
    match new with
    | .file _ content => .file access content
    | _ => new
  | _ => new

/-- Entries of a directory with others put among them. -/
def mergedEntries : Entries → Entries → Entries
  | .none, entries => entries
  | .entry name node rest, entries =>
    mergedEntries rest (entries.put name (merged node (entries.find? name)))

end

/-- Copying a file. -/
def copyOne (a : Arguments) (source target : String) (p : Process) : Process :=
  let deep := a.has 'r' || a.has 'R' || a.has 'a'
  let linked := !(a.has 'P' || a.has 'd' || deep) || a.has 'L'
  let found :=
    if linked then p.files.find (Octets.path source) else p.files.locate (Octets.path source)
  match found with
  | .error e => p.failed ("cannot stat " ++ quoted source ++ ": " ++ e.reason) 1
  | .ok (location, node) =>
    let said := if a.has 'v' then some (quoted source ++ " -> " ++ quoted target) else none
    let place := p.files.look .target (Octets.path target)
    let inside := match place with
      | .ok (.found l _) => location.isPrefixOf l
      | .ok (.free l _) => location.isPrefixOf l
      | .error _ => false
    let same := match place with
      | .ok (.found l _) => l == location
      | _ => false
    match node with
    | .dir _ _ =>
      if !deep then p.failed ("-r not specified; omitting directory " ++ quoted source) 1
      else if inside then
        p.failed ("cannot copy a directory, " ++ quoted source ++ ", into itself, " ++
          quoted target) 1
      else match place with
        | .ok (.found l old) =>
          match old with
          | .dir _ _ =>
            attempt (.ok { p.files with root := p.files.root.set (merged node (some old)) l }) ""
              said p
          | _ =>
            p.failed ("cannot overwrite non-directory " ++ quoted target ++ " with directory " ++
              quoted source) 1
        | .ok (.free parent name) =>
          attempt (p.files.create parent name node)
            ("cannot create directory " ++ quoted target) said p
        | .error _ =>
          attempt (p.files.placeNew (Octets.path target) node)
            ("cannot create directory " ++ quoted target)
            said p
    | .link text =>
      let files := if a.has 'f' || deep then (p.files.remove (Octets.path target)).toOption.getD p.files
        else p.files
      attempt (files.placeNew (Octets.path target) (.link text))
        ("cannot create symbolic link " ++ quoted target) said p
    | _ =>
      if same then
        p.failed (quoted source ++ " and " ++ quoted target ++ " are the same file") 1
      else if a.has 'n' && p.files.exists? (Octets.path target) then p
      else match p.files.read (Octets.path source) with
        | .error e => p.failed ("cannot open " ++ quoted source ++ " for reading: " ++ e.reason) 1
        | .ok content =>
          if kindAt p.files target = some true then
            p.failed ("cannot overwrite directory " ++ quoted target ++ " with non-directory") 1
          else if FileSystem.endsInSlash (Octets.path target) then
            p.failed ("cannot create regular file " ++ quoted target ++ ": Not a directory") 1
          else
            let fresh := !p.files.exists? (Octets.path target)
            let executable := match node with
              | .file access _ => access.execute
              | _ => false
            let request := do
              let files ← p.files.write (Octets.path target) content
              if fresh then files.setExecutable (Octets.path target) executable else .ok files
            attempt request ("cannot create regular file " ++ quoted target) said p

/-- Copying files. -/
def cp : Utility :=
  reading { flags := ['r', 'R', 'a', 'f', 'i', 'n', 'v', 'p', 'P', 'L', 'd', 'T', 'u', 'H']
            valued := ['t']
            words := [("recursive", 'r'), ("archive", 'a'), ("force", 'f'), ("no-clobber", 'n'),
              ("verbose", 'v'), ("no-dereference", 'P'), ("dereference", 'L'),
              ("target-directory", 't'), ("no-target-directory", 'T')] } 1
    fun a => bring (copyOne a) a

/-- Linking a path to a file. -/
def linkOne (a : Arguments) (source target : String) (p : Process) : Process :=
  let soft := a.has 's'
  let kind := if soft then "symbolic link " else "hard link "
  let said := if a.has 'v' then
      some (quoted target ++ (if soft then " -> " else " => ") ++ quoted source)
    else none
  let replace := fun (files : FileSystem) =>
    if a.has 'f' then
      match files.locate (Octets.path target) with
      | .ok (_, .dir _ _) => files
      | _ => (files.remove (Octets.path target)).toOption.getD files
    else files
  if soft then
    attempt ((replace p.files).placeNew (Octets.path target) (.link (Octets.ofString source)))
      ("failed to create " ++ kind ++ quoted target) said p
  else match p.files.locate (Octets.path source) with
    | .error e => p.failed ("failed to access " ++ quoted source ++ ": " ++ e.reason) 1
    | .ok (_, .dir _ _) => p.failed (ShellQuoted.asNeeded source ++ ": hard link not allowed for directory") 1
    | .ok (_, node) =>
      attempt ((replace p.files).placeNew (Octets.path target) node)
        ("failed to create " ++ kind ++ quoted target) said p

/-- Linking files. -/
def ln : Utility :=
  reading { flags := ['s', 'f', 'n', 'v', 'T', 'i', 'P', 'L', 'r'], valued := ['t']
            words := [("symbolic", 's'), ("force", 'f'), ("no-dereference", 'n'),
              ("verbose", 'v'), ("target-directory", 't'), ("no-target-directory", 'T')] } 1
    fun a p =>
      let isPlainLink := fun (path : String) => match p.files.findSelf (Octets.path path) with
        | .ok (.link _) => a.has 'n'
        | _ => false
      match a.operands, a.has 't' with
      | [], _ => p.misused "missing file operand" 1
      | [only], false => linkOne a only ("./" ++ lastName only) (p.withStatus 0)
      | [source, target], false =>
        if a.has 'T' || isPlainLink target || !p.files.isDir (Octets.path target) then
          linkOne a source target (p.withStatus 0)
        else linkOne a source (within target (lastName source)) (p.withStatus 0)
      | _, _ => bring (linkOne a) a p

/-! ### Rights -/

/-- Whether a file may be executed after a clause of a mode, or nothing if it is none. -/
def afterClause (isDir : Bool) (old : Bool) (clause : List Char) : Option Bool :=
  let who := clause.takeWhile ['u', 'g', 'o', 'a'].contains
  let everyone := who.isEmpty || who.contains 'a' || ['u', 'g', 'o'].all who.contains
  let rec apply : Nat → Bool → List Char → Option Bool
    | 0, b, _ => some b
    | _ + 1, b, [] => some b
    | steps + 1, b, operator :: rest =>
      let letters := rest.takeWhile ['r', 'w', 'x', 'X', 's', 't', 'u', 'g', 'o'].contains
      let given := letters.contains 'x' || (letters.contains 'X' && (isDir || b))
      let more := rest.drop letters.length
      match operator with
      | '+' => apply steps (b || given) more
      | '-' => apply steps (if given && everyone then false else b) more
      | '=' => apply steps (if everyone then given else b || given) more
      | _ => none
  let rest := clause.drop who.length
  if rest.isEmpty then none else apply rest.length old rest

/-- Whether a file may be executed after a mode, or nothing if the text is no mode. -/
def afterMode (mode : String) (isDir old : Bool) : Option Bool :=
  let cs := mode.toList
  if !cs.isEmpty && cs.all Char.isDigit then
    if cs.all Printf.isOctal && Printf.octal cs < 4096 + 4096 then
      some ((Printf.octal cs) &&& 0o111 != 0)
    else none
  else (mode.splitOn ",").foldl (fun (b : Option Bool) clause =>
    b.bind fun b => afterClause isDir b clause.toList) (some old)

/-- Changing the rights to the files at and below a location. -/
def changeMode (mode : String) (deep : Bool) : Node → Node
  | .file access content =>
    let execute := (afterMode mode false access.execute).getD access.execute
    .file { access with execute } content
  | .dir access entries => .dir access (if deep then changeEntries entries else entries)
  | other => other
where
  /-- Changing the rights to the files that entries of a directory lead to. -/
  changeEntries : Entries → Entries
    | .none => .none
    | .entry name node rest => .entry name (changeMode mode deep node) (changeEntries rest)

/-- The characters of a mode that begins with a dash. -/
def modeLetters : List Char := ['r', 'w', 'x', 'X', 's', 't', 'u', 'g', 'o', ',', '+', '=', '-']

/-- The mode among arguments, which may begin with a dash, and the other arguments. -/
def modeOf (arguments : List String) : Option String × List String :=
  let isMode := fun (a : String) => match a.toList with
    | '-' :: c :: cs => (c :: cs).all modeLetters.contains
    | _ => false
  match arguments.find? isMode with
  | some mode => (some mode, arguments.filter (· != mode))
  | none => (none, arguments)

/-- Changing rights.  Of all rights only that to execute a file makes a difference. -/
def chmod : Utility := fun arguments =>
  let (mode?, arguments) := modeOf arguments
  reading { flags := ['R', 'v', 'f', 'c']
            words := [("recursive", 'R'), ("verbose", 'v'), ("silent", 'f')] } 1 (fun a p =>
    let operands := mode?.toList ++ a.operands
    match operands with
    | [] => p.misused "missing operand" 1
    | [only] => p.misused ("missing operand after " ++ quoted only) 1
    | mode :: files =>
      if (afterMode mode false false).isNone then p.misused ("invalid mode: " ++ ShellQuoted.plain mode) 1
      else onEach files (fun file p =>
        match p.files.find (Octets.path file) with
        | .ok (location, node) =>
          { p with files.root := p.files.root.set (changeMode mode (a.has 'R') node) location }
        | .error e =>
          if a.has 'f' then p.withStatus 1
          else p.failed ("cannot access " ++ quoted file ++ ": " ++ e.reason) 1) p) arguments

end LintSuite.Utility
