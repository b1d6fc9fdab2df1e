import LintSuite.Simulator.Process.EditScript

/-!
# Editing lines

`sed` runs a script on one line after another.  The line at hand stands in the *pattern space*,
beside which there is a place to keep text.  A cycle reads a line, runs the commands that select it,
and prints what has become of it; the commands may drop the line, read on, or end (`Edit.Fate`).
-/

namespace LintSuite

open Host Text

/-- What does not change while lines are edited. -/
structure Edit.Setting where
  /-- The commands. -/
  script : Array EditCommand
  /-- Whether lines are only printed where a command says so. -/
  quiet : Bool
  /-- The name of what is edited. -/
  file : String

/-- **Lines being edited.** -/
structure Edit where
  /-- The line at hand. -/
  space : List Char := []
  /-- What is kept. -/
  hold : List Char := []
  /-- The number of the line. -/
  number : Nat := 0
  /-- The lines that follow. -/
  rest : List (List Char)
  /-- Whether the last line ends in a line feed. -/
  complete : Bool := true
  /-- What was printed, the latest first. -/
  printed : List (List Char) := []
  /-- Whether what was printed last lacks its line feed. -/
  lacking : Bool := false
  /-- What is printed behind the line, the latest first. -/
  queue : List (List Char) := []
  /-- The commands inside of whose ranges the line stands, with the last number of the range if it
  is known. -/
  ranges : List (Nat × Option Nat) := []
  /-- Whether something was replaced. -/
  replaced : Bool := false
  /-- The pattern that was used last. -/
  used : Option Regex := none
  /-- The files. -/
  files : FileSystem

namespace Edit

/-- How a cycle ends. -/
inductive Fate where
  /-- The line is printed, and the next one is read. -/
  | done
  /-- The line is dropped. -/
  | dropped
  /-- A part of the line is dropped, and the cycle starts again with the rest. -/
  | again
  /-- There is no other cycle; the line is printed or not. -/
  | finished (printed : Bool) (status : Nat)
  /-- It does not end. -/
  | endless
  deriving DecidableEq, Repr

/-! ### Printing -/

/-- Printing characters, behind a line feed that lacks. -/
def put (e : Edit) (cs : List Char) : Edit :=
  { e with printed := (if e.lacking then '\n' :: cs else cs) :: e.printed, lacking := false }

/-- Whether the line at hand ends in a line feed. -/
def isTerminated (e : Edit) : Bool := !e.rest.isEmpty || e.complete

/-- Printing a line; the last one has a line feed only if it had one. -/
def putLine (e : Edit) (cs : List Char) : Edit :=
  if e.isTerminated then e.put (cs ++ ['\n']) else { e.put cs with lacking := true }

/-- Printing what was to be printed behind the line. -/
def flush (e : Edit) : Edit :=
  let printed := e.queue.reverse.foldl (fun e text => if text.isEmpty then e else e.put text) e
  { printed with queue := [] }

/-- Writing to a file at its end. -/
def writeTo (e : Edit) (name : String) (cs : List Char) : Edit :=
  if name = "/dev/stdout" then e.put cs
  else
    let before := (e.files.read (Octets.path name)).toOption.getD []
    match e.files.write (Octets.path name) (before ++ Octets.ofChars cs) with
    | .ok files => { e with files }
    | .error _ => e

/-- A character as it is made visible. -/
def visibleChar (c : Char) : List Char :=
  match c with
  | '\\' => ['\\', '\\']
  | '\x07' => ['\\', 'a']
  | '\x08' => ['\\', 'b']
  | '\x0c' => ['\\', 'f']
  | '\n' => ['\\', 'n']
  | '\x0d' => ['\\', 'r']
  | '\t' => ['\\', 't']
  | '\x0b' => ['\\', 'v']
  | _ =>
    if ' ' ≤ c && c ≤ '~' then [c]
    else '\\' :: [c.toNat / 64, c.toNat / 8 % 8, c.toNat % 8].map fun d => Char.ofNat (48 + d)

/-- Pieces in lines of a width, each but the last with a backslash at its end. -/
def wrapped (width : Nat) : Nat → List (List Char) → List Char
  | _, [] => ['$', '\n']
  | used, piece :: rest =>
    if width < used + piece.length then '\\' :: '\n' :: piece ++ wrapped width piece.length rest
    else piece ++ wrapped width (used + piece.length) rest

/-! ### Selecting -/

/-- Whether an address selects the line. -/
def isAt (e : Edit) : EditAddress → Bool × Edit
  | .line n => (e.number == n, e)
  | .step first distance => (first ≤ e.number && (e.number - first) % distance == 0, e)
  | .last => (e.rest.isEmpty, e)
  | .fits p caseless =>
    match p <|> e.used with
    | some p => (p.occurs ⟨e.space.toArray, caseless⟩, { e with used := some p })
    | none => (false, e)

/-- The last number of a range that starts at the line, if it is known, or nothing if the range is
that line alone. -/
def rangeEnd? (e : Edit) : EditRange → Option (Option Nat)
  | .upTo (.line n) => if n ≤ e.number then none else some (some n)
  | .upTo _ => some none
  | .more n => if n = 0 then none else some (some (e.number + n))
  | .multiple n =>
    if n = 0 || e.number % n = 0 then none else some (some ((e.number / n + 1) * n))

/-- Whether a command is for the line. -/
def isSelected (e : Edit) (command : Nat) (s : EditSelection) : Bool × Edit :=
  match s.first, s.range with
  | none, _ => (true, e)
  | some a, none => e.isAt a
  | some a, some range =>
    let outside := e.ranges.filter (·.1 != command)
    match e.ranges.find? (·.1 == command) with
    | some (_, some last) =>
      (e.number ≤ last, if last ≤ e.number then { e with ranges := outside } else e)
    | some (_, none) =>
      let (ended, e) := match range with
        | .upTo b => e.isAt b
        | _ => (false, e)
      (true, if ended then { e with ranges := outside } else e)
    | none =>
      let (starts, e) := e.isAt a
      if !starts then (false, e)
      else match e.rangeEnd? range with
        | none => (true, e)
        | some last => (true, { e with ranges := (command, last) :: e.ranges })

/-! ### Replacing -/

/-- A character written in a way. -/
def LetterCase.write (style : LetterCase) (c : Char) : Char :=
  match style with
  | .kept => c
  | .upper => c.toUpper
  | .lower => c.toLower

/-- What takes the place of a match. -/
def filled (parts : List EditPart) (s : Subject) (place : Nat) (m : Match) : List Char :=
  (parts.foldl (fun (before, style, once) part =>
    let write := fun (cs : List Char) (before : List Char) =>
      match once, cs with
      | some first, c :: cs =>
        ((cs.map (LetterCase.write style)).reverse ++ LetterCase.write first c :: before, style,
          (none : Option LetterCase))
      | _, _ => ((cs.map (LetterCase.write style)).reverse ++ before, style, once)
    match part with
    | .char c => write [c] before
    | .found 0 => write (s.text.extract place m.place).toList before
    | .found n => write (m.part s n) before
    | .letters style => (before, style, none)
    | .letter first => (before, style, some first))
    (([] : List Char), LetterCase.kept, (none : Option LetterCase))).1.reverse

/-- The text with matches replaced from a place on, the latest character first, and whether one was.
What fits nothing right behind a match does not count as another one. -/
def replacing (sub : Substitution) (p : Regex) (s : Subject) :
    Nat → Nat → Nat → Option Nat → List Char → Bool → List Char × Bool
  | 0, _, _, _, before, any => (before, any)
  | steps + 1, count, place, last, before, any =>
    let rest := fun (place : Nat) => (s.text.extract place s.text.size).toList.reverse
    match p.find? s place with
    | none => (rest place ++ before, any)
    | some (first, m) =>
      let upTo := (s.text.extract place first).toList.reverse ++ before
      let isEmpty := first == m.place
      -- A match of nothing takes the character behind it along.
      let onward := fun (before : List Char) => match s.text[first]? with
        | some c => if isEmpty then (c :: before, first + 1) else (before, m.place)
        | none => (before, if isEmpty then first + 1 else m.place)
      if isEmpty && last = some first then
        let (before, next) := onward upTo
        if s.text.size < next then (before, any)
        else replacing sub p s steps count next none before any
      else if count + 1 < sub.number then
        let matched := (s.text.extract first m.place).toList.reverse ++ upTo
        let (before, next) := onward matched
        if s.text.size < next then (before, any)
        else replacing sub p s steps (count + 1) next (some m.place) before any
      else
        let before := (filled sub.replacement s first m).reverse ++ upTo
        if !sub.all then (rest m.place ++ before, true)
        else
          let (before, next) := onward before
          if s.text.size < next then (before, true)
          else replacing sub p s steps (count + 1) next (some m.place) before true

/-- **Replacing** in the line. -/
def substitute (e : Edit) (sub : Substitution) : Edit :=
  match sub.pattern <|> e.used with
  | none => e
  | some p =>
    let s : Subject := ⟨e.space.toArray, sub.caseless⟩
    let (cs, any) := replacing sub p s (2 * s.text.size + 2) 0 0 none [] false
    let e := { e with used := some p }
    if !any then e
    else
      let e := { e with space := cs.reverse, replaced := true }
      let e := if sub.printed then e.putLine e.space else e
      match sub.file with
      | some name => e.writeTo name (e.space ++ ['\n'])
      | none => e

/-! ### Running -/

/-- The line up to its first line feed. -/
def firstPart (e : Edit) : List Char := e.space.takeWhile (· != '\n')

/-- The place that a jump leads to: behind a label, or the end. -/
def target (script : Array EditCommand) (name : String) : Nat :=
  if name.isEmpty then script.size
  else (script.findIdx? (·.action == .label name)).getD script.size

/-- Doing one thing: what becomes of the lines, and how many commands are passed over or where to go
on, or how the cycle ends. -/
def act (set : Setting) (command : Nat) (e : Edit) : EditAction → Edit × Except Fate Nat
  | .block _ => (e, .ok (command + 1))
  | .nothing => (e, .ok (command + 1))
  | .label _ => (e, .ok (command + 1))
  | .jump name condition =>
    let e' := { e with replaced := false }
    match condition with
    | none => (e, .ok (target set.script name))
    | some wanted =>
      if e.replaced == wanted then (e', .ok (target set.script name)) else (e', .ok (command + 1))
  | .substitute sub => (e.substitute sub, .ok (command + 1))
  | .exchange pairs =>
    ({ e with space := e.space.map fun c => ((pairs.find? (·.1 == c)).map (·.2)).getD c },
      .ok (command + 1))
  | .print onlyFirst => (e.putLine (if onlyFirst then e.firstPart else e.space), .ok (command + 1))
  | .drop false => (e, .error .dropped)
  | .drop true =>
    match e.space.drop e.firstPart.length with
    | [] => (e, .error .dropped)
    | _ :: rest => ({ e with space := rest }, .error .again)
  | .next added =>
    match e.rest with
    | [] => (e, .error (.finished true 0))
    | line :: rest =>
      let e := if added || set.quiet then e else e.putLine e.space
      let e := e.flush
      ({ e with
          space := if added then e.space ++ '\n' :: line else line
          rest, number := e.number + 1 }, .ok (command + 1))
  | .append text => ({ e with queue := text :: e.queue }, .ok (command + 1))
  | .insert text => (e.put text, .ok (command + 1))
  | .change text =>
    let inside := e.ranges.any (·.1 == command) && (set.script[command]?).all (!·.selection.others)
    (if inside then e else e.put text, .error .dropped)
  | .keep added =>
    ({ e with hold := if added then e.hold ++ '\n' :: e.space else e.space }, .ok (command + 1))
  | .recall added =>
    ({ e with space := if added then e.space ++ '\n' :: e.hold else e.hold }, .ok (command + 1))
  | .swap => ({ e with space := e.hold, hold := e.space }, .ok (command + 1))
  | .quit printed status => (e, .error (.finished printed status))
  | .number => (e.put ((toString e.number).toList ++ ['\n']), .ok (command + 1))
  | .list => (e.put (wrapped 69 0 (e.space.map visibleChar)), .ok (command + 1))
  | .readFile name =>
    match e.files.read (Octets.path name) with
    | .ok content => ({ e with queue := Octets.chars content :: e.queue }, .ok (command + 1))
    | .error _ => (e, .ok (command + 1))
  | .writeFile name => (e.writeTo name (e.space ++ ['\n']), .ok (command + 1))
  | .fileName => (e.put (set.file.toList ++ ['\n']), .ok (command + 1))
  | .clear => ({ e with space := [] }, .ok (command + 1))

/-- Running the commands from one on. -/
def runFrom (set : Setting) : Nat → Nat → Edit → Edit × Fate
  | 0, _, e => (e, .endless)
  | steps + 1, command, e =>
    match set.script[command]? with
    | none => (e, .done)
    | some c =>
      let (selected, e) := e.isSelected command c.selection
      if selected != c.selection.others then
        match e.act set command c.action with
        | (e, .ok next) => runFrom set steps next e
        | (e, .error fate) => (e, fate)
      else
        let size := match c.action with
          | .block size => size
          | _ => 0
        runFrom set steps (command + 1 + size) e

/-- How many commands a cycle may run. -/
def stepLimit : Nat := 100000

/-- Cycles until the lines are edited, with the state that is left, or none if they have no end. -/
def cycles (set : Setting) : Nat → Bool → Edit → Edit × Option Nat
  | 0, _, e => (e, none)
  | steps + 1, fresh, e =>
    match fresh, e.rest with
    | true, [] => (e, some 0)
    | _, _ =>
      let e := match fresh, e.rest with
        | true, line :: rest =>
          { e with space := line, rest, number := e.number + 1, replaced := false }
        | _, _ => e
      let ended := fun (printed : Bool) (e : Edit) =>
        (if printed && !set.quiet then e.putLine e.space else e).flush
      match runFrom set stepLimit 0 e with
      | (e, .done) => cycles set steps true (ended true e)
      | (e, .dropped) => cycles set steps true (ended false e)
      | (e, .again) => cycles set steps false (ended false e)
      | (e, .finished printed status) => (ended printed e, some status)
      | (e, .endless) => (e, none)

/-- The ranges that start before the first line. -/
def openRanges (script : Array EditCommand) : List (Nat × Option Nat) :=
  (List.range script.size).filterMap fun i =>
    if (script[i]?).any (·.selection.first == some (EditAddress.line 0)) then some (i, none)
    else none

/-- **Editing lines**: what is printed, the state that is left, if there is one, and the files. -/
def edited (set : Setting) (lines : List (List Char)) (complete : Bool) (files : FileSystem) :
    List Char × Option Nat × FileSystem :=
  let e : Edit := { rest := lines, complete, files, ranges := openRanges set.script }
  let (e, status) := cycles set (stepLimit + lines.length) true e
  (e.printed.reverse.flatten, status, e.files)

end Edit

namespace Utility

/-- The ending of the names of copies, if files are to be edited in place, and all other arguments
in their order. -/
def inPlace : List String → Option String × List String
  | [] => (none, [])
  | "--" :: rest => (none, "--" :: rest)
  | a :: rest =>
    let (suffix, rest) := inPlace rest
    match a.toList with
    | '-' :: letters =>
      let front := letters.takeWhile ['n', 'E', 'r', 's', 'u', 'z'].contains
      match letters.drop front.length with
      | 'i' :: ending =>
        (some (String.ofList ending),
          if front.isEmpty then rest else String.ofList ('-' :: front) :: rest)
      | _ =>
        if a = "--in-place" then (some "", rest) else (suffix, a :: rest)
    | _ => (suffix, a :: rest)

/-- The number of the part of a script where a place is, and the place in it. -/
def partOf (parts : List (List Char)) (place : Nat) : Nat × Nat :=
  match parts with
  | part :: rest@(_ :: _) =>
    if place ≤ part.length then (1, place)
    else
      let (n, place) := partOf rest (place - part.length - 1)
      (n + 1, place)
  | _ => (1, place)

/-- The parts of a script, and the operands behind it; or a file that cannot be read. -/
def scriptParts (a : Arguments) (p : Process) : Except String (List (List Char) × List String) := do
  let given := a.options.filter fun o => o.1 == 'e' || o.1 == 'f'
  if given.isEmpty then
    .ok ([(a.operands.headD "").toList], a.operands.tail)
  else
    let parts ← given.mapM fun (c, text) =>
      if c = 'e' then Except.ok (text.toList)
      else match p.readAll text with
        | .ok (bytes, _) => .ok (Octets.chars (Octets.chomped bytes))
        | .error e => .error ("couldn't open file " ++ text ++ ": " ++ e.reason)
    .ok (parts, a.operands)

/-- The files that a script writes. -/
def writtenFiles (script : List EditCommand) : List String :=
  script.filterMap fun command =>
    match command.action with
    | .writeFile name => some name
    | .substitute sub => sub.file
    | _ => none

/-- Editing one file in place. -/
def editInPlace (script : Array EditCommand) (quiet : Bool) (suffix file : String) (p : Process) :
    Process :=
  match p.files.find (Octets.path file) with
  | .error e => p.failed ("can't read " ++ file ++ ": " ++ e.reason) 2
  | .ok (location, .file access content) =>
    let (text, status, files) := Edit.edited ⟨script, quiet, file⟩
      ((Octets.lines content).map Octets.chars) (content.getLast? = some 10) p.files
    let copy := if suffix.isEmpty then files
      else (files.write (Octets.path (file ++ suffix)) content).toOption.getD files
    let p := { p with
      files := { copy with root := copy.root.set (.file access (Octets.ofChars text)) location } }
    match status with
    | some 0 => p
    | some n => p.withStatus n
    | none => { p with flow := .overdue }
  | .ok _ => p.failed ("couldn't edit " ++ file ++ ": not a regular file") 4

/-- Editing the lines of files. -/
def sed : Utility := fun arguments =>
  let (suffix?, arguments) := inPlace arguments
  reading { flags := ['n', 'E', 'r', 's', 'u', 'z'], valued := ['e', 'f', 'l']
            words := [("quiet", 'n'), ("silent", 'n'), ("regexp-extended", 'E'), ("separate", 's'),
              ("expression", 'e'), ("file", 'f'), ("unbuffered", 'u')] } 1 (fun a p =>
    let style := if a.has 'E' || a.has 'r' then Regex.Style.extended else .basic
    match scriptParts a p with
    | .error text => p.failed text 1
    | .ok (parts, operands) =>
      let text := ['\n'].intercalate parts
      let quiet := a.has 'n' || ['#', 'n', '\n'].isPrefixOf (text ++ ['\n'])
      match EditScript.read style text with
      | .error e =>
        let (n, place) := partOf parts e.place
        p.failed
          ("-e expression #" ++ toString n ++ ", char " ++ toString place ++ ": " ++ e.text) 1
      | .ok script =>
        match EditScript.missingLabel? script with
        | some name => p.failed ("can't find label for jump to \x60" ++ name ++ "'") 1
        | none =>
          let files := (writtenFiles script).foldl (fun (files : FileSystem) name =>
            (files.write (Octets.path name) []).toOption.getD files) p.files
          let p := { p with files }.withStatus 0
          match suffix? with
          | some suffix => operands.foldl (fun p f => editInPlace script.toArray quiet suffix f p) p
          | none =>
            let names := Process.inputsOf operands
            let (parts, complete, p) := names.foldl (fun (parts, complete, p) file =>
              match p.readAll file with
              | .ok (bytes, p) =>
                ((Octets.lines bytes).map Octets.chars :: parts,
                  if bytes.isEmpty then complete else bytes.getLast? = some 10, p)
              | .error .isDirectory =>
                (parts, complete, p.failed ("read error on " ++ file ++ ": Is a directory") 2)
              | .error e =>
                (parts, complete, p.failed ("can't read " ++ file ++ ": " ++ e.reason) 2))
              (([] : List (List (List Char))), true, p)
            let groups := if a.has 's' then parts.reverse else [parts.reverse.flatten]
            groups.foldl (fun p lines =>
              let (text, status, files) := Edit.edited ⟨script.toArray, quiet, names.headD "-"⟩
                lines complete p.files
              let p := { p with files }.emit 1 (Octets.ofChars text)
              match status with
              | some 0 => p
              | some n => p.withStatus n
              | none => { p with flow := .overdue }) p) arguments

end Utility

end LintSuite
