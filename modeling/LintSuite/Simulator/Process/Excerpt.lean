import LintSuite.Simulator.Process.Input

/-!
# Showing files

These utilities print files, parts of them, or how much is in them.
-/

namespace LintSuite.Utility

open Host Text

/-! ### Whole files -/

/-- A number in a column of six, and a gap. -/
def lineNumber (n : Nat) : List UInt8 :=
  let digits := (toString n).toList
  Octets.ofChars (List.replicate (6 - digits.length) ' ' ++ digits ++ ['\t'])

/-- A byte made visible. -/
def visible (tabs : Bool) (b : UInt8) : List UInt8 :=
  let below := fun (b : UInt8) =>
    if b < 32 then [94, b + 64] else if b = 127 then [94, 63] else [b]
  if b = 9 && !tabs then [b]
  else if b < 128 then below b
  else [77, 45] ++ below (b - 128)

/-- How a file is printed. -/
structure CatStyle where
  /-- Whether lines get numbers. -/
  numbered : Bool := false
  /-- Whether empty lines get none. -/
  onlyFull : Bool := false
  /-- Whether one of several empty lines is enough. -/
  squeezed : Bool := false
  /-- Whether ends of lines are marked. -/
  ends : Bool := false
  /-- Whether tabs are made visible. -/
  tabs : Bool := false
  /-- Whether other bytes are made visible. -/
  others : Bool := false
  deriving DecidableEq

/-- Whether an empty line follows another one. -/
def isRepeated (before line : List UInt8) : Bool := before.isEmpty && line.isEmpty

/-- Lines in a style, from a number on, behind another line. -/
def CatStyle.print (style : CatStyle) : Nat → List UInt8 → List (List UInt8) →
    List (List UInt8) × Nat
  | n, _, [] => ([], n)
  | n, before, line :: rest =>
    if style.squeezed && isRepeated before line then style.print n line rest
    else
      let counted := style.numbered && !(style.onlyFull && line.isEmpty)
      let shown := line.flatMap fun b =>
        if style.others then visible style.tabs b
        else if style.tabs && b = 9 then [94, 73] else [b]
      let (more, last) := style.print (if counted then n + 1 else n) line rest
      (((if counted then lineNumber n else []) ++ shown) :: more, last)

/-- Printing files. -/
def cat : Utility :=
  reading { flags := ['A', 'b', 'e', 'E', 'n', 's', 't', 'T', 'u', 'v']
            words := [("show-all", 'A'), ("number-nonblank", 'b'), ("show-ends", 'E'),
              ("number", 'n'), ("squeeze-blank", 's'), ("show-tabs", 'T'),
              ("show-nonprinting", 'v')] } 1 fun a p =>
    let style : CatStyle :=
      { numbered := a.has 'n' || a.has 'b', onlyFull := a.has 'b', squeezed := a.has 's'
        ends := a.has 'E' || a.has 'A' || a.has 'e', tabs := a.has 'T' || a.has 'A' || a.has 't'
        others := a.has 'v' || a.has 'A' || a.has 'e' || a.has 't' }
    let files := Process.inputsOf a.operands
    if style = {} then
      p.onInputs files Process.plainReport fun _ bytes p => p.emit 1 bytes
    else
      let (bytes, p) := p.gather files Process.plainReport
      let (lines, _) := style.print 1 [1] (Octets.lines bytes)
      let text := (lines.map (· ++ (if style.ends then [36, 10] else [10]))).flatten
      p.emit 1 (if bytes.getLast? = some 10 then text
        else text.take (text.length - (if style.ends then 2 else 1)))

/-- Printing files with the last line first. -/
def tac : Utility := reading {} 1 fun a p =>
  p.onInputs (Process.inputsOf a.operands)
    (fun file e =>
      if e = .isDirectory then ShellQuoted.asNeeded file ++ ": read error: " ++ e.reason
      else "failed to open " ++ ShellQuoted.always file ++ " for reading: " ++ e.reason)
    fun _ bytes p =>
      match bytes.getLast?, (Octets.lines bytes).reverse with
      | some 10, lines => p.emit 1 (Octets.unlines lines)
      | _, [] => p
      | _, last :: lines => p.emit 1 (last ++ Octets.unlines lines)

/-- Printing the lines of files from their ends to their starts. -/
def rev : Utility := reading {} 1 fun a p =>
  p.onInputs (Process.inputsOf a.operands)
    (fun file e => "cannot open " ++ file ++ ": " ++ e.reason)
    fun _ bytes p =>
      let reversed := Octets.unlines ((Octets.lines bytes).map fun line =>
        line.reverse)
      p.emit 1 (if bytes.getLast? = some 10 then reversed else reversed.dropLast)

/-- Printing files with numbers in front of their lines. -/
def nl : Utility :=
  reading { valued := ['b', 'w', 's', 'n', 'v', 'i'] } 1 fun a p =>
    let (bytes, p) := p.gather (Process.inputsOf a.operands) Process.plainReport
    let all := a.value? 'b' = some "a"
    let none' := a.value? 'b' = some "n"
    let gap := Octets.ofString ((a.value? 's').getD "\t")
    let width := ((a.value? 'w').bind Numeral.digits?).getD 6
    let first := ((a.value? 'v').bind Numeral.digits?).getD 1
    let (lines, _) := (Octets.lines bytes).foldl (fun (lines, n) line =>
      if none' || (line.isEmpty && !all) then
        ((List.replicate (width + gap.length) 32 ++ line) :: lines, n)
      else
        let digits := Octets.ofString (toString n)
        ((List.replicate (width - digits.length) 32 ++ digits ++ gap ++ line) :: lines, n + 1))
      (([] : List (List UInt8)), first)
    p.emit 1 (Octets.unlines lines.reverse)

/-- Printing what is read, and writing it into files. -/
def tee : Utility :=
  reading { flags := ['a', 'i', 'p'], words := [("append", 'a')] } 1 fun a p =>
    let (bytes, p) := p.takeInput
    let p := p.emit 1 bytes
    a.operands.foldl (fun p file =>
      let before := if a.has 'a' then (p.files.read (Octets.path file)).toOption.getD [] else []
      match p.files.write (Octets.path file) (before ++ bytes) with
      | .ok files => { p with files }
      | .error e => p.failed (ShellQuoted.asNeeded file ++ ": " ++ e.reason) 1) (p.withStatus 0)

/-! ### Parts of files -/

/-- What the ending of a number multiplies it by. -/
def multiplier? (ending : List Char) : Option Nat :=
  match ending with
  | [] => some 1
  | ['b'] => some 512
  | ['k', 'B'] | ['K', 'B'] => some 1000
  | ['k'] | ['K'] | ['K', 'i', 'B'] => some 1024
  | ['M', 'B'] => some (1000 * 1000)
  | ['m'] | ['M'] | ['M', 'i', 'B'] => some (1024 * 1024)
  | ['G', 'B'] => some (1000 * 1000 * 1000)
  | ['G'] | ['G', 'i', 'B'] => some (1024 * 1024 * 1024)
  | _ => none

/-- How much of a file is meant. -/
structure Extent where
  /-- Whether bytes are counted, and not lines. -/
  ofBytes : Bool := false
  /-- The sign in front of the number. -/
  sign : Option Char := none
  /-- The number. -/
  count : Nat := 10

/-- An extent by the text of its number. -/
def Extent.ofText? (ofBytes : Bool) (text : String) : Option Extent :=
  let (sign, cs) := match text.toList with
    | '+' :: rest => (some '+', rest)
    | '-' :: rest => (some '-', rest)
    | cs => (none, cs)
  let digits := cs.takeWhile Char.isDigit
  let n := digits.foldl (fun n c => n * 10 + Printf.digitValue c) 0
  if digits.isEmpty then none
  else (multiplier? (cs.drop digits.length)).map fun m => ⟨ofBytes, sign, n * m⟩

/-- The arguments with a number behind a dash, in front, as an option of its own. -/
def withoutShorthand (arguments : List String) : List String :=
  match arguments with
  | first :: rest =>
    match first.toList with
    | '-' :: d :: more =>
      if d.isDigit && more.all Char.isDigit then "-n" :: String.ofList (d :: more) :: rest
      else arguments
    | _ => arguments
  | [] => []

/-- The lines of some bytes, each with its line feed if it has one. -/
def fullLines (bytes : List UInt8) : List (List UInt8) :=
  bytes.foldr (fun (b : UInt8) (lines : List (List UInt8)) =>
    if b = 10 then [b] :: lines
    else match lines with
      | [] => [[b]]
      | line :: rest => (b :: line) :: rest) []

/-- All but the last of some items. -/
def butLast {α : Type} (n : Nat) (items : List α) : List α := items.take (items.length - n)

/-- The front of a feed. -/
def Extent.front (e : Extent) (f : Feed) : Feed.Portion :=
  if e.sign = some '-' then
    let all := f.takeAll
    { all with bytes :=
        if e.ofBytes then butLast e.count all.bytes
        else (butLast e.count (fullLines all.bytes)).flatten }
  else if e.ofBytes then f.takeBytes e.count
  else f.takeLines e.count

/-- The back of some items. -/
def Extent.backOf {α : Type} (e : Extent) (items : List α) : List α :=
  if e.sign = some '+' then items.drop (e.count - 1) else items.drop (items.length - e.count)

/-- The back of a feed. -/
def Extent.back (e : Extent) (f : Feed) : Feed.Portion :=
  let all := f.takeAll
  { all with bytes :=
      if e.ofBytes then e.backOf all.bytes else (e.backOf (fullLines all.bytes)).flatten }

/-- Printing a part of each of some files, with headings if there are several. -/
def parts (part : Extent → Feed → Feed.Portion) : Utility := fun arguments =>
  reading { flags := ['q', 'v', 'z', 'f', 'F'], valued := ['n', 'c']
            words := [("lines", 'n'), ("bytes", 'c'), ("quiet", 'q'), ("silent", 'q'),
              ("verbose", 'v')] } 1 (fun a p =>
    let last := (a.options.filter fun o => o.1 == 'n' || o.1 == 'c').getLast?
    let extent : Option Extent := match last with
      | none => some {}
      | some (c, text) => Extent.ofText? (c == 'c') text
    match extent with
    | none =>
      let (c, text) := last.getD ('n', "")
      p.failed ("invalid number of " ++ (if c == 'c' then "bytes" else "lines") ++ ": " ++
        ShellQuoted.plain text) 1
    | some extent =>
      let files := Process.inputsOf a.operands
      let headed := (files.length > 1 && a.last? ['q', 'v'] != some 'q') ||
        a.last? ['q', 'v'] = some 'v'
      let (p, _) := files.foldl (fun (p, first) file =>
        let name := if file = "-" then "standard input" else file
        let heading := fun (p : Process) =>
          if headed then p.print ((if first then "" else "\n") ++ "==> " ++ name ++ " <==\n")
          else p
        match p.readFile (part extent) file with
        | .ok (taken, p) => ((heading p).emit 1 taken.bytes, false)
        | .error .isDirectory =>
          ((heading p).failed ("error reading " ++ ShellQuoted.always file ++
            ": Is a directory") 1, false)
        | .error e =>
          (p.failed ("cannot open " ++ ShellQuoted.always file ++ " for reading: " ++ e.reason) 1,
            first))
        (p.withStatus 0, true)
      p) (withoutShorthand arguments)

/-- Printing the front of files. -/
def head : Utility := parts Extent.front

/-- Printing the back of files. -/
def tail : Utility := parts Extent.back

/-! ### Counting -/

/-- How much is in a file. -/
structure Count where
  /-- The line feeds. -/
  lines : Nat := 0
  /-- The words. -/
  words : Nat := 0
  /-- The bytes. -/
  bytes : Nat := 0
  /-- The length of the longest line. -/
  longest : Nat := 0

/-- The number of words. -/
def wordCount (bytes : List UInt8) : Nat :=
  (bytes.foldl (fun (n, inside) b =>
    (if !Octets.isSpace b && !inside then n + 1 else n, !Octets.isSpace b)) ((0 : Nat), false)).1

/-- How much is in some bytes. -/
def Count.of (bytes : List UInt8) : Count :=
  ⟨bytes.count 10, wordCount bytes, bytes.length,
    (Octets.lines bytes).foldl (fun n line => max n line.length) 0⟩

/-- How much is in two files. -/
def Count.plus (a b : Count) : Count :=
  ⟨a.lines + b.lines, a.words + b.words, a.bytes + b.bytes, max a.longest b.longest⟩

/-- The numbers that are asked for, by letters. -/
def Count.numbers (c : Count) (letters : List Char) : List Nat :=
  (if letters.contains 'l' then [c.lines] else []) ++
    (if letters.contains 'w' then [c.words] else []) ++
    (if letters.contains 'm' then [c.bytes] else []) ++
    (if letters.contains 'c' then [c.bytes] else []) ++
    (if letters.contains 'L' then [c.longest] else [])

/-- A line with some numbers in columns. -/
def countLine (width : Nat) (numbers : List Nat) (name : String) : String :=
  let column := fun (n : Nat) => let digits := toString n
    String.ofList (List.replicate (width - digits.length) ' ') ++ digits
  String.intercalate " " (numbers.map column) ++ (if name.isEmpty then "" else " " ++ name) ++ "\n"

/-- The size of a file, or nothing for what is no file. -/
def sizeOf? (p : Process) (file : String) : Option Nat :=
  if file = "-" then
    match p.feed? 0 with
    | some (_, feed) => if feed.still then some feed.bytes.length else none
    | none => none
  else match p.files.find (Octets.path file) with
    | .ok (_, .file _ content) => some content.length
    | _ => none

/-- Whether a file is there at all. -/
def isThere (p : Process) (file : String) : Bool := file = "-" || p.files.exists? (Octets.path file)

/-- The width of the columns: one if there is one number, else enough for the sizes of all files. -/
def countWidth (p : Process) (files : List String) (letters : List Char) : Nat :=
  if files.length = 1 && letters.length = 1 then 1
  else
    let known := files.filter (isThere p)
    let total := (known.filterMap (sizeOf? p)).foldl (· + ·) 0
    let digits := (toString total).length
    if known.any fun f => (sizeOf? p f).isNone then max 7 digits else digits

/-- Counting what is in files. -/
def wc : Utility :=
  reading { flags := ['l', 'w', 'c', 'm', 'L']
            words := [("lines", 'l'), ("words", 'w'), ("bytes", 'c'), ("chars", 'm'),
              ("max-line-length", 'L')] } 1 fun a p =>
    let letters := if a.options.isEmpty then ['l', 'w', 'c'] else (a.options.map (·.1)).eraseDups
    let files := Process.inputsOf a.operands
    let width := countWidth p files letters
    let line := fun (c : Count) (name : String) => countLine width (c.numbers letters) name
    let (p, total) := files.foldl (fun (p, total) file =>
      if file.isEmpty then (p.failed "invalid zero-length file name" 1, total)
      else match p.readAll file with
      | .ok (bytes, p) =>
        let c := Count.of bytes
        (p.print (line c (if a.operands.isEmpty then "" else file)), total.plus c)
      | .error e =>
        let p := p.failed (ShellQuoted.asNeeded file ++ ": " ++ e.reason) 1
        (if e = .isDirectory then p.print (line {} file) else p, total))
      (p.withStatus 0, ({} : Count))
    if files.length > 1 then p.print (line total "total") else p

end LintSuite.Utility
