import LintSuite.Simulator.Process.Input
import LintSuite.Simulator.Regex.Source

/-!
# Scripts for editing lines

A script is a list of commands, each for the lines that its addresses select.  Blocks are kept flat:
the start of a block knows how many commands it spans, so that they can be passed over.  A script is
read from its text (`EditScript.read`); a fault is told with the number of characters that had been
read when it was noticed.
-/

namespace LintSuite

/-- What selects a line. -/
inductive EditAddress where
  /-- Its number. -/
  | line (n : Nat)
  /-- Numbers at a distance from each other, from a first one on. -/
  | step (first distance : Nat)
  /-- That it is the last. -/
  | last
  /-- That it fits a pattern; without one, the last one that was used. -/
  | fits (p : Option Regex) (caseless : Bool)
  deriving DecidableEq, Repr

/-- Where a range of lines ends. -/
inductive EditRange where
  /-- At a line that an address selects. -/
  | upTo (a : EditAddress)
  /-- Behind some more lines. -/
  | more (n : Nat)
  /-- At the next multiple of a number. -/
  | multiple (n : Nat)
  deriving DecidableEq, Repr

/-- The lines that a command is for. -/
structure EditSelection where
  /-- The line, or the first of several. -/
  first : Option EditAddress := none
  /-- Where they end, if there are several. -/
  range : Option EditRange := none
  /-- Whether all other lines are meant. -/
  others : Bool := false
  deriving DecidableEq, Repr

/-- How letters are written. -/
inductive LetterCase where
  /-- As they are. -/
  | kept
  /-- As capital letters. -/
  | upper
  /-- As small letters. -/
  | lower
  deriving DecidableEq, Repr

/-- A part of a replacement. -/
inductive EditPart where
  /-- A character. -/
  | char (c : Char)
  /-- A part of what was found, by its number; all of it for zero. -/
  | found (n : Nat)
  /-- How the letters that follow are written. -/
  | letters (style : LetterCase)
  /-- How the next letter is written. -/
  | letter (style : LetterCase)
  deriving DecidableEq, Repr

/-- A substitution. -/
structure Substitution where
  /-- What is replaced; without a pattern, what fits the last one that was used. -/
  pattern : Option Regex
  /-- Whether small letters and capital ones are the same. -/
  caseless : Bool := false
  /-- What takes its place. -/
  replacement : List EditPart
  /-- The first place that is replaced. -/
  number : Nat := 1
  /-- Whether the places behind it are replaced, too. -/
  all : Bool := false
  /-- Whether the line is printed then. -/
  printed : Bool := false
  /-- A file that the line is written to then. -/
  file : Option String := none
  deriving DecidableEq, Repr

/-- What is done with a line. -/
inductive EditAction where
  /-- A block of some commands starts. -/
  | block (size : Nat)
  /-- Nothing. -/
  | nothing
  /-- A place to go to. -/
  | label (name : String)
  /-- Going to a place, or to the end: always, if something was replaced, or if nothing was. -/
  | jump (name : String) (ifReplaced : Option Bool)
  /-- Replacing. -/
  | substitute (s : Substitution)
  /-- Putting characters in the place of others. -/
  | exchange (pairs : List (Char × Char))
  /-- Printing the line, or its part up to a line feed. -/
  | print (onlyFirst : Bool)
  /-- Dropping the line, or its part up to a line feed. -/
  | drop (onlyFirst : Bool)
  /-- Going on with the next line, which takes the place of this one or is added to it. -/
  | next (added : Bool)
  /-- Printing a text behind the line. -/
  | append (text : List Char)
  /-- Printing a text in front of the line. -/
  | insert (text : List Char)
  /-- Printing a text in place of the line. -/
  | change (text : List Char)
  /-- Keeping the line, in place of what is kept or behind it. -/
  | keep (added : Bool)
  /-- Taking what is kept, in place of the line or behind it. -/
  | recall (added : Bool)
  /-- Exchanging the line and what is kept. -/
  | swap
  /-- Ending, with or without printing the line. -/
  | quit (printed : Bool) (status : Nat)
  /-- Printing the number of the line. -/
  | number
  /-- Printing the line with all its characters made visible. -/
  | list
  /-- Printing a file behind the line. -/
  | readFile (name : String)
  /-- Writing the line to a file. -/
  | writeFile (name : String)
  /-- Printing the name of the file. -/
  | fileName
  /-- Emptying the line. -/
  | clear
  deriving DecidableEq, Repr

/-- A command. -/
structure EditCommand where
  /-- The lines it is for. -/
  selection : EditSelection
  /-- What it does. -/
  action : EditAction
  deriving DecidableEq, Repr

namespace EditScript

/-- A fault: what is wrong, and how many characters had been read. -/
structure Fault where
  /-- The number of characters. -/
  place : Nat
  /-- What is wrong. -/
  text : String
  deriving DecidableEq, Repr

/-- What is left of a script, and how many characters have been read. -/
structure Cursor where
  /-- What is left. -/
  rest : List Char
  /-- How many characters have been read. -/
  place : Nat := 0

/-- The cursor behind some characters. -/
def Cursor.skip (c : Cursor) (n : Nat) : Cursor := ⟨c.rest.drop n, c.place + (c.rest.take n).length⟩

/-- The cursor behind characters of a kind. -/
def Cursor.skipWhile (c : Cursor) (f : Char → Bool) : Cursor := c.skip (c.rest.takeWhile f).length

/-- A fault at a cursor. -/
def Cursor.fault {α : Type} (c : Cursor) (text : String) : Except Fault α := .error ⟨c.place, text⟩

/-- Whether a character is a blank of a line. -/
def isGap (c : Char) : Bool := c == ' ' || c == '\t'

/-- Whether a character is a blank or ends a line. -/
def isBlank (c : Char) : Bool := isGap c || c == '\n' || c == '\x0d' || c == '\x0b' || c == '\x0c'

/-- The character that an escape stands for. -/
def escape? (c : Char) : Option Char :=
  match c with
  | 'a' => some '\x07'
  | 'f' => some '\x0c'
  | 'n' => some '\n'
  | 'r' => some '\x0d'
  | 't' => some '\t'
  | 'v' => some '\x0b'
  | _ => none

/-- A text with the escapes for characters replaced. -/
def unescaped : List Char → List Char
  | '\\' :: c :: rest =>
    match escape? c with
    | some d => d :: unescaped rest
    | none => '\\' :: c :: unescaped rest
  | c :: rest => c :: unescaped rest
  | [] => []

/-- How many characters a set takes behind its bracket, up to the closing one, or none if it is not
closed. -/
def setLength (cs : List Char) : Nat :=
  let sign := if cs.head? = some '^' then 1 else 0
  let first := if (cs.drop sign).head? = some ']' then 1 else 0
  let rest := cs.drop (sign + first)
  let inner := rest.takeWhile fun d => d != ']' && d != '\n'
  match rest.drop inner.length with
  | ']' :: _ => sign + first + inner.length + 1
  | _ => 0

/-- What stands before a mark, in which a backslash takes the mark its meaning; and the cursor
behind the mark.  A pattern stays on its line, and a set in it may hold the mark. -/
def delimited (mark : Char) (isPattern : Bool) : Nat → List Char → Cursor →
    Option (List Char × Cursor)
  | 0, _, _ => none
  | steps + 1, before, c =>
    match c.rest with
    | [] => none
    | '\\' :: d :: _ =>
      if d = mark then delimited mark isPattern steps (d :: before) (c.skip 2)
      else if d = '\n' && isPattern then none
      else delimited mark isPattern steps (d :: '\\' :: before) (c.skip 2)
    | d :: _ =>
      if d = mark then some (before.reverse, c.skip 1)
      else if d = '\n' && isPattern then none
      else if d = '[' && isPattern then
        let n := setLength (c.rest.drop 1) + 1
        delimited mark isPattern steps ((c.rest.take n).reverse ++ before) (c.skip n)
      else delimited mark isPattern steps (d :: before) (c.skip 1)

/-- A number, if one comes next. -/
def number? (c : Cursor) : Option (Nat × Cursor) :=
  let digits := c.rest.takeWhile Char.isDigit
  if digits.isEmpty then none
  else some (digits.foldl (fun n d => n * 10 + Printf.digitValue d) 0, c.skip digits.length)

/-- The pattern of a text, or none for an empty one. -/
def patternOf (style : Regex.Style) (text : List Char) (c : Cursor) :
    Except Fault (Option Regex) :=
  if text.isEmpty then .ok none
  else match Regex.read style (unescaped text) with
    | .ok p => .ok (some p)
    | .error e => c.fault e.message

/-- An address, if one comes next. -/
def readAddress? (style : Regex.Style) (c : Cursor) : Except Fault (Option EditAddress × Cursor) :=
  match number? c with
  | some (n, c) =>
    match c.rest with
    | '~' :: _ =>
      match number? (c.skip 1) with
      | some (d, c) => .ok (some (if d = 0 then .line n else .step n d), c)
      | none => .ok (some (.line n), c)
    | _ => .ok (some (.line n), c)
  | none =>
    let pattern := fun (mark : Char) (c : Cursor) => do
      match delimited mark true (c.rest.length + 1) [] c with
      | none => (c.skip c.rest.length).fault "unterminated address regex"
      | some (text, c) =>
        let flags := c.rest.takeWhile fun d => d = 'I' || d = 'M'
        let c := c.skip flags.length
        let p ← patternOf style text c
        Except.ok (some (EditAddress.fits p (flags.contains 'I')), c)
    match c.rest with
    | '$' :: _ => .ok (some .last, c.skip 1)
    | '/' :: _ => pattern '/' (c.skip 1)
    | '\\' :: mark :: _ => pattern mark (c.skip 2)
    | _ => .ok (none, c)

/-- The end of a range behind its comma. -/
def readRange (style : Regex.Style) (c : Cursor) : Except Fault (EditRange × Cursor) := do
  let c := c.skipWhile isGap
  match c.rest with
  | '+' :: _ =>
    match number? (c.skip 1) with
    | some (n, c) => .ok (.more n, c)
    | none => c.fault "expected number"
  | '~' :: _ =>
    match number? (c.skip 1) with
    | some (n, c) => .ok (.multiple n, c)
    | none => c.fault "expected number"
  | _ =>
    match ← readAddress? style c with
    | (some a, c) => .ok (.upTo a, c)
    | (none, c) => (c.skip 1).fault "unexpected \x60,'"

/-- The lines that a command is for. -/
def readSelection (style : Regex.Style) (c : Cursor) : Except Fault (EditSelection × Cursor) := do
  let (first, c) ← readAddress? style c
  let c := c.skipWhile isGap
  let (range, c) ← match first, c.rest with
    | some _, ',' :: _ => do
      let (r, c) ← readRange style (c.skip 1)
      Except.ok (some r, c)
    | _, _ => .ok (none, c)
  let c := c.skipWhile isGap
  let others := c.rest.head? = some '!'
  .ok (⟨first, range, others⟩, c.skipWhile fun d => isGap d || d == '!')

/-- The parts of a replacement. -/
def replacementOf : List Char → List EditPart
  | '\\' :: c :: rest =>
    let part := match c with
      | 'U' => .letters .upper
      | 'L' => .letters .lower
      | 'E' => .letters .kept
      | 'u' => .letter .upper
      | 'l' => .letter .lower
      | _ =>
        if c.isDigit then .found (c.toNat - '0'.toNat)
        else .char ((escape? c).getD c)
    part :: replacementOf rest
  | '&' :: rest => .found 0 :: replacementOf rest
  | c :: rest => .char c :: replacementOf rest
  | [] => []

/-- How many groups a pattern has. -/
def groupCount : Regex → Nat
  | .group n a => max n (groupCount a)
  | .followed a b => max (groupCount a) (groupCount b)
  | .either a b => max (groupCount a) (groupCount b)
  | .repeated a _ _ => groupCount a
  | _ => 0

/-- The name of a file, up to the end of the line. -/
def readName (c : Cursor) : String × Cursor :=
  let c := c.skipWhile isGap
  let name := c.rest.takeWhile (· != '\n')
  (String.ofList name, c.skip name.length)

/-- The letters behind a substitution. -/
def readFlags : Nat → Substitution → Cursor → Except Fault (Substitution × Cursor)
  | 0, s, c => .ok (s, c)
  | steps + 1, s, c =>
    match c.rest with
    | 'g' :: _ => readFlags steps { s with all := true } (c.skip 1)
    | 'p' :: _ => readFlags steps { s with printed := true } (c.skip 1)
    | 'i' :: _ => readFlags steps { s with caseless := true } (c.skip 1)
    | 'I' :: _ => readFlags steps { s with caseless := true } (c.skip 1)
    | 'm' :: _ => readFlags steps s (c.skip 1)
    | 'M' :: _ => readFlags steps s (c.skip 1)
    | 'w' :: _ =>
      let (name, c) := readName (c.skip 1)
      .ok ({ s with file := some name }, c)
    | d :: _ =>
      match number? c with
      | some (0, c) => c.fault "number option to \x60s' command may not be zero"
      | some (n, c) => readFlags steps { s with number := n } c
      | none =>
        if isGap d then readFlags steps s (c.skip 1)
        else if d = '\n' || d = ';' || d = '\x7d' || d = '#' then .ok (s, c)
        else (c.skip 1).fault "unknown option to \x60s'"
    | [] => .ok (s, c)

/-- A substitution behind its letter. -/
def readSubstitution (style : Regex.Style) (c : Cursor) : Except Fault (Substitution × Cursor) := do
  let unterminated := fun (c : Cursor) => (c.skip c.rest.length).fault "unterminated \x60s' command"
  match c.rest with
  | [] => unterminated c
  | mark :: _ =>
    match delimited mark true (c.rest.length + 1) [] (c.skip 1) with
    | none => unterminated c
    | some (text, c) =>
      match delimited mark false (c.rest.length + 1) [] c with
      | none => unterminated c
      | some (replacement, c) =>
        let (s, c) ← readFlags (c.rest.length + 1)
          { pattern := none, replacement := replacementOf replacement } c
        let pattern ← patternOf style text c
        let referred := s.replacement.foldl (fun n part => match part with
          | .found k => max n k
          | _ => n) 0
        match pattern with
        | some p =>
          if groupCount p < referred then
            c.fault ("invalid reference \\" ++ toString referred ++ " on \x60s' command's RHS")
          else .ok ({ s with pattern }, c)
        | none => .ok ({ s with pattern }, c)

/-- Characters of a list for exchanging, with escapes replaced. -/
def listed : List Char → List Char
  | '\\' :: c :: rest =>
    match escape? c with
    | some d => d :: listed rest
    | none => if c = '\\' then '\\' :: listed rest else '\\' :: c :: listed rest
  | c :: rest => c :: listed rest
  | [] => []

/-- An exchange of characters behind its letter. -/
def readExchange (c : Cursor) : Except Fault (EditAction × Cursor) :=
  let unterminated := (c.skip c.rest.length).fault "unterminated \x60y' command"
  match c.rest with
  | [] => unterminated
  | mark :: _ =>
    match delimited mark false (c.rest.length + 1) [] (c.skip 1) with
    | none => unterminated
    | some (source, c) =>
      match delimited mark false (c.rest.length + 1) [] c with
      | none => unterminated
      | some (target, c) =>
        if (listed source).length != (listed target).length then
          c.fault "strings for \x60y' command are different lengths"
        else .ok (.exchange ((listed source).zip (listed target)), c)

/-- A text up to the end of its line; a backslash keeps what follows it, even the end of a line. -/
def takeText : Nat → List Char → Cursor → List Char × Cursor
  | 0, before, c => (before.reverse, c)
  | steps + 1, before, c =>
    match c.rest with
    | [] => (before.reverse, c)
    | '\n' :: _ => (before.reverse, c.skip 1)
    | '\\' :: d :: _ => takeText steps (((escape? d).getD d) :: before) (c.skip 2)
    | d :: _ => takeText steps (d :: before) (c.skip 1)

/-- The text of a command that prints one, with a line feed at its end. -/
def readText (c : Cursor) : Except Fault (List Char × Cursor) :=
  let c := c.skipWhile isGap
  let c := match c.rest with
    | '\\' :: _ =>
      let behind := (c.skip 1).skipWhile isGap
      if behind.rest.head? = some '\n' then behind.skip 1 else c.skip 1
    | _ => c
  if c.rest.isEmpty then c.fault "expected \\ after \x60a', \x60c' or \x60i'"
  else
    let (text, c) := takeText (c.rest.length + 1) [] c
    .ok (text ++ ['\n'], c)

/-- The label behind a command. -/
def readLabel (c : Cursor) : String × Cursor :=
  let c := c.skipWhile isGap
  let name := c.rest.takeWhile fun d => d != '\n' && d != ';' && d != '\x7d'
  (String.ofList (name.reverse.dropWhile isGap).reverse, c.skip name.length)

/-- The end of a command: of its line, or a mark, or the end of its block. -/
def readEnd (c : Cursor) : Except Fault Cursor :=
  let c := c.skipWhile isGap
  match c.rest with
  | [] => .ok c
  | '\n' :: _ => .ok (c.skip 1)
  | ';' :: _ => .ok (c.skip 1)
  | '\x7d' :: _ => .ok c
  | '#' :: _ => .ok c
  | _ => (c.skip 1).fault "extra characters after command"

/-- An action by its letter, and whether the end of its command must follow. -/
def readAction (style : Regex.Style) (letter : Char) (c : Cursor) :
    Except Fault (EditAction × Bool × Cursor) := do
  let simple := fun (a : EditAction) => Except.ok (a, true, c)
  let texted := fun (f : List Char → EditAction) => do
    let (text, c) ← readText c
    Except.ok (f text, false, c)
  let named := fun (f : String → EditAction) =>
    let (name, c) := readName c
    Except.ok (f name, true, c)
  let labelled := fun (f : String → EditAction) =>
    let (name, c) := readLabel c
    Except.ok (f name, true, c)
  let ending := fun (printed : Bool) =>
    match number? (c.skipWhile isGap) with
    | some (n, c) => Except.ok (EditAction.quit printed n, true, c)
    | none => .ok (.quit printed 0, true, c)
  match letter with
  | 's' => do
    let (s, c) ← readSubstitution style c
    .ok (.substitute s, true, c)
  | 'y' => do
    let (a, c) ← readExchange c
    .ok (a, true, c)
  | 'p' => simple (.print false)
  | 'P' => simple (.print true)
  | 'd' => simple (.drop false)
  | 'D' => simple (.drop true)
  | 'n' => simple (.next false)
  | 'N' => simple (.next true)
  | 'h' => simple (.keep false)
  | 'H' => simple (.keep true)
  | 'g' => simple (.recall false)
  | 'G' => simple (.recall true)
  | 'x' => simple .swap
  | '=' => simple .number
  | 'l' => simple .list
  | 'F' => simple .fileName
  | 'z' => simple .clear
  | 'q' => ending true
  | 'Q' => ending false
  | 'a' => texted .append
  | 'i' => texted .insert
  | 'c' => texted .change
  | 'r' => named .readFile
  | 'w' => named .writeFile
  | 'b' => labelled (.jump · none)
  | 't' => labelled (.jump · (some true))
  | 'T' => labelled (.jump · (some false))
  | _ => c.fault ("unknown command: \x60" ++ String.ofList [letter] ++ "'")

/-- The size of the innermost of some open blocks set, given the commands, the latest first. -/
def closeBlock (before : List EditCommand) (place : Nat) : List EditCommand :=
  let size := before.length - place - 1
  before.modify size fun command => { command with action := .block size }

/-- The commands of a script, behind those that were read, the latest first, inside blocks that
started at some places. -/
def readFrom (style : Regex.Style) : Nat → List EditCommand → List Nat → Cursor →
    Except Fault (List EditCommand)
  | 0, before, _, _ => .ok before.reverse
  | steps + 1, before, blocks, c => do
    let c := c.skipWhile fun d => isBlank d || d == ';'
    if c.rest.isEmpty then
      if blocks.isEmpty then .ok before.reverse else .error ⟨0, "unmatched \x60\x7b'"⟩
    else
      let (selection, c) ← readSelection style c
      match c.rest with
      | [] => c.fault "missing command"
      | '\n' :: _ => (c.skip 1).fault "missing command"
      | '#' :: _ =>
        if selection.first.isSome then (c.skip 1).fault "comments don't accept any addresses"
        else readFrom style steps before blocks (c.skipWhile (· != '\n'))
      | '\x7b' :: _ =>
        readFrom style steps (⟨selection, .block 0⟩ :: before) (before.length :: blocks) (c.skip 1)
      | '\x7d' :: _ =>
        match blocks with
        | [] => (c.skip 1).fault "unexpected \x60\x7d'"
        | place :: blocks =>
          if selection.first.isSome then (c.skip 1).fault "\x7d doesn't want any addresses"
          else
            let c ← readEnd (c.skip 1)
            readFrom style steps (closeBlock before place) blocks c
      | ':' :: _ =>
        let c := (c.skip 1).skipWhile isGap
        let name := c.rest.takeWhile fun d => !isBlank d && d != ';'
        if name.isEmpty then c.fault "\":\" lacks a label"
        else
          let command : EditCommand := ⟨{}, .label (String.ofList name)⟩
          readFrom style steps (command :: before) blocks (c.skip name.length)
      | letter :: _ =>
        let (action, ended, c) ← readAction style letter (c.skip 1)
        let c ← if ended then readEnd c else .ok c
        readFrom style steps (⟨selection, action⟩ :: before) blocks c

/-- **Reading a script.** -/
def read (style : Regex.Style) (text : List Char) : Except Fault (List EditCommand) :=
  readFrom style (text.length + 1) [] [] ⟨text, 0⟩

/-- The first place that a jump misses, if there is one. -/
def missingLabel? (commands : List EditCommand) : Option String :=
  commands.findSome? fun command =>
    match command.action with
    | .jump name _ =>
      if name.isEmpty || commands.any (·.action == .label name) then none else some name
    | _ => none

end EditScript

end LintSuite
