import LintSuite.Simulator.Process.Input

/-!
# Batches of arguments

A program can be run with arguments that are read: with all of them at once, or in batches of some
arguments or of some lines each (`Batch.cut`), or with one line at a time in place of a mark
(`Batch.filled`).  What is read is words between blanks, in which quotes and backslashes keep what
they would not (`Batch.read`), or pieces up to a character (`Batch.pieces`).

Nothing is lost on the way: the batches, one behind another, are what was read (`flatten_cut`).
-/

namespace LintSuite

open Text

/-- An argument that was read. -/
structure ReadArgument where
  /-- The argument. -/
  text : String
  /-- Whether a line ends with it. -/
  endsLine : Bool
  deriving DecidableEq, Repr

namespace Batch

/-! ### Reading arguments -/

/-- How the next character is taken. -/
inductive Taking where
  /-- As it is. -/
  | plain
  /-- Between quotes. -/
  | quoted (mark : Char)
  /-- Behind a backslash. -/
  | escaped
  deriving DecidableEq, Repr

/-- Whether a character stands between two words. -/
def isGap (c : Char) : Bool := c = ' ' || c = '\t'

/-- Whether a character may stand in front of a word. -/
def isSpace (c : Char) : Bool := isGap c || c = '\n' || c = '\r' || c = '\x0c' || c = '\x0b'

/-- Arguments from characters, with a quote that is never closed.  `whole` tells whether a line is
one argument, and `word` is the argument so far, its end first. -/
def readFrom (whole : Bool) :
    Taking → Option (List Char) → List Char → List ReadArgument × Option Char
  | .quoted mark, _, [] => ([], some mark)
  | _, word, [] => ((word.map fun w => ⟨String.ofList w.reverse, true⟩).toList, none)
  | .quoted mark, word, c :: rest =>
    if c = '\n' then ([], some mark)
    else if c = mark then readFrom whole .plain word rest
    else readFrom whole (.quoted mark) (some (c :: word.getD [])) rest
  | .escaped, word, c :: rest => readFrom whole .plain (some (c :: word.getD [])) rest
  | .plain, word, c :: rest =>
    match word with
    | none =>
      if isSpace c then readFrom whole .plain none rest
      else if c = '\\' then readFrom whole .escaped (some []) rest
      else if c = '"' || c = '\'' then readFrom whole (.quoted c) (some []) rest
      else readFrom whole .plain (some [c]) rest
    | some w =>
      if c = '\n' || (isGap c && !whole) then
        let (more, fault) := readFrom whole .plain none rest
        (⟨String.ofList w.reverse, c = '\n'⟩ :: more, fault)
      else if c = '\\' then readFrom whole .escaped (some w) rest
      else if c = '"' || c = '\'' then readFrom whole (.quoted c) (some w) rest
      else readFrom whole .plain (some (c :: w)) rest

/-- **Arguments that are words, or whole lines**, with a quote that is never closed. -/
def read (whole : Bool) (bytes : List UInt8) : List ReadArgument × Option Char :=
  readFrom whole .plain none (Octets.chars bytes)

/-- **Arguments that end with an octet each.** -/
def pieces (mark : UInt8) (bytes : List UInt8) : List ReadArgument :=
  let all := Octets.split mark bytes
  let all := if all.getLast? = some [] then all.dropLast else all
  all.map fun piece => ⟨Octets.toText piece, true⟩

/-! ### Batches -/

/-- How much fits into a batch. -/
structure Limits where
  /-- The number of arguments. -/
  arguments : Option Nat := none
  /-- The number of lines. -/
  lines : Option Nat := none
  /-- The number of octets, each argument with one more. -/
  size : Option Nat := none
  deriving DecidableEq, Repr

/-- How long some arguments are. -/
def sizeOf (words : List String) : Nat := words.foldl (fun n w => n + w.length + 1) 0

/-- Whether one more argument fits behind those of a batch. -/
def Limits.admits (l : Limits) (batch : List ReadArgument) (next : ReadArgument) : Bool :=
  l.arguments.all (batch.length < ·) && l.lines.all ((batch.filter (·.endsLine)).length < ·) &&
    l.size.all (sizeOf ((next :: batch).map (·.text)) ≤ ·)

/-- Arguments in batches, behind a batch that is not full yet, its end first. -/
def cutFrom (l : Limits) : List ReadArgument → List ReadArgument → List (List ReadArgument)
  | batch, [] => [batch.reverse]
  | batch, a :: rest =>
    if l.admits batch a then cutFrom l (a :: batch) rest
    else batch.reverse :: cutFrom l [a] rest

/-- **Arguments in batches.** -/
def cut (l : Limits) : List ReadArgument → List (List ReadArgument)
  | [] => []
  | a :: rest => cutFrom l [a] rest

/-- The batches behind one that is begun hold it and the rest. -/
theorem flatten_cutFrom (l : Limits) (batch rest : List ReadArgument) :
    (cutFrom l batch rest).flatten = batch.reverse ++ rest := by
  induction rest generalizing batch with
  | nil => simp [cutFrom]
  | cons a rest ih =>
    by_cases fits : l.admits batch a <;> simp [cutFrom, fits, ih]

/-- Nothing is lost in batches. -/
theorem flatten_cut (l : Limits) (arguments : List ReadArgument) :
    (cut l arguments).flatten = arguments := by
  cases arguments with
  | nil => rfl
  | cons a rest => simp [cut, flatten_cutFrom]

/-- A command with an argument in place of a mark, except in the name of the program. -/
def filled (mark : String) (command : List String) (a : ReadArgument) : List String :=
  command.take 1 ++ (command.drop 1).map (·.replace mark a.text)

/-! ### What is asked for -/

/-- What is wrong with a request. -/
inductive Fault where
  /-- A number is none. -/
  | notNumber (option : Char) (text : String)
  /-- A number is less than another. -/
  | less (option : Char) (text : String) (least : Int)
  /-- A character is described by a text that describes none. -/
  | ending (text : String)
  /-- A character is described by an unknown escape. -/
  | escape (text : String)
  deriving DecidableEq, Repr

/-- The text of a fault, and whether it comes with a hint where to find help. -/
def Fault.message : Fault → String × Bool
  | .notNumber c text => ("invalid number \"" ++ text ++ "\" for -" ++ c.toString ++ " option", true)
  | .less c text least =>
    ("value " ++ text ++ " for -" ++ c.toString ++ " option should be >= " ++ toString least, true)
  | .ending text =>
    ("Invalid input delimiter specification " ++ text ++ ": the delimiter must be either a " ++
      "single character or an escape sequence starting with \\.", false)
  | .escape text =>
    ("Invalid escape sequence " ++ text ++ " in input delimiter specification.", false)

/-- **What is asked for.** -/
structure Request where
  /-- The mark in whose place a line stands. -/
  mark : Option String := none
  /-- How much fits into a batch. -/
  limits : Limits := {}
  /-- The character that ends an argument, instead of blanks. -/
  ending : Option UInt8 := none
  /-- The word that ends the arguments. -/
  last : Option String := none
  /-- The warnings, the last one first. -/
  warnings : List String := []

/-- A warning that an option takes another one back. -/
def Request.unless (r : Request) (isSet : Bool) (former words : String) : Request :=
  if isSet then
    { r with warnings := ("warning: options " ++ former ++ " and " ++ words ++
        " are mutually exclusive, ignoring previous " ++ former ++ " value") :: r.warnings }
  else r

/-- The request with a mark. -/
def Request.withMark (r : Request) (mark : String) : Request :=
  let r := r.unless r.limits.arguments.isSome "--max-args" "--replace/-I/-i"
  let r := r.unless r.limits.lines.isSome "--max-lines" "--replace/-I/-i"
  { r with mark := some mark, limits := { r.limits with arguments := none, lines := none } }

/-- The request with a number of lines; `words` are the names of the option. -/
def Request.withLines (r : Request) (words : String) (n : Nat) : Request :=
  let r := r.unless r.limits.arguments.isSome "--max-args" words
  let r := r.unless r.mark.isSome "--replace" words
  { r with mark := none, limits := { r.limits with arguments := none, lines := some n } }

/-- The request with a number of arguments.  One argument at a time is what a mark means. -/
def Request.withArguments (r : Request) (n : Nat) : Request :=
  if r.mark.isSome && n = 1 then r
  else
    let r := r.unless r.limits.lines.isSome "--max-lines" "--max-args/-n"
    let r := r.unless r.mark.isSome "--replace" "--max-args/-n"
    { r with mark := none, limits := { r.limits with arguments := some n, lines := none } }

/-- The number that a text spells for an option. -/
def number (option : Char) (least : Int) (text : String) : Except Fault Nat :=
  match Numeral.word? text with
  | none => .error (.notNumber option text)
  | some n => if n < least then .error (.less option text least) else .ok n.toNat

/-- The letters of escapes. -/
def escapes : List (Char × UInt8) :=
  [('a', 7), ('b', 8), ('f', 12), ('n', 10), ('r', 13), ('t', 9), ('v', 11), ('\\', 92)]

/-- The octet that a text describes. -/
def endingOf (text : String) : Except Fault UInt8 :=
  let digits := fun (base : Nat) (cs : List Char) => cs.foldl (fun (n : Option Nat) c => do
    let d := if c.isDigit then c.toNat - 48 else c.toLower.toNat - 87
    if c.isAlphanum && d < base then some (base * (← n) + d) else none) (some 0)
  match text.toList with
  | [c] => .ok (UInt8.ofNat c.toNat)
  | ['\\', c] =>
    match escapes.find? (·.1 == c), digits 8 [c] with
    | some (_, b), _ => .ok b
    | none, some n => .ok (UInt8.ofNat n)
    | none, none => .error (.escape text)
  | '\\' :: 'x' :: cs =>
    match digits 16 cs with
    | some n => .ok (UInt8.ofNat n)
    | none => .error (.escape text)
  | '\\' :: cs =>
    match digits 8 cs with
    | some n => .ok (UInt8.ofNat n)
    | none => .error (.escape text)
  | _ => .error (.ending text)

/-- The request with one more option. -/
def Request.withOption (r : Request) : Char × String → Except Fault Request
  | ('0', _) => .ok { r with ending := some 0 }
  | ('d', text) => do .ok { r with ending := some (← endingOf text) }
  | ('E', text) => .ok { r with last := some text }
  | ('e', text) => .ok { r with last := if text.isEmpty then none else some text }
  | ('I', text) => .ok (r.withMark text)
  | ('i', text) => .ok (r.withMark (if text.isEmpty then "\x7b\x7d" else text))
  | ('L', text) => do .ok (r.withLines "-L" (← number 'L' 1 text))
  | ('l', text) => do
    .ok (r.withLines "--max-lines/-l" (← number 'l' 1 (if text.isEmpty then "1" else text)))
  | ('n', text) => do .ok (r.withArguments (← number 'n' 1 text))
  | ('s', text) => do
    .ok { r with limits := { r.limits with size := some (← number 's' 1 text) } }
  | ('P', text) => do
    let _ ← number 'P' 0 text
    .ok r
  | _ => .ok r

/-- What options ask for. -/
def Request.ofOptions (options : List (Char × String)) : Except Fault Request :=
  options.foldlM Request.withOption {}

/-- The arguments that some octets hold, with a quote that is never closed. -/
def Request.argumentsIn (r : Request) (bytes : List UInt8) : List ReadArgument × Option Char :=
  match r.ending with
  | some mark => (pieces mark bytes, none)
  | none =>
    let (all, fault) := read r.mark.isSome bytes
    match r.last with
    | none => (all, fault)
    | some last =>
      let kept := all.takeWhile (·.text != last)
      (kept, if kept.length < all.length then none else fault)

/-- The calls of a command with what was read. -/
def Request.calls (r : Request) (command : List String) (empty : Bool)
    (arguments : List ReadArgument) : List (List String) :=
  match r.mark with
  | some mark => arguments.map (filled mark command)
  | none =>
    if arguments.isEmpty then (if empty then [command] else [])
    else
      let room := { r.limits with size := r.limits.size.map (· - sizeOf command) }
      (cut room arguments).map fun batch => command ++ batch.map (·.text)

end Batch

end LintSuite
