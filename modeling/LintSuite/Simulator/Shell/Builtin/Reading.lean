import LintSuite.Simulator.Shell.Builtin.Basic

/-!
# Commands of the shell that take things apart

`read` reads a line and gives its fields to variables; the last variable gets the rest of the line.
`getopts` takes the options from arguments, one each time it is run (`optionAt`).
-/

namespace LintSuite.Shell.Builtin

open Host Text

/-! ### Lines -/

/-- A line with the ends of lines behind backslashes taken out, as characters that may separate
fields or not, and whether it is complete.  It is read on a number of steps. -/
def readLogical (raw : Bool) : Nat → Process → List (Char × Bool) × Bool × Process
  | 0, p => ([], true, p)
  | steps + 1, p =>
    match p.take 0 Feed.takeLine with
    | none => ([], false, p)
    | some (portion, p) =>
      let cs := Octets.chars (portion.bytes.filter (· != 0))
      let (glyphs, open') := unslashed raw cs
      if open' && !portion.ended && p.isOnward then
        let (more, complete, p) := readLogical raw steps p
        (glyphs ++ more, complete, p)
      else (glyphs, !portion.ended, p)
where
  /-- Characters with the backslashes among them taken out, and whether the last one was one. -/
  unslashed (raw : Bool) : List Char → List (Char × Bool) × Bool
    | [] => ([], false)
    | c :: rest =>
      if c = '\\' && !raw then
        match rest with
        | [] => ([], true)
        | d :: rest =>
          let (more, open') := unslashed raw rest
          ((d, false) :: more, open')
      else
        let (more, open') := unslashed raw rest
        ((c, true) :: more, open')

/-- Whether a character is a blank that separates. -/
def isBlankSeparator (separators : List Char) (g : Char × Bool) : Bool :=
  g.2 && separators.contains g.1 && (g.1 == ' ' || g.1 == '\t' || g.1 == '\n')

/-- Whether a character separates. -/
def isSeparator (separators : List Char) (g : Char × Bool) : Bool :=
  g.2 && separators.contains g.1

/-- The texts for some variables: a field each, and what is left for the last one. -/
def shares (separators : List Char) : List String → List (Char × Bool) → List (String × String)
  | [], _ => []
  | name :: names, glyphs =>
    let glyphs := glyphs.dropWhile (isBlankSeparator separators)
    let text := fun (gs : List (Char × Bool)) => String.ofList (gs.map (·.1))
    let field := glyphs.takeWhile (!isSeparator separators ·)
    let behind := (glyphs.drop field.length).dropWhile (isBlankSeparator separators)
    if names.isEmpty then
      let all := (glyphs.reverse.dropWhile (isBlankSeparator separators)).reverse
      -- A single mark behind the last field does not belong to it.
      let lone := (behind.drop 1).all (isBlankSeparator separators) &&
        behind.head?.all (isSeparator separators)
      [(name, text (if lone then field else all))]
    else
      let rest := match behind with
        | g :: more => if isSeparator separators g then more else behind
        | [] => []
      (name, text field) :: shares separators names rest

/-- Giving variables values, one after another, until one may not have its value; then a command
that is given by its name reports that. -/
def give (name : String) (status : Nat) : List (String × String) → Process → Process
  | [], p => p.withStatus status
  | (variable', value) :: rest, p =>
    match p.assignmentFault? variable' value with
    | some text => (p.object name text).withStatus 2
    | none => give name status rest (p.setVar variable' value)

/-- Reading a line into variables. -/
def read : Utility := optioned "read" false ['r'] ['p'] fun a p =>
  match a.operands with
  | [] => (p.object "read" "arg count").withStatus 2
  | names =>
    match names.find? (!isName ·) with
    | some bad => (p.object "read" (bad ++ ": bad variable name")).withStatus 2
    | none =>
      let (glyphs, complete, p) := readLogical (a.has 'r') 10000 p
      if !p.isOnward then p
      else give "read" (if complete then 0 else 1) (shares (separators p) names glyphs) p

/-! ### Options -/

/-- An option that is found among arguments. -/
structure FoundOption where
  /-- Its letter; a question mark if there is no such option, and a colon if it lacks its value. -/
  letter : Char
  /-- Its value, or the letter at fault. -/
  value : Option String
  /-- What is wrong. -/
  fault : Option String := none
  /-- The place of the argument that is looked at next. -/
  place : Nat
  /-- How many characters of the argument before it have been taken, if it has more. -/
  taken : Option Nat := none

/-- The characters that are looked at next for options, with the place behind their argument and how
many characters in front of them have been taken, or, at the end of the options, only the place. -/
def optionLetters (arguments : List String) (place : Nat) (taken : Option Nat) :
    Except Nat (List Char × Nat × Nat) :=
  let before := match taken with
    | some n => ((arguments[place - 2]?.map String.toList).getD []).drop n
    | none => []
  if 1 < place && !before.isEmpty then .ok (before, place, taken.getD 0)
  else match arguments[place - 1]?.map String.toList with
    | some ['-', '-'] => .error (place + 1)
    | some ('-' :: c :: cs) => .ok (c :: cs, place + 1, 1)
    | _ => .error place

/-- **The option that is found next**, or the place where options end.  The letters of options that
take a value have a colon behind them. -/
def optionAt (quiet : Bool) (letters : List Char) (arguments : List String) (place : Nat)
    (taken : Option Nat) : Except Nat FoundOption := do
  let (cs, place, before) ← optionLetters arguments place taken
  let c := cs.headD '-'
  let rest := cs.drop 1
  let option := String.ofList [c]
  let more := some (before + 1)
  match letters.dropWhile (· != c) with
  | [] =>
    .ok { letter := '?', value := if quiet then some option else none
          fault := some ("Illegal option -" ++ option), place, taken := more }
  | _ :: ':' :: _ =>
    if !rest.isEmpty then .ok { letter := c, value := some (String.ofList rest), place }
    else match arguments[place - 1]? with
      | some value => .ok { letter := c, value := some value, place := place + 1 }
      | none =>
        .ok { letter := if quiet then ':' else '?', value := if quiet then some option else none
              fault := some ("No arg for -" ++ option ++ " option"), place }
  | _ => .ok { letter := c, value := some "", place, taken := more }

/-- Taking one option after another from the arguments. -/
def getopts : Utility := optioned "getopts" false [] [] fun a p =>
  match a.operands with
  | letters :: name :: given =>
    let cs := letters.toList
    let quiet := cs.head? = some ':'
    let arguments := if given.isEmpty then p.arguments else given
    let p := if arguments.length + 1 < p.optionPlace then
        { p with optionPlace := 1, optionTaken := none }
      else p
    let found := optionAt quiet (if quiet then cs.tail else cs) arguments p.optionPlace p.optionTaken
    let p := match found with
      | .ok o => if quiet then p else (o.fault.map p.complain).getD p
      | .error _ => p
    let p := match found with
      | .ok { value := none, .. } => p.unsetVar "OPTARG"
      | _ => p
    let (letter, value, place, taken, status) := match found with
      | .ok o => (o.letter, o.value, o.place, o.taken, 0)
      | .error place => ('?', none, place, none, 1)
    if !isName name then (p.object "getopts" (name ++ ": bad variable name")).withStatus 2
    else
      let after := give "getopts" status ((value.map ("OPTARG", ·)).toList ++
        [("OPTIND", toString place), (name, String.ofList [letter])]) p
      { after with optionPlace := place, optionTaken := taken }
  | _ => (p.object "getopts" "Usage: getopts optstring var [arg...]").withStatus 2

end LintSuite.Shell.Builtin
