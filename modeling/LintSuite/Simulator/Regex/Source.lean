import LintSuite.Regex.Basic

/-!
# Reading patterns

A pattern is written in one of two ways.  In the *basic* way brackets, bars, braces and the signs
for repetition mean themselves, and are given their other meaning by a backslash; in the *extended*
way it is the other way round.  What is written becomes a list of signs (`Sign`), and these become a
pattern (`Regex.read`).  A sign for repetition that has nothing to repeat means itself in the basic
way, and nothing in the extended way.
-/

namespace LintSuite.Regex

/-- The ways of writing a pattern. -/
inductive Style where
  /-- Without a backslash, most characters mean themselves. -/
  | basic
  /-- Without a backslash, many characters have a meaning. -/
  | extended
  deriving DecidableEq, Repr

/-- What is wrong with a pattern. -/
inductive Fault where
  /-- A round bracket is not closed. -/
  | openGroup
  /-- A round bracket is not opened. -/
  | closedGroup
  /-- A square bracket is not closed. -/
  | openSet
  /-- A brace is not closed. -/
  | openBrace
  /-- What stands between braces is no number of times. -/
  | brace
  /-- A range goes down. -/
  | range
  /-- There is no such class. -/
  | unknownClass
  /-- There is no such group. -/
  | unknownGroup
  /-- A backslash stands at the end. -/
  | backslash
  /-- There is nothing to repeat. -/
  | nothing
  deriving DecidableEq, Repr

/-- The text of a fault. -/
def Fault.message : Fault → String
  | .openGroup => "Unmatched ( or \\("
  | .closedGroup => "Unmatched ) or \\)"
  | .openSet => "Unmatched [, [^, [:, [., or [="
  | .openBrace => "Unmatched \\\x7b"
  | .brace => "Invalid content of \\\x7b\\\x7d"
  | .range => "Invalid range end"
  | .unknownClass => "Invalid character class name"
  | .unknownGroup => "Invalid back reference"
  | .backslash => "Trailing backslash"
  | .nothing => "Invalid preceding regular expression"

/-- A sign of a pattern. -/
inductive Sign where
  /-- A pattern of its own. -/
  | item (p : Regex)
  /-- A number of times. -/
  | times (least : Nat) (most : Option Nat)
  /-- The start of a group. -/
  | open'
  /-- The end of a group. -/
  | close
  /-- A choice. -/
  | bar
  deriving Repr

/-! ### Sets -/

/-- The ranges of the class of a name. -/
def classRanges? (name : String) : Option (List (Char × Char)) :=
  let upper := ('A', 'Z')
  let lower := ('a', 'z')
  let digit := ('0', '9')
  match name with
  | "upper" => some [upper]
  | "lower" => some [lower]
  | "alpha" => some [upper, lower]
  | "digit" => some [digit]
  | "alnum" => some [upper, lower, digit]
  | "blank" => some [(' ', ' '), ('\t', '\t')]
  | "space" => some [(' ', ' '), ('\t', '\x0d')]
  | "cntrl" => some [('\x00', '\x1f'), ('\x7f', '\x7f')]
  | "graph" => some [('!', '~')]
  | "print" => some [(' ', '~')]
  | "punct" => some [('!', '/'), (':', '@'), ('[', '\x60'), ('\x7b', '~')]
  | "xdigit" => some [digit, ('A', 'F'), ('a', 'f')]
  | _ => none

/-- The characters of a word. -/
def wordRanges : List (Char × Char) := [('A', 'Z'), ('a', 'z'), ('0', '9'), ('_', '_')]

/-- The end of a range, and what follows it. -/
def rangeEnd : List Char → Option (Char × List Char)
  | '[' :: '.' :: c :: '.' :: ']' :: rest => some (c, rest)
  | ']' :: _ => none
  | c :: rest => some (c, rest)
  | [] => none

/-- The ranges of a set up to its bracket, and what follows it. -/
def readSet : Nat → Bool → List (Char × Char) → List Char →
    Except Fault (List (Char × Char) × List Char)
  | 0, _, _, _ => .error .openSet
  | steps + 1, first, ranges, cs =>
    match cs with
    | [] => .error .openSet
    | ']' :: rest => if first then readMember steps ranges ']' rest else .ok (ranges, rest)
    | '[' :: ':' :: rest =>
      let name := rest.takeWhile fun c => c != ':' && c != ']'
      match rest.drop name.length with
      | ':' :: ']' :: rest =>
        match classRanges? (String.ofList name) with
        | some more => readSet steps false (more ++ ranges) rest
        | none => .error .unknownClass
      | _ => .error .openSet
    | '[' :: '=' :: c :: '=' :: ']' :: rest => readSet steps false ((c, c) :: ranges) rest
    | '[' :: '.' :: c :: '.' :: ']' :: rest => readMember steps ranges c rest
    | c :: rest => readMember steps ranges c rest
where
  /-- The ranges of a set behind a character that may start a range. -/
  readMember (steps : Nat) (ranges : List (Char × Char)) (c : Char) (rest : List Char) :
      Except Fault (List (Char × Char) × List Char) :=
    match rest with
    | '-' :: more =>
      match rangeEnd more with
      | some (d, more) =>
        if d < c then .error .range else readSet steps false ((c, d) :: ranges) more
      | none => readSet steps false ((c, c) :: ranges) rest
    | _ => readSet steps false ((c, c) :: ranges) rest

/-- The set behind its bracket, and what follows it. -/
def readBracket (cs : List Char) : Except Fault (Sign × List Char) :=
  let (negated, cs) := match cs with
    | '^' :: rest => (true, rest)
    | _ => (false, cs)
  match readSet (2 * cs.length + 2) true [] cs with
  | .ok (ranges, rest) => .ok (.item (.oneOf negated ranges), rest)
  | .error e => .error e

/-! ### Signs -/

/-- A number of times up to a closing text, and what follows it. -/
def readTimes (closing : List Char) (cs : List Char) : Except Fault (Sign × List Char) :=
  let value := fun (digits : List Char) =>
    digits.foldl (fun n c => n * 10 + (c.toNat - '0'.toNat)) 0
  let first := cs.takeWhile Char.isDigit
  let rest := cs.drop first.length
  let (most, rest) := match rest with
    | ',' :: more =>
      let second := more.takeWhile Char.isDigit
      (if second.isEmpty then none else some (value second), more.drop second.length)
    | _ => (some (value first), rest)
  if closing.isPrefixOf rest then
    if first.isEmpty && most.isNone && !cs.head? == some ',' then .error .brace
    else if most.any (· < value first) then .error .brace
    else .ok (.times (value first) most, rest.drop closing.length)
  else if rest.isEmpty then .error .openBrace
  else .error .brace

/-- The sign of a letter behind a backslash that means the same in both ways. -/
def escaped? (c : Char) : Option Sign :=
  match c with
  | 'w' => some (.item (.oneOf false wordRanges))
  | 'W' => some (.item (.oneOf true wordRanges))
  | 's' => some (.item (.oneOf false [(' ', ' '), ('\t', '\x0d')]))
  | 'S' => some (.item (.oneOf true [(' ', ' '), ('\t', '\x0d')]))
  | '<' => some (.item (.border (some true)))
  | '>' => some (.item (.border (some false)))
  | 'b' => some (.item (.border none))
  | 'B' => some (.item .noBorder)
  | '\x60' => some (.item .start)
  | '\'' => some (.item .stop)
  | _ => if '1' ≤ c && c ≤ '9' then some (.item (.again (c.toNat - '0'.toNat))) else none

/-- The sign for a character that has a meaning, with a backslash or without one. -/
def special? (c : Char) : Option Sign :=
  match c with
  | '(' => some .open'
  | ')' => some .close
  | '|' => some .bar
  | '+' => some (.times 1 none)
  | '?' => some (.times 0 (some 1))
  | _ => none

/-- Whether the end of a pattern, or of a choice or group in it, comes next. -/
def atEnd (style : Style) (cs : List Char) : Bool :=
  match style, cs with
  | _, [] => true
  | .basic, '\\' :: ')' :: _ => true
  | .basic, '\\' :: '|' :: _ => true
  | _, '\n' :: _ => true
  | .extended, _ => true
  | _, _ => false

/-- The sign at the front of some characters, at the start of a choice or not, and what follows. -/
def readSign (style : Style) (first : Bool) : List Char → Except Fault (Sign × List Char)
  | [] => .ok (.item .empty, [])
  | ['\\'] => .error .backslash
  | '\\' :: c :: rest =>
    match style, special? c with
    | .basic, some sign => .ok (sign, rest)
    | _, _ =>
      if c = '\x7b' && style = .basic then readTimes ['\\', '\x7d'] rest
      else .ok ((escaped? c).getD (.item (.char c)), rest)
  | '[' :: rest => readBracket rest
  | '.' :: rest => .ok (.item .any, rest)
  | '*' :: rest =>
    if first && style = .basic then .ok (.item (.char '*'), rest) else .ok (.times 0 none, rest)
  | '^' :: rest =>
    .ok (if first || style = .extended then .item .start else .item (.char '^'), rest)
  | '$' :: rest => .ok (if atEnd style rest then .item .stop else .item (.char '$'), rest)
  | c :: rest =>
    match style, special? c with
    | .extended, some sign => .ok (sign, rest)
    | _, _ =>
      if c = '\x7b' && style = .extended then
        match readTimes ['\x7d'] rest with
        | .ok result => if rest.head?.any Char.isDigit || rest.head? = some ',' then .ok result
            else .ok (.item (.char c), rest)
        | .error e =>
          -- Braces without a number of times mean themselves, unless the numbers are in disorder.
          if e = .brace && (rest.takeWhile fun d => d.isDigit || d == ',').length > 0 &&
              (rest.dropWhile fun d => d.isDigit || d == ',').head? = some '\x7d' then .error e
          else .ok (.item (.char c), rest)
      else .ok (.item (.char c), rest)

/-- The signs of some characters. -/
def readSigns (style : Style) : Nat → Bool → List Char → Except Fault (List Sign)
  | 0, _, _ => .ok []
  | _ + 1, _, [] => .ok []
  | steps + 1, first, cs => do
    let (sign, rest) ← readSign style first cs
    let next := match sign with
      | .open' => true
      | .bar => true
      | .item .start => first
      | _ => false
    .ok (sign :: (← readSigns style steps next rest))

/-! ### Patterns -/

/-- Patterns one after another. -/
def inTurn : List Regex → Regex
  | [] => .empty
  | [p] => p
  | p :: rest => .followed p (inTurn rest)

mutual

/-- A choice between patterns, the groups that were started, and the signs that follow. -/
def readChoice : Nat → Nat → List Sign → Except Fault (Regex × Nat × List Sign)
  | 0, groups, signs => .ok (.empty, groups, signs)
  | steps + 1, groups, signs => do
    let (p, groups, signs) ← readTurn steps groups [] signs
    match signs with
    | .bar :: rest =>
      let (q, groups, signs) ← readChoice steps groups rest
      .ok (.either p q, groups, signs)
    | _ => .ok (p, groups, signs)

/-- Patterns one after another, behind those that were read, the latest first. -/
def readTurn : Nat → Nat → List Regex → List Sign → Except Fault (Regex × Nat × List Sign)
  | 0, groups, before, signs => .ok (inTurn before.reverse, groups, signs)
  | steps + 1, groups, before, signs =>
    match signs with
    | .item p :: rest => readTurn steps groups (p :: before) rest
    | .times least most :: rest =>
      match before with
      | p :: before => readTurn steps groups (.repeated p least most :: before) rest
      | [] => readTurn steps groups [] rest
    | .open' :: rest => do
      let n := groups + 1
      let (p, groups, signs) ← readChoice steps n rest
      match signs with
      | .close :: rest => readTurn steps groups (.group n p :: before) rest
      | _ => .error .openGroup
    | _ => .ok (inTurn before.reverse, groups, signs)

end

/-- Whether all groups that signs refer to are there. -/
def refersTo (groups : Nat) (signs : List Sign) : Bool :=
  signs.all fun sign => match sign with
    | .item (.again n) => n ≤ groups
    | _ => true

/-- **Reading a pattern.** -/
def read (style : Style) (cs : List Char) : Except Fault Regex := do
  let signs ← readSigns style (cs.length + 1) true cs
  let (p, groups, rest) ← readChoice (2 * signs.length + 2) 0 signs
  if !rest.isEmpty then .error .closedGroup
  else if refersTo groups signs then .ok p
  else .error .unknownGroup

end LintSuite.Regex
