/-!
# Patterns of the shell

A pattern is a list of items, each of which fits one character, any character, any text, or one
character of a set.  It is read from characters that know whether they stood inside quotes: a quoted
character stands for itself.
-/

namespace LintSuite.Shell

/-- A character, and whether it may have a meaning of its own. -/
abbrev Glyph := Char × Bool

/-- An item of a pattern. -/
inductive GlobItem where
  /-- A character. -/
  | only (c : Char)
  /-- Any character. -/
  | anyOne
  /-- Any text. -/
  | anyText
  /-- A character of some ranges, or of none of them. -/
  | set (negated : Bool) (ranges : List (Char × Char))
  deriving DecidableEq, Repr

namespace Glob

/-- The ranges of the classes that have names. -/
def classes : List (String × List (Char × Char)) :=
  [("alpha", [('a', 'z'), ('A', 'Z')]), ("digit", [('0', '9')]),
    ("alnum", [('a', 'z'), ('A', 'Z'), ('0', '9')]), ("upper", [('A', 'Z')]),
    ("lower", [('a', 'z')]), ("space", [('\t', '\r'), (' ', ' ')]),
    ("blank", [('\t', '\t'), (' ', ' ')]), ("punct", [('!', '/'), (':', '@'), ('[', '\x60'),
      ('\x7b', '~')]), ("print", [(' ', '~')]), ("graph", [('!', '~')]),
    ("cntrl", [('\x00', '\x1f'), ('\x7f', '\x7f')]),
    ("xdigit", [('0', '9'), ('a', 'f'), ('A', 'F')])]

/-- The ranges of a class at the front of a text, behind its bracket, and what follows it. -/
def class? (cs : List Glyph) : Option (List (Char × Char) × List Glyph) :=
  match cs with
  | (':', _) :: rest =>
    let name := rest.takeWhile (·.1.isAlpha)
    match rest.drop name.length with
    | (':', _) :: (']', _) :: behind =>
      (classes.find? (·.1 == String.ofList (name.map (·.1)))).map fun c => (c.2, behind)
    | _ => none
  | _ => none

/-- The ranges of a set up to its bracket, and what follows it, read on a number of steps. -/
def setRanges : Nat → List Glyph → Option (List (Char × Char) × List Glyph)
  | 0, _ => none
  | _ + 1, [] => none
  | steps + 1, (c, active) :: rest =>
    if c = ']' && active then some ([], rest)
    else
      let (ranges, rest) := match if c = '[' && active then class? rest else none with
        | some (ranges, behind) => (ranges, behind)
        | none =>
          match rest with
          | ('-', true) :: (d, b) :: more =>
            if d = ']' && b then ([(c, c)], rest) else ([(c, d)], more)
          | _ => ([(c, c)], rest)
      (setRanges steps rest).map fun (more, behind) => (ranges ++ more, behind)

/-- The ranges of a set and what follows it.  A bracket that comes first belongs to the set. -/
def setBody (cs : List Glyph) : Option (List (Char × Char) × List Glyph) :=
  match cs with
  | (']', _) :: rest => setRanges (cs.length + 1) ((']', false) :: rest)
  | _ => setRanges (cs.length + 1) cs

/-- The items of a pattern. -/
def itemsFrom : Nat → List Glyph → List GlobItem
  | 0, _ => []
  | _, [] => []
  | steps + 1, (c, active) :: rest =>
    if !active then .only c :: itemsFrom steps rest
    else if c = '?' then .anyOne :: itemsFrom steps rest
    else if c = '*' then .anyText :: itemsFrom steps rest
    else if c = '[' then
      let (negated, inside) := match rest with
        | ('!', _) :: more => (true, more)
        | ('^', _) :: more => (true, more)
        | _ => (false, rest)
      match setBody inside with
      | some (ranges, rest) => .set negated ranges :: itemsFrom steps rest
      | none => .only c :: itemsFrom steps rest
    else .only c :: itemsFrom steps rest

/-- The items of a pattern. -/
def items (cs : List Glyph) : List GlobItem := itemsFrom cs.length cs

/-- Whether any item stands for more than itself. -/
def isActive (pattern : List GlobItem) : Bool :=
  pattern.any fun item => match item with
    | .only _ => false
    | _ => true

/-- Whether a character fits an item. -/
def fitsOne (item : GlobItem) (c : Char) : Bool :=
  match item with
  | .only d => c == d
  | .anyOne => true
  | .anyText => false
  | .set negated ranges => (ranges.any fun r => r.1 ≤ c && c ≤ r.2) != negated

/-- The text and what is left of it when characters are taken off its front. -/
def remainders : List Char → List (List Char)
  | [] => [[]]
  | c :: rest => (c :: rest) :: remainders rest

/-- **Whether a text fits a pattern.** -/
def fits : List GlobItem → List Char → Bool
  | [], cs => cs.isEmpty
  | .anyText :: rest, cs => (remainders cs).any (fits rest)
  | item :: rest, cs =>
    match cs with
    | c :: more => fitsOne item c && fits rest more
    | [] => false

/-- **The text without a front or a back that fits a pattern**, the shortest one or the longest. -/
def trim (front longest : Bool) (pattern : List GlobItem) (cs : List Char) : List Char :=
  let lengths := (List.range (cs.length + 1)).filter fun n =>
    fits pattern (if front then cs.take n else cs.drop (cs.length - n))
  match if longest then lengths.getLast? else lengths.head? with
  | some n => if front then cs.drop n else cs.take (cs.length - n)
  | none => cs

end Glob

end LintSuite.Shell
