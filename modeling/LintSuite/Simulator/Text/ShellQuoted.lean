import LintSuite.Simulator.Text.Octets

/-!
# Names between quotes

Messages about files quote their names in such a way that a shell would read the name again.  What
cannot be printed stands as an escape behind a dollar sign.  `always` quotes every name, `asNeeded`
those that a shell would not read as they stand, or that a reader might take for more than a name.
-/

namespace LintSuite.Text.ShellQuoted

/-- The letters of escapes. -/
def letters : List (Char × Char) :=
  [('\x07', 'a'), ('\x08', 'b'), ('\x0c', 'f'), ('\n', 'n'), ('\r', 'r'), ('\t', 't'),
    ('\x0b', 'v')]

/-- Whether an octet can be printed. -/
def isPrinted (c : Char) : Bool := ' ' ≤ c && c ≤ '~'

/-- The escape of an octet that cannot be printed. -/
def escape (c : Char) : List Char :=
  match letters.find? (·.1 == c) with
  | some (_, letter) => ['\\', letter]
  | none =>
    let digits := Nat.toDigits 8 c.toNat
    '\\' :: List.replicate (3 - digits.length) '0' ++ digits

/-- Whether a name with one of its characters at a place means the same between both kinds of
quotes. -/
def isUnquoted (first : Bool) (c : Char) : Bool :=
  c.isAlphanum || " '%+,-./:]_".contains c || (first && (c = '#' || c = '~'))

/-- Whether all characters of a name mean the same between both kinds of quotes. -/
def allUnquoted : List Char → Bool
  | [] => true
  | c :: rest => isUnquoted true c && rest.all (isUnquoted false)

/-- The characters of a name between quotes; `escaping` tells whether the quotes are those of
escapes. -/
def body (escaping : Bool) : List Char → List Char
  | [] => []
  | c :: rest =>
    if !isPrinted c then
      (if escaping then [] else "'$'".toList) ++ escape c ++ body true rest
    else if c = '\'' then "'\\''".toList ++ body false rest
    else (if escaping then "''".toList else []) ++ c :: body false rest

/-- **A name between quotes.**  One that holds a quote and ends with an escape begins as if an escape
stood before it. -/
def always (name : String) : String :=
  let cs := name.toList
  if cs.contains '\'' && allUnquoted cs then "\"" ++ name ++ "\""
  else "'" ++ String.ofList (body (cs.contains '\'' && cs.getLast?.any (!isPrinted ·)) cs) ++ "'"

/-- Whether a character makes quotes necessary, at the front of a name or further on. -/
def isSpecial (first : Bool) (c : Char) : Bool :=
  !isPrinted c || " !\"$&()*;<=>[^\x60|\\'?".contains c || (first && (c = '#' || c = '~'))

/-- Whether a shell would not read a name as it stands. -/
def isNeeded : List Char → Bool
  | [] => true
  | [c] => isSpecial true c || c = '\x7b' || c = '\x7d'
  | c :: rest => isSpecial true c || rest.any (isSpecial false)

/-- **A word of a command**, between quotes if they are needed. -/
def word (text : String) : String := if isNeeded text.toList then always text else text

/-- **A name, between quotes if they are needed**, or if a colon in it might be taken for the end of
the name. -/
def asNeeded (name : String) : String :=
  if name.toList.contains ':' then always name else word name

/-- **A text between quotes** with what cannot be printed, quotes and backslashes as escapes. -/
def plain (text : String) : String :=
  "'" ++ String.ofList (text.toList.flatMap fun c =>
    if !isPrinted c then escape c else if c = '\'' || c = '\\' then ['\\', c] else [c]) ++ "'"

end LintSuite.Text.ShellQuoted
