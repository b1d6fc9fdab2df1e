import LintSuite.Simulator.Shell.Script

/-!
# The text of a script as it is read

A script is read from a *source*: the text that is left, the line it stands on, and what has been
noticed on the way.  A word that is an alias is taken out and the text of the alias put in its
place; until that has been read the alias does not stand for itself again (`Source.alias?`).

Here-documents stand below the line that asks for them.  A line is therefore read twice if it asks
for any: the first time shows their texts (`Source.documents`), and the second time, when they are
known, each is put where it was asked for.
-/

namespace LintSuite.Shell

/-- Characters that end a word. -/
def endsWord (c : Char) : Bool :=
  [' ', '\t', '\n', ';', '&', '|', '<', '>', '(', ')'].contains c

/-- Characters of a name. -/
def isNameChar (c : Char) : Bool := c.isAlphanum || c == '_'

/-- Characters that begin a name. -/
def isNameStart (c : Char) : Bool := c.isAlpha || c == '_'

/-- Whether a text is a name. -/
def isName (text : String) : Bool :=
  match text.toList with
  | c :: rest => isNameStart c && rest.all isNameChar
  | [] => false

/-- Parameters that the shell itself sets, apart from the arguments. -/
def isSpecialParameter (c : Char) : Bool := ['@', '*', '#', '?', '-', '$', '!'].contains c

/-- The ways in which a redirection is written. -/
inductive Arrow where
  /-- Reading a file. -/
  | input
  /-- Reading a text below, in which tabs in front of lines may not count. -/
  | document (tabs : Bool)
  /-- Writing a file. -/
  | output (writing : Writing)
  /-- Another descriptor. -/
  | duplicate
  deriving DecidableEq, Repr

/-- What a script is made of. -/
inductive Token where
  /-- The end of the text. -/
  | finish
  /-- The end of a line. -/
  | newline
  /-- A sign between words. -/
  | sign (text : String)
  /-- A redirection of a descriptor. -/
  | arrow (descriptor : Nat) (a : Arrow)
  /-- A word. -/
  | word (w : Word)
  /-- A word with a meaning of its own. -/
  | keyword (text : String)

/-- A token as a message shows it. -/
def Token.shown : Token → String
  | .finish => "end of file"
  | .newline => "newline"
  | .sign text => "\"" ++ text ++ "\""
  | .arrow _ _ => "redirection"
  | .word _ => "word"
  | .keyword text => "\"" ++ text ++ "\""

/-- Whether a token ends a list of commands that stands inside of another command. -/
def Token.endsList : Token → Bool
  | .finish => true
  | .sign text => text = ")" || text = ";;"
  | .keyword text =>
    ["then", "else", "elif", "fi", "do", "done", "esac", "\x7d"].contains text
  | _ => false

/-- How a here-document ends. -/
structure Mark where
  /-- The text of its last line. -/
  text : List Char
  /-- Whether tabs in front of lines do not count. -/
  tabs : Bool
  /-- Whether everything in it stands for itself. -/
  plain : Bool
  deriving DecidableEq, Repr

/-- A text that stands in the place of an alias. -/
structure Replacement where
  /-- The name of the alias. -/
  name : String
  /-- How much text is left when this one has been read. -/
  left : Nat
  /-- Whether the word behind it may be an alias, too. -/
  goesOn : Bool
  deriving DecidableEq, Repr

/-- **What is left of a script**, and what is known about it. -/
structure Source where
  /-- The text that is left. -/
  rest : List Char
  /-- The line. -/
  line : Nat := 1
  /-- The aliases. -/
  aliases : List (String × String) := []
  /-- The texts in the places of aliases, the innermost first. -/
  replacements : List Replacement := []
  /-- A token that has been read and is to be read again. -/
  ahead : Option Token := none
  /-- The here-documents that this line has asked for, by their numbers. -/
  wanted : List (Nat × Mark) := []
  /-- How many here-documents have been asked for. -/
  asked : Nat := 0
  /-- The here-documents that have been read. -/
  documents : List (Nat × Word) := []
  /-- The here-documents that were read the first time. -/
  known : List (Nat × Word) := []
  /-- The text behind a here-document that is at its end. -/
  behind : Option (List Char) := none

/-- A fault of a script. -/
structure SyntaxFault where
  /-- The line it was noticed on. -/
  line : Nat
  /-- What is wrong. -/
  text : String
  deriving DecidableEq, Repr

/-- The fault of a quote without its partner. -/
def unterminated : String := "Unterminated quoted string"

namespace Source

/-- A fault at a source. -/
def fault {α : Type} (src : Source) (text : String) : Except SyntaxFault α :=
  .error ⟨src.line, text⟩

/-- The fault of a token that does not belong where it stands. -/
def unexpected {α : Type} (src : Source) (t : Token) : Except SyntaxFault α :=
  src.fault (t.shown ++ " unexpected")

/-- The fault of a token where another one belongs. -/
def expected {α : Type} (src : Source) (t : Token) (text : String) : Except SyntaxFault α :=
  src.fault (t.shown ++ " unexpected (expecting \"" ++ text ++ "\")")

/-- The source behind some characters, which are the next ones. -/
def past (src : Source) (read : List Char) : Source :=
  { src with rest := src.rest.drop read.length, line := src.line + read.count '\n' }

/-- The source with a token to be read again. -/
def back (src : Source) (t : Token) : Source := { src with ahead := some t }

/-- How many ends of lines behind backslashes come next, and the text behind them. -/
def joints : List Char → Nat × List Char
  | '\\' :: '\n' :: rest =>
    let (n, rest) := joints rest
    (n + 1, rest)
  | cs => (0, cs)

/-- The source behind ends of lines that a backslash takes away. -/
def joined (src : Source) : Source :=
  match joints src.rest with
  | (0, _) => src
  | (n, rest) => { src with rest, line := src.line + n }

/-- The next character, behind ends of lines that are taken away, and the source behind it. -/
def next? (src : Source) : Option (Char × Source) :=
  let src := src.joined
  src.rest.head?.map fun c => (c, src.past [c])

/-- The next characters of a kind, and the source behind them, on a number of steps. -/
def spanFrom (kind : Char → Bool) : Nat → Source → List Char × Source
  | 0, src => ([], src)
  | steps + 1, src =>
    match src.next? with
    | some (c, after) =>
      if kind c then
        let (more, after) := spanFrom kind steps after
        (c :: more, after)
      else ([], src.joined)
    | none => ([], src)

/-- The next characters of a kind, and the source behind them. -/
def span (kind : Char → Bool) (src : Source) : List Char × Source :=
  spanFrom kind (src.rest.length + 1) src

/-- The source behind blanks and comments of a line, on a number of steps. -/
def pastBlanksFrom : Nat → Source → Source
  | 0, src => src
  | steps + 1, src =>
    let src := src.joined
    match src.rest with
    | ' ' :: rest => pastBlanksFrom steps { src with rest }
    | '\t' :: rest => pastBlanksFrom steps { src with rest }
    | '#' :: rest => { src with rest := rest.dropWhile (· != '\n') }
    | _ => src

/-- The source behind blanks and comments of a line. -/
def pastBlanks (src : Source) : Source := pastBlanksFrom (src.rest.length + 1) src

/-! ### Aliases -/

/-- The text that stands for a word, if it is an alias: unless it stands in its own text. -/
def alias? (src : Source) (name : String) : Option String :=
  (src.aliases.find? (·.1 == name)).bind fun (_, value) =>
    if src.replacements.any fun r => r.name == name && r.left ≤ src.rest.length then none
    else some value

/-- The source with a text in the place of an alias that has just been read. -/
def replace (src : Source) (name value : String) : Source :=
  let cs := value.toList
  let goesOn := cs.getLast? = some ' ' || cs.getLast? = some '\t'
  let left := src.rest.length
  { src with
    rest := cs ++ src.rest
    replacements := ⟨name, left, goesOn⟩ :: src.replacements.filter (left ≥ ·.left) }

/-- Whether between two places a text ends that stands in the place of an alias, and lets the next
word be an alias. -/
def passes (src after : Source) : Bool :=
  src.replacements.any fun r =>
    r.goesOn && r.left ≤ src.rest.length && after.rest.length < r.left

/-! ### Here-documents -/

/-- The source at the beginning of a line of a here-document, which may be over there. -/
def atLine (m : Mark) (src : Source) : Source :=
  let src := if m.plain then src else src.joined
  let src := if m.tabs then { src with rest := src.rest.dropWhile (· == '\t') } else src
  let ended := fun (rest : List Char) =>
    { src with rest := [], behind := some rest, line := src.line + 1 }
  if m.text.isPrefixOf src.rest then
    match src.rest.drop m.text.length with
    | [] => ended []
    | '\n' :: rest => ended rest
    | _ => src
  else src

/-- The source behind a here-document. -/
def resumed (src : Source) : Source :=
  { src with rest := src.behind.getD [], behind := none }

/-- The lines of a here-document in which everything stands for itself, on a number of steps. -/
def plainLines (m : Mark) : Nat → Source → List Char × Source
  | 0, src => ([], src)
  | steps + 1, src =>
    let src := src.atLine m
    if src.rest.isEmpty then ([], src)
    else
      let line := src.rest.takeWhile (· != '\n') ++ (src.rest.dropWhile (· != '\n')).take 1
      let (more, after) := plainLines m steps (src.past line)
      (line ++ more, after)

/-- The source with a here-document asked for, and its text if it is known. -/
def want (m : Mark) (src : Source) : Word × Source :=
  (((src.known.find? (·.1 == src.asked)).map (·.2)).getD [],
    { src with asked := src.asked + 1, wanted := src.wanted ++ [(src.asked, m)] })

end Source

end LintSuite.Shell
