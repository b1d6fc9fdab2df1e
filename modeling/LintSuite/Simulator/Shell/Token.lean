import LintSuite.Simulator.Shell.Source

/-!
# Reading words and tokens

A word is read piece by piece (`readPieces`), up to where its quotes, its braces or the word itself
end; what means something in it depends on what it stands in (`Quoting`).  The commands inside a
word are read as commands, by the reader that all readers here are given.

`readToken` reads the next token of a script, a word or a sign.  It puts texts in the places of
aliases and finds the words that have a meaning of their own, where these may stand.

Every reader takes a bound on its steps, for which a small multiple of the length of the text is
enough.
-/

namespace LintSuite.Shell

/-- Where text stands. -/
inductive Quoting where
  /-- Outside of quotes. -/
  | bare
  /-- Outside of quotes, where nothing is expanded. -/
  | unexpanded
  /-- Between quotes. -/
  | quoted
  /-- Between quotes, where nothing is expanded. -/
  | quotedUnexpanded
  /-- Between braces outside of quotes, or in a pattern. -/
  | bareBraces
  /-- Between braces inside quotes. -/
  | quotedBraces
  /-- Between quotes inside braces. -/
  | bracesQuoted
  /-- In a here-document. -/
  | document
  /-- In a calculation, inside a number of brackets. -/
  | arithmetic (brackets : Nat)
  deriving DecidableEq, Repr

namespace Quoting

/-- Whether text stands outside of quotes. -/
def isBare (q : Quoting) : Bool := q = .bare || q = .unexpanded || q = .bareBraces

/-- Whether expansions mean nothing. -/
def isUnexpanded (q : Quoting) : Bool := q = .unexpanded || q = .quotedUnexpanded

/-- Whether a character ends what text stands in. -/
def stops (q : Quoting) (c : Char) : Bool :=
  match q with
  | .bare | .unexpanded => endsWord c
  | .quoted | .quotedUnexpanded | .bracesQuoted => c == '"'
  | .bareBraces | .quotedBraces => c == '\x7d'
  | .document | .arithmetic _ => false

/-- Whether a backslash takes a character its meaning. -/
def escapes (q : Quoting) (c : Char) : Bool :=
  q.isBare || c == '$' || c == '\x60' || c == '\\' || (c == '"' && q != .document) ||
    (c == '\x7d' && (q == .quotedBraces || q == .bracesQuoted))

/-- What the text between two quotes stands in. -/
def insideQuotes : Quoting → Quoting
  | .bare => .quoted
  | .unexpanded => .quotedUnexpanded
  | _ => .bracesQuoted

/-- What the text between two braces stands in. -/
def insideBraces (q : Quoting) : Quoting := if q.isBare then .bareBraces else .quotedBraces

/-- What is wrong if the text ends here; `document` tells whether that is a here-document. -/
def unclosed? (q : Quoting) (document : Bool) : Option String :=
  match q with
  | .bare | .unexpanded | .document => none
  | .quoted | .quotedUnexpanded => some unterminated
  | .bareBraces => some "Missing '\x7d'"
  | .quotedBraces | .bracesQuoted => some (if document then "Missing '\x7d'" else unterminated)
  | .arithmetic _ => some "Missing '))'"

/-- Whether a character means something by itself. -/
def isActive (q : Quoting) (c : Char) : Bool :=
  c == '\\' || c == '\n' || c == '"' || c == '$' || c == '\x60' || (c == '\'' && q.isBare) ||
    ((c == '(' || c == ')') && !q.isBare)

end Quoting

/-! ### Parameters -/

/-- What stands behind the name of a parameter between braces. -/
inductive ParameterSign where
  /-- The closing brace. -/
  | close
  /-- The closing brace behind a colon, which closes nothing. -/
  | colonClose
  /-- Nothing, as the length is asked for. -/
  | length
  /-- A sign, perhaps behind a colon. -/
  | sign (colon : Bool) (c : Char)
  /-- The sign of a front or a back, perhaps twice. -/
  | trim (front longest : Bool)
  /-- Something else. -/
  | other
  deriving DecidableEq, Repr

/-- The sign behind the name of a parameter, and the source behind it. -/
def readSign (src : Source) : ParameterSign × Source :=
  let isSign := fun (c : Char) => ['-', '+', '?', '='].contains c
  match src.next? with
  | none => (.other, src)
  | some ('\x7d', after) => (.close, after)
  | some (':', after) =>
    match after.next? with
    | none => (.other, after)
    | some (c, behind) =>
      (if c = '\x7d' then .colonClose else if isSign c then .sign true c else .other, behind)
  | some (c, after) =>
    if isSign c then (.sign false c, after)
    else if c = '%' || c = '#' then
      match after.next? with
      | some (d, behind) =>
        if d = c then (.trim (c = '#') true, behind) else (.trim (c = '#') false, after)
      | none => (.trim (c = '#') false, after)
    -- An end of a line is not counted in the place of a sign.
    else (.other, { after with line := src.joined.line })

/-- The name of a parameter that begins with a letter or a digit, and the source behind it. -/
def readName (src : Source) : String × Source :=
  let isDigits := (src.next?.map fun (c, _) => c.isDigit).getD false
  let (name, after) := src.span (if isDigits then Char.isDigit else isNameChar)
  (String.ofList name, after)

/-- The sign that says that a length is asked for, where only a closing brace may follow. -/
def lengthSign (after : Source) : ParameterSign × Source :=
  match after.next? with
  | some ('\x7d', _) => (.length, after)
  | _ => (.other, after)

/-- **The name of a parameter between braces**, the sign behind it, and the source behind that. -/
def readParameter (src : Source) : String × ParameterSign × Source :=
  match src.next? with
  | none => ("", .other, src)
  | some (c, after) =>
    if c.isAlphanum || c = '_' then
      let (name, after) := readName src
      (name, readSign after)
    else if c = '\x7d' then ("", .other, src)
    else if c = '#' then
      match after.next? with
      | none => ("#", .other, after)
      | some (d, behind) =>
        if d.isAlphanum || d = '_' then
          let (name, after) := readName after
          (name, lengthSign after)
        else match behind.next? with
          | some ('\x7d', _) =>
            if d = '\x7d' then ("#", readSign after)
            else if isSpecialParameter d then (String.ofList [d], .length, behind)
            else ("", .other, behind)
          | _ => ("#", readSign after)
    else if isSpecialParameter c then (String.ofList [c], readSign after)
    else ("", .other, after)

/-- The use that a sign makes of a parameter, with the word behind it. -/
def ParameterSign.use (s : ParameterSign) (word : Word) : ParameterUse :=
  match s with
  | .close | .colonClose => .value
  | .length => .length
  | .sign colon '-' => .default colon word
  | .sign colon '+' => .alternative colon word
  | .sign colon '=' => .assign colon word
  | .sign colon _ => .demand colon word
  | .trim front longest => .trim front longest word
  | .other => .invalid

/-! ### Words -/

/-- The text between back-ticks, in which a backslash may hide a back-tick, a dollar sign, a
backslash or, inside quotes, a quote; the source behind it; and whether it is complete. -/
def backticked (quoted : Bool) : Nat → List Char → Source → List Char × Source × Bool
  | 0, before, src => (before.reverse, src, false)
  | steps + 1, before, src =>
    match src.next? with
    | none => (before.reverse, src, false)
    | some ('\\', after) =>
      match after.rest with
      | [] => (before.reverse, after, false)
      | c :: _ =>
        if c = '\x60' || c = '$' || c = '\\' || (c = '"' && quoted) then
          backticked quoted steps (c :: before) (after.past [c])
        else backticked quoted steps (c :: '\\' :: before) (after.past [c])
    | some (c, after) =>
      if c = '\x60' then (before.reverse, after, true)
      else backticked quoted steps (c :: before) after

/-- A reader of the commands inside a word, up to what ends them. -/
abbrev CommandReader := Source → Except SyntaxFault (Command × Source)

section Reading

variable (commands : CommandReader)

/-- Reading the commands between brackets. -/
def readOutput (quoted : Bool) (src : Source) : Except SyntaxFault (Piece × Source) := do
  let (c, after) ← commands { src with wanted := [], ahead := none }
  match after.ahead with
  | some (.sign ")") => .ok (.output c quoted, { after with ahead := none, wanted := src.wanted })
  | some t => after.expected t ")"
  | none => after.expected .finish ")"

/-- Reading the commands between back-ticks.  Their lines are counted from one. -/
def readBackticked (q : Quoting) (src : Source) : Except SyntaxFault (Piece × Source) := do
  match backticked (!q.isBare) (src.rest.length + 1) [] src with
  | (_, after, false) => after.fault "EOF in backquote substitution"
  | (text, after, true) =>
    let (c, inside) ← commands
      { after with rest := text, line := 1, wanted := [], replacements := [], behind := none }
    .ok (.output c (!q.isBare),
      { after with asked := inside.asked, documents := inside.documents })

mutual

/-- Reading pieces up to what ends them. -/
def readPieces : Nat → Option Mark → Quoting → Word → Source → Except SyntaxFault (Word × Source)
  | 0, _, _, before, src => .ok (before.reverse, src)
  | steps + 1, mark, q, before, src =>
    let src := src.joined
    match src.rest with
    | [] =>
      match q.unclosed? mark.isSome with
      | some text => src.fault text
      | none => .ok (before.reverse, src)
    | c :: rest => do
      let after := src.past [c]
      let plain := Word.snoc before (.text [c] (!q.isBare))
      if q.stops c then .ok (before.reverse, src)
      else if c = '\\' then
        match rest with
        | [] => readPieces steps mark q (.text ['\\'] true :: before) after
        | d :: _ =>
          let kept := if q.escapes d then [d] else ['\\', d]
          readPieces steps mark q (.text kept true :: before) (after.past [d])
      else if c = '\'' && q.isBare then
        let inner := rest.takeWhile (· != '\'')
        if inner.length = rest.length then
          (after.past inner).fault (if mark.isSome then "Missing '\x7d'" else unterminated)
        else readPieces steps mark q (.text inner true :: before) (after.past (inner ++ [c]))
      else if c = '"' && (q.isBare || q = .quotedBraces) then
        let (inner, after) ← readPieces steps mark q.insideQuotes [] after
        let before := inner.reverse ++ before
        readPieces steps mark q (if q.isBare then .text [] true :: before else before)
          (after.past ['"'])
      else if c = '$' && !q.isUnexpanded then
        let (pieces, after) ← readDollar steps mark q after
        readPieces steps mark q (pieces.foldl Word.snoc before) after
      else if c = '\x60' && !q.isUnexpanded then
        let (piece, after) ← readBackticked commands q after
        readPieces steps mark q (piece :: before) after
      else if c = '\n' then
        let after := match mark with
          | some m => after.atLine m
          | none => after
        readPieces steps mark q plain after
      else match q with
        | .arithmetic n =>
          if c = '(' then readPieces steps mark (.arithmetic (n + 1)) plain after
          else if c = ')' then
            match n with
            | 0 =>
              if after.joined.rest.head? = some ')' then .ok (before.reverse, after.joined)
              else readPieces steps mark q plain after
            | n + 1 => readPieces steps mark (.arithmetic n) plain after
          else
            let run := src.rest.takeWhile fun d => !q.isActive d
            readPieces steps mark q (Word.snoc before (.text run true)) (src.past run)
        | _ =>
          let run := src.rest.takeWhile fun d => !q.stops d && !q.isActive d
          let run := if run.isEmpty then [c] else run
          readPieces steps mark q (Word.snoc before (.text run (!q.isBare))) (src.past run)

/-- Reading the pieces behind a dollar sign. -/
def readDollar : Nat → Option Mark → Quoting → Source → Except SyntaxFault (Word × Source)
  | 0, _, _, src => .ok ([], src)
  | steps + 1, mark, q, src => do
    match src.next? with
    | none => .ok ([.text ['$'] (!q.isBare)], src)
    | some ('(', after) =>
      match after.next? with
      | some ('(', after) =>
        let (source, after) ← readPieces steps mark (.arithmetic 0) [] after
        .ok ([.arithmetic source (!q.isBare)], after.past [')'])
      | _ =>
        let (piece, after) ← readOutput commands (!q.isBare) after
        .ok ([piece], after)
    | some ('\x7b', after) => readBraced steps mark q after
    | some (c, after) =>
      if isNameStart c then
        let (name, after) := src.span isNameChar
        .ok ([.parameter (String.ofList name) .value (!q.isBare)], after)
      else if c.isDigit || isSpecialParameter c then
        .ok ([.parameter (String.ofList [c]) .value (!q.isBare)], after)
      else .ok ([.text ['$'] (!q.isBare)], src)

/-- Reading a parameter behind its opening brace. -/
def readBraced : Nat → Option Mark → Quoting → Source → Except SyntaxFault (Word × Source)
  | 0, _, _, src => .ok ([], src)
  | steps + 1, mark, q, src => do
    let (name, s, after) := readParameter src
    if s = .close then .ok ([.parameter name .value (!q.isBare)], after)
    else
      let inside := match s with
        | .trim _ _ => .bareBraces
        | _ => q.insideBraces
      let (word, after) ← readPieces steps mark inside [] after
      let piece := Piece.parameter name (s.use word) (!q.isBare)
      .ok (if s = .colonClose then piece :: word else [piece], after.past ['\x7d'])

end

/-- How many steps are enough to read a text. -/
def Source.steps (src : Source) : Nat := 4 * src.rest.length + 8

/-- Reading the pieces of a word, or of the mark of a here-document. -/
def readWord (q : Quoting) (src : Source) : Except SyntaxFault (Word × Source) :=
  readPieces commands src.steps none q [] src

/-- Reading a here-document at the beginning of its first line. -/
def readDocument (m : Mark) (src : Source) : Except SyntaxFault (Word × Source) :=
  if m.plain then
    let (text, after) := src.plainLines m (src.rest.length + 1)
    .ok ([.text text true], after.resumed)
  else do
    let (text, after) ← readPieces commands src.steps (some m) .document [] (src.atLine m)
    .ok (text, after.resumed)

/-- Reading the here-documents that a line has asked for, at its end. -/
def readDocuments (src : Source) : Except SyntaxFault Source :=
  src.wanted.foldlM (fun src (n, m) => do
    let (text, after) ← readDocument commands m { src with ahead := none }
    .ok { after with documents := (n, text) :: after.documents, ahead := src.ahead })
    { src with wanted := [] }

/-! ### Tokens -/

/-- Whether any part of a word is quoted. -/
def Word.isQuoted (w : Word) : Bool :=
  w.any fun piece => match piece with
    | .text _ quoted => quoted
    | _ => false

/-- The text of a word in which nothing is expanded. -/
def Word.letters (w : Word) : List Char :=
  w.flatMap fun piece => match piece with
    | .text cs _ => cs
    | _ => []

/-- The words with a meaning of their own where a command begins. -/
def keywords : List String :=
  ["if", "then", "else", "elif", "fi", "while", "until", "do", "done", "for", "in", "case", "esac",
    "\x7b", "\x7d", "!"]

/-- A sign that is made of one character or of it twice, and the source behind it. -/
def readTwice (c : Char) (after : Source) : Token × Source :=
  match after.next? with
  | some (d, behind) =>
    if d = c then (.sign (String.ofList [c, c]), behind) else (.sign (String.ofList [c]), after)
  | none => (.sign (String.ofList [c]), after)

/-- The arrow that comes next, and the source behind it; `digit` is the descriptor in front of it,
if there is one. -/
def readArrow (digit : Option Nat) (src : Source) : Token × Source :=
  let arrow := fun (default : Nat) (a : Arrow) => Token.arrow (digit.getD default) a
  match src.next? with
  | some ('>', after) =>
    match after.next? with
    | some ('>', behind) => (arrow 1 (.output .added), behind)
    | some ('|', behind) => (arrow 1 (.output .forced), behind)
    | some ('&', behind) => (arrow 1 .duplicate, behind)
    | _ => (arrow 1 (.output .fresh), after)
  | some (_, after) =>
    match after.next? with
    | some ('<', behind) =>
      match behind.next? with
      | some ('-', behind) => (arrow 0 (.document true), behind)
      | _ => (arrow 0 (.document false), behind)
    | some ('&', behind) => (arrow 0 .duplicate, behind)
    | some ('>', behind) => (arrow 0 .input, behind)
    | _ => (arrow 0 .input, after)
  | none => (.finish, src)

/-- The descriptor in front of an arrow that a word spells: none, or a digit. -/
def Word.descriptor? : Word → Option (Option Nat)
  | [] => some none
  | [.text [c] false] => if c.isDigit then some (some (c.toNat - '0'.toNat)) else none
  | _ => none

/-- Reading the next token as it stands. -/
def readRaw (src : Source) : Except SyntaxFault (Token × Source) :=
  let src := src.pastBlanks
  match src.rest with
  | [] => .ok (.finish, src)
  | c :: _ => do
    if c = '\n' then .ok (.newline, src.past [c])
    else if c = '&' || c = '|' || c = ';' then .ok (readTwice c (src.past [c]))
    else if c = '(' || c = ')' then .ok (.sign (String.ofList [c]), src.past [c])
    else
      let (w, after) ← readWord commands .bare src
      match after.rest.head?, w.descriptor? with
      | some '<', some digit => .ok (readArrow digit after)
      | some '>', some digit => .ok (readArrow digit after)
      | _, _ => .ok (.word w, after)

/-- What may stand where a token is read. -/
structure Expecting where
  /-- Whether ends of lines are passed over. -/
  lines : Bool := false
  /-- Whether words may have a meaning of their own. -/
  keywords : Bool := false
  /-- Whether words may be aliases. -/
  aliases : Bool := false
  deriving DecidableEq, Repr

/-- Where a command begins. -/
def Expecting.command : Expecting := ⟨false, true, true⟩

/-- Where a command begins, on this line or below. -/
def Expecting.commandBelow : Expecting := ⟨true, true, true⟩

/-- **Reading the next token**, on a number of steps. -/
def readToken : Nat → Expecting → Source → Except SyntaxFault (Token × Source)
  | 0, _, src => src.unexpected .finish
  | steps + 1, e, src => do
    let (t, after) ← match src.ahead with
      | some t => .ok (t, { src with ahead := none })
      | none => readRaw commands src
    match t with
    | .newline =>
      if e.lines then readToken steps e (← readDocuments commands after) else .ok (t, after)
    | .word [.text cs false] =>
      let name := String.ofList cs
      let e := { e with aliases := e.aliases || src.passes after }
      if e.keywords && keywords.contains name then .ok (.keyword name, after)
      else match if e.aliases then after.alias? name else none with
        | some value => readToken steps e (after.replace name value)
        | none => .ok (t, after)
    | _ => .ok (t, after)

end Reading

end LintSuite.Shell
