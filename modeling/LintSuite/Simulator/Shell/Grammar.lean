import LintSuite.Simulator.Shell.Token

/-!
# Reading commands

A script is read one command line at a time, as it is run one command line at a time: a fault
further down does not keep the lines above it from running (`readLine`).

Each reader takes the tokens that belong to it and gives the next one back.  What a token may be
depends on where it stands: a word means something by itself only where a command may begin, and
only there, or behind another alias, is it looked for among the aliases.

Every reader takes a bound on its steps, which also bounds how deep commands stand inside each
other; `readLine` gives one that is enough.
-/

namespace LintSuite.Shell

/-- Commands of the shell that keep the variables set for them, and whose names no function has. -/
def keepers : List String :=
  [":", ".", "eval", "exec", "exit", "export", "readonly", "set", "shift", "unset", "trap", "times",
    "break", "continue", "return"]

/-- What ends a list of commands. -/
inductive Extent where
  /-- The end of a line. -/
  | line
  /-- Something that ends the command around it, behind one command at least. -/
  | some
  /-- Something that ends the command around it. -/
  | any
  deriving DecidableEq, Repr

/-- The name and the value that a word assigns, if it is an assignment. -/
def Word.assignment? : Word → Option (String × Word)
  | .text cs false :: more =>
    match cs.takeWhile isNameChar, cs.dropWhile isNameChar with
    | c :: name, '=' :: value =>
      if isNameStart c then
        .some (String.ofList (c :: name),
          if value.isEmpty then more else .text value false :: more)
      else none
    | _, _ => none
  | _ => none

/-- A simple command as it is read. -/
structure SimpleParts where
  /-- The assignments, the latest first. -/
  assignments : List (String × Word) := []
  /-- The words, the latest first. -/
  words : List Word := []
  /-- The redirections, the latest first. -/
  redirections : List Redirection := []

/-- The command of some parts, on a line. -/
def SimpleParts.command (parts : SimpleParts) (line : Nat) : Command :=
  .simple line parts.assignments.reverse parts.words.reverse parts.redirections.reverse

/-- A command, and one that comes before it if there is one. -/
def Command.after (before : Option Command) (c : Command) : Command :=
  match before with
  | .some b => .sequence b c
  | none => c

/-- The pattern that a token is. -/
def Token.pattern : Token → Word
  | .word w => w
  | .keyword text => [.text text.toList false]
  | _ => []

mutual

/-- Reading the next token. -/
def readNext : Nat → Expecting → Source → Except SyntaxFault (Token × Source)
  | 0, _, src => src.unexpected .finish
  | steps + 1, e, src =>
    readToken (readList steps .any) (src.steps + steps) e src

/-- Reading a token that must be a keyword or a sign. -/
def readExpected : Nat → Expecting → Token → String → Source → Except SyntaxFault Source
  | 0, _, _, _, src => src.unexpected .finish
  | steps + 1, e, wanted, text, src => do
    let (t, src) ← readNext steps e src
    if t.shown = wanted.shown then .ok src else src.expected t text

/-- Reading where an arrow leads. -/
def readTarget : Nat → Nat → Arrow → Source → Except SyntaxFault (Redirection × Source)
  | 0, _, _, src => src.unexpected .finish
  | steps + 1, d, a, src => do
    match a with
    | .document tabs =>
      let src := src.pastBlanks
      let (w, after) ← readWord (readList steps .any) .unexpanded src
      if w.isEmpty then
        let (t, after) ← readNext steps {} src
        after.unexpected t
      else
        let (text, after) := after.want ⟨w.letters, tabs, w.isQuoted⟩
        .ok ((d, .document text), after)
    | _ =>
      match ← readNext steps {} src with
      | (.word w, after) =>
        let target := match a with
          | .output writing => Redirect.output w writing
          | .duplicate => .duplicate w
          | _ => .input w
        .ok ((d, target), after)
      | (t, after) => after.unexpected t

/-- Reading the redirections behind a compound command. -/
def readRedirections : Nat → Expecting → List Redirection → Source →
    Except SyntaxFault (List Redirection × Source)
  | 0, _, _, src => src.unexpected .finish
  | steps + 1, e, before, src => do
    match ← readNext steps e src with
    | (.arrow d a, src) =>
      let (r, src) ← readTarget steps d a src
      readRedirections steps {} (r :: before) src
    | (t, src) => .ok (before.reverse, src.back t)

/-- Reading the parts of a simple command, or the definition of a function, on a line. -/
def readSimple : Nat → Nat → SimpleParts → Source → Except SyntaxFault (Command × Source)
  | 0, _, _, src => src.unexpected .finish
  | steps + 1, line, parts, src => do
    let (t, after) ← readNext steps { aliases := parts.words.isEmpty } src
    match t with
    | .word w =>
      match if parts.words.isEmpty then w.assignment? else none with
      | .some a => readSimple steps line { parts with assignments := a :: parts.assignments } after
      | none => readSimple steps line { parts with words := w :: parts.words } after
    | .arrow d a =>
      let (r, after) ← readTarget steps d a after
      readSimple steps line { parts with redirections := r :: parts.redirections } after
    | .sign "(" =>
      match parts with
      | ⟨[], [w], []⟩ =>
        let after ← readExpected steps {} (.sign ")") ")" after
        match w.plain? with
        | .some name =>
          if isName name && !keepers.contains name then
            let (body, after) ← readCommand steps .commandBelow after
            .ok (.define name body, after)
          else after.fault "Bad function name"
        | none => after.fault "Bad function name"
      | _ => .ok (parts.command line, after.back t)
    | _ => .ok (parts.command line, after.back t)

/-- Reading the test and the parts of a conditional. -/
def readConditional : Nat → Source → Except SyntaxFault (Command × Source)
  | 0, src => src.unexpected .finish
  | steps + 1, src => do
    let (test, src) ← readList steps .some src
    let src ← readExpected steps {} (.keyword "then") "then" src
    let (yes, src) ← readList steps .some src
    match ← readNext steps {} src with
    | (.keyword "elif", src) =>
      let (no, src) ← readConditional steps src
      .ok (.conditional test yes no, src)
    | (.keyword "else", src) =>
      let (no, src) ← readList steps .some src
      .ok (.conditional test yes no, src)
    | (t, src) => .ok (.conditional test yes .nothing, src.back t)

/-- Reading the words of a loop up to the end of their list. -/
def readWords : Nat → List Word → Source → Except SyntaxFault (List Word × Source)
  | 0, _, src => src.unexpected .finish
  | steps + 1, before, src => do
    match ← readNext steps {} src with
    | (.word w, src) => readWords steps (w :: before) src
    | (.newline, src) => .ok (before.reverse, src)
    | (.sign ";", src) => .ok (before.reverse, src)
    | (t, src) => src.unexpected t

/-- Reading a loop over words, on a line. -/
def readEach : Nat → Nat → Source → Except SyntaxFault (Command × Source)
  | 0, _, src => src.unexpected .finish
  | steps + 1, line, src => do
    let (t, src) ← readNext steps {} src
    match t.pattern.plain? with
    | none => src.fault "Bad for loop variable"
    | .some name =>
      if !isName name then src.fault "Bad for loop variable"
      else
        let (words, src) ← match ← readNext steps .commandBelow src with
          | (.keyword "in", src) => do
            let (words, src) ← readWords steps [] src
            Except.ok (.some words, src)
          | (.sign ";", src) => Except.ok (none, src)
          | (t, src) => Except.ok (none, src.back t)
        let src ← readExpected steps .commandBelow (.keyword "do") "do" src
        let (body, src) ← readList steps .some src
        .ok (.each line name words body, src)

/-- Reading the patterns of an arm, of which the first token is known, up to its bracket. -/
def readPatterns : Nat → List Word → Token → Source → Except SyntaxFault (List Word × Source)
  | 0, _, _, src => src.unexpected .finish
  | steps + 1, before, first, src => do
    match ← readNext steps {} src with
    | (.sign "|", src) =>
      let (next, src) ← readNext steps {} src
      readPatterns steps (first.pattern :: before) next src
    | (.sign ")", src) => .ok ((first.pattern :: before).reverse, src)
    | (t, src) => src.expected t ")"

/-- Reading the arms of a choice. -/
def readArms : Nat → Source → Except SyntaxFault (List (List Word × Command) × Source)
  | 0, src => src.unexpected .finish
  | steps + 1, src => do
    match ← readNext steps { lines := true, keywords := true } src with
    | (.keyword "esac", src) => .ok ([], src)
    | (t, src) =>
      let (first, src) ← match t with
        | .sign "(" => readNext steps {} src
        | t => .ok (t, src)
      let (patterns, src) ← readPatterns steps [] first src
      let (body, src) ← readList steps .any src
      match ← readNext steps { lines := true, keywords := true } src with
      | (.keyword "esac", src) => .ok ([(patterns, body)], src)
      | (.sign ";;", src) =>
        let (more, src) ← readArms steps src
        .ok ((patterns, body) :: more, src)
      | (t, src) => src.expected t ";;"

/-- Reading a choice, on a line. -/
def readChoice : Nat → Nat → Source → Except SyntaxFault (Command × Source)
  | 0, _, src => src.unexpected .finish
  | steps + 1, line, src => do
    match ← readNext steps {} src with
    | (.word w, src) =>
      let src ← readExpected steps .commandBelow (.keyword "in") "in" src
      let (arms, src) ← readArms steps src
      .ok (.choice line w arms, src)
    | (t, src) => src.fault (t.shown ++ " unexpected (expecting word)")

/-- Reading a loop behind its keyword. -/
def readLoop : Nat → Bool → Source → Except SyntaxFault (Command × Source)
  | 0, _, src => src.unexpected .finish
  | steps + 1, untilSuccess, src => do
    let (test, src) ← readList steps .some src
    let src ← readExpected steps {} (.keyword "do") "do" src
    let (body, src) ← readList steps .some src
    .ok (.loop untilSuccess test body, src)

/-- Reading one command, compound or simple. -/
def readCommand : Nat → Expecting → Source → Except SyntaxFault (Command × Source)
  | 0, _, src => src.unexpected .finish
  | steps + 1, e, src => do
    let (t, src) ← readNext steps e src
    let line := src.line
    let close := fun (text : String) (src : Source) =>
      readExpected steps {} (.keyword text) text src
    let behind := fun (c : Command) (src : Source) => do
      let (redirections, src) ← readRedirections steps ⟨false, true, true⟩ [] src
      Except.ok (if redirections.isEmpty then c else .redirected line c redirections, src)
    match t with
    | .sign "(" =>
      let (c, src) ← readList steps .some src
      behind (.subshell c) (← readExpected steps {} (.sign ")") ")" src)
    | .keyword "\x7b" =>
      let (c, src) ← readList steps .some src
      behind c (← close "\x7d" src)
    | .keyword "if" =>
      let (c, src) ← readConditional steps src
      behind c (← close "fi" src)
    | .keyword "while" =>
      let (c, src) ← readLoop steps false src
      behind c (← close "done" src)
    | .keyword "until" =>
      let (c, src) ← readLoop steps true src
      behind c (← close "done" src)
    | .keyword "for" =>
      let (c, src) ← readEach steps line src
      behind c (← close "done" src)
    | .keyword "case" =>
      let (c, src) ← readChoice steps line src
      behind c src
    | .word _ => readSimple steps line {} (src.back t)
    | .arrow _ _ => readSimple steps line {} (src.back t)
    | _ => src.unexpected t

/-- Reading commands joined by pipes. -/
def readStages : Nat → Expecting → Source → Except SyntaxFault (List Command × Source)
  | 0, _, src => src.unexpected .finish
  | steps + 1, e, src => do
    let (c, src) ← readCommand steps e src
    match ← readNext steps {} src with
    | (.sign "|", src) =>
      let (more, src) ← readStages steps .commandBelow src
      .ok (c :: more, src)
    | (t, src) => .ok ([c], src.back t)

/-- Reading a pipeline, whose success may be turned over. -/
def readPipeline : Nat → Expecting → Source → Except SyntaxFault (Command × Source)
  | 0, _, src => src.unexpected .finish
  | steps + 1, e, src => do
    let joined := fun (commands : List Command) =>
      match commands with
      | [c] => c
      | cs => .pipeline cs
    match ← readNext steps e src with
    | (.keyword "!", src) =>
      let (commands, src) ← readStages steps .command src
      .ok (.negation (joined commands), src)
    | (t, src) =>
      let (commands, src) ← readStages steps {} (src.back t)
      .ok (joined commands, src)

/-- Reading what follows a command that may be joined to others. -/
def readJoined : Nat → Command → Source → Except SyntaxFault (Command × Source)
  | 0, _, src => src.unexpected .finish
  | steps + 1, c, src => do
    match ← readNext steps {} src with
    | (.sign "&&", src) =>
      let (d, src) ← readPipeline steps .commandBelow src
      readJoined steps (.both c d) src
    | (.sign "||", src) =>
      let (d, src) ← readPipeline steps .commandBelow src
      readJoined steps (.either c d) src
    | (t, src) => .ok (c, src.back t)

/-- Reading the commands of a list, behind those before. -/
def readRest : Nat → Extent → Option Command → Source → Except SyntaxFault (Command × Source)
  | 0, _, _, src => src.unexpected .finish
  | steps + 1, extent, before, src => do
    let (t, src) ← readNext steps ⟨extent != .line, true, true⟩ src
    let done := before.getD .nothing
    match t with
    | .newline => .ok (done, ← readDocuments (readList steps .any) src)
    | .finish => .ok (done, (← readDocuments (readList steps .any) src).back t)
    | t =>
      if extent = .any && t.endsList then .ok (done, src.back t)
      else
        let (c, src) ← readPipeline steps {} (src.back t)
        let (c, src) ← readJoined steps c src
        let extent := if extent = .line then extent else .any
        match ← readNext steps {} src with
        | (.sign "&", src) => readRest steps extent (Command.after before (.background c)) src
        | (.sign ";", src) => readRest steps extent (Command.after before c) src
        | (.newline, src) => readRest steps extent (Command.after before c) (src.back .newline)
        | (.finish, src) =>
          .ok (Command.after before c, (← readDocuments (readList steps .any) src).back .finish)
        | (t, src) =>
          if extent = .line then src.unexpected t
          else .ok (Command.after before c, src.back t)

/-- **Reading a list of commands** up to what ends it, which is given back unless it is the end of a
line. -/
def readList : Nat → Extent → Source → Except SyntaxFault (Command × Source)
  | 0, _, src => src.unexpected .finish
  | steps + 1, extent, src => readRest steps extent none src

end

/-- How many steps are enough to read a line of a script, and the texts of its aliases. -/
def Source.depth (src : Source) : Nat :=
  src.aliases.foldl (fun n (_, value) => n * (value.length + 1)) (16 * src.rest.length + 16)

/-- Reading a command line of a script in which the here-documents are known. -/
def readKnown (src : Source) : Except SyntaxFault (Command × Source) := do
  let (c, after) ← readList src.depth .line src
  .ok (c, { after with ahead := none })

/-- Reading a command line again and again, each time with the here-documents of the time before. -/
def readAgain (src : Source) : Nat → Command × Source → Except SyntaxFault (Command × Source)
  | 0, result => .ok result
  | times + 1, (_, after) => do
    readAgain src times (← readKnown { src with known := after.documents })

/-- **Reading a command line** of a script, with the aliases that there are.  A here-document may ask
for others in its turn, but for no more than there are. -/
def readLine (aliases : List (String × String)) (src : Source) :
    Except SyntaxFault (Command × Source) := do
  let src := { src with aliases, asked := 0, documents := [], known := [] }
  let result ← readKnown src
  readAgain src result.2.documents.length result

end LintSuite.Shell
