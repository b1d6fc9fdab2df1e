import LintSuite.Simulator.Process.State
import LintSuite.Simulator.Shell.Arithmetic
import LintSuite.Simulator.Shell.Glob
import LintSuite.Simulator.Shell.Grammar
import LintSuite.Simulator.Shell.Switches

/-!
# Expanding words

A word expands to *atoms*: characters that know where they come from, and marks for what cannot be
seen in the characters alone.  From the atoms come either one text (`textOf`), where a word must
stay one, or fields (`fieldsOf`), where it may become several or none.

Only what an expansion put outside of quotes is cut into fields, at the characters of `IFS`.  Only
what stands outside of quotes fits other names than itself when fields are looked for among the
files (`pathsOf`).
-/

namespace LintSuite.Shell

open Host Text

/-- Where a character of an expanded word comes from. -/
inductive Origin where
  /-- From the word itself. -/
  | literal
  /-- From quotes. -/
  | quoted
  /-- From an expansion outside of quotes. -/
  | expanded
  deriving DecidableEq, Repr

/-- An atom of an expanded word. -/
inductive Atom where
  /-- A character. -/
  | char (c : Char) (origin : Origin)
  /-- The border between two arguments. -/
  | border
  /-- Quotes, which make a field even if nothing is in them. -/
  | quotes
  /-- All the arguments of a script that has none, in quotes: the next quotes make no field. -/
  | noArguments
  deriving DecidableEq, Repr

/-- The atoms of a text. -/
def atomsOf (origin : Origin) (cs : List Char) : List Atom :=
  cs.map (.char · origin)

/-- The text of some atoms. -/
def textOf (atoms : List Atom) : List Char :=
  atoms.filterMap fun a => match a with
    | .char c _ => some c
    | .border => some ' '
    | _ => none

/-- The characters of some atoms, and whether they may have a meaning in a pattern. -/
def glyphsOf (atoms : List Atom) : List Glyph :=
  atoms.filterMap fun a => match a with
    | .char c origin => some (c, origin != .quoted)
    | _ => none

/-! ### Parameters -/

/-- The characters that fields are cut at. -/
def separators (p : Process) : List Char :=
  ((p.var? "IFS").getD " \t\n").toList

/-- The value of a parameter, unless it stands for all arguments. -/
def parameter? (p : Process) (name : String) : Option String :=
  if name = "#" then some (toString p.arguments.length)
  else if name = "?" then some (toString p.status)
  else if name = "$" then some (toString p.number)
  else if name = "-" then some (Switches.shown p.options)
  else if name = "!" then p.lastJob.map toString
  else if name = "0" then some p.name
  else match Numeral.digits? name with
    | some n => p.arguments[n - 1]?
    | none => p.var? name

/-- Texts with something between them. -/
def interspersed (between : List Atom) : List (List Atom) → List Atom
  | [] => []
  | [a] => a
  | a :: rest => a ++ between ++ interspersed between rest

/-- The atoms of all arguments: of one field for `*` in quotes, else of a field each. -/
def argumentAtoms (p : Process) (name : String) (quoted : Bool) : List Atom :=
  let each := p.arguments.map fun a => atomsOf (if quoted then .quoted else .expanded) a.toList
  if quoted && name = "*" then
    interspersed (atomsOf .quoted ((separators p).take 1)) each
  else if quoted && p.arguments.isEmpty then [.noArguments]
  else if quoted then interspersed [.border] (each.map (.quotes :: ·))
  else interspersed [.border] each

/-- Whether a parameter stands for all arguments. -/
def isAllArguments (name : String) : Bool := name = "@" || name = "*"

/-- The atoms of a parameter's value, if it has one. -/
def valueAtoms? (p : Process) (name : String) (quoted : Bool) : Option (List Atom) :=
  if isAllArguments name then
    if p.arguments.isEmpty && !quoted then none else some (argumentAtoms p name quoted)
  else (parameter? p name).map fun v => atomsOf (if quoted then .quoted else .expanded) v.toList

/-- Whether a parameter counts as set: with a colon, only if it is not empty. -/
def isPresent (p : Process) (name : String) (colon : Bool) : Bool :=
  let value :=
    if isAllArguments name then
      if p.arguments.isEmpty then none else some (String.intercalate " " p.arguments)
    else parameter? p name
  match value with
  | some v => !(colon && v.isEmpty)
  | none => false

/-! ### Tildes -/

/-- The piece of a home directory: quotes, unless there is nothing in them. -/
def homePiece (home : String) : Piece := .text home.toList (!home.isEmpty)

/-- The atoms of the text at the front of a word, with the home directory in place of its tilde.
There may be more of the word. -/
def tildeAtoms (p : Process) (cs : List Char) (alone : Bool) : List Atom :=
  match cs, p.var? "HOME" with
  | '~' :: rest, some home =>
    if (rest.isEmpty && alone) || rest.head? = some '/' then
      (if home.isEmpty then [] else .quotes :: atomsOf .quoted home.toList) ++
        atomsOf .literal rest
    else atomsOf .literal cs
  | _, _ => atomsOf .literal cs

/-- The pieces of a text with the home directory in place of each tilde that stands alone, or before
a slash, between colons.  At the front and behind the text there may be more. -/
def tildePieces (home : String) (more : Bool) (starts : Bool) (before : List Char) :
    List Char → List Piece
  | [] => [.text before.reverse false]
  | c :: rest =>
    let alone := match rest with
      | [] => !more
      | d :: _ => d == '/' || d == ':'
    if c = '~' && starts && alone then
      .text before.reverse false :: homePiece home :: tildePieces home more false [] rest
    else tildePieces home more (c == ':') (c :: before) rest

/-- The value of an assignment with the home directory in place of its tildes. -/
def tildesExpanded (p : Process) (w : Word) : Word :=
  match p.var? "HOME" with
  | none => w
  | some home => go home true w
where
  /-- Pieces with their tildes replaced, at the front of a word or further on. -/
  go (home : String) (starts : Bool) : Word → Word
    | [] => []
    | .text cs false :: rest => tildePieces home (!rest.isEmpty) starts [] cs ++ go home false rest
    | piece :: rest => piece :: go home false rest

/-! ### Pieces -/

/-- The text of some output, without the line feeds at its end and without NUL bytes. -/
def outputWord (bytes : List UInt8) : List Char :=
  Octets.chars ((bytes.filter (· != 0)).reverse.dropWhile (· == 10)).reverse

/-- The process with variables that a calculation set. -/
def withVariables (p : Process) (changed : List (String × Int)) : Process :=
  changed.reverse.foldl (fun p (name, n) => p.setVar name (toString n)) p

section Expand

-- What running a command does to a process.
variable (command : Command → Process → Process)

/-- The atoms of a calculation, and the process after it. -/
def calculate (source : List Char) (p : Process) : List Char × Process :=
  match Expr.read source with
  | .error e => ([], p.abort (e.message (String.ofList source)))
  | .ok e =>
    match e.value { outside := p.var? } with
    | .error e => ([], p.abort (e.message (String.ofList source)))
    | .ok (n, vs) => ((toString n).toList, withVariables p vs.changed)

/-- The output of a command, and the process after it, when all has come that is printed. -/
def substitute (c : Command) (p : Process) : List Char × Process :=
  let (chunks, child) := p.subshell.capture (command c)
  let after := (p.rejoin child).waitUntil (Chunk.latest child.elapsed chunks)
  (outputWord (Chunk.joined chunks), { after with status := p.status, substituted := after.status })

/-- Whether a parameter must be set and is not. -/
def isUnset (p : Process) (name : String) : Bool :=
  p.options.contains 'u' && !isAllArguments name && !isPresent p name false

/-- Atoms of a word that stands in for a parameter: outside of quotes they are expanded ones. -/
def asExpanded (atoms : List Atom) : List Atom :=
  atoms.map fun a => match a with
    | .char c .literal => .char c .expanded
    | a => a

mutual

/-- The atoms of a piece, and the process after it. -/
def expandPiece : Piece → Process → List Atom × Process
  | .text cs quoted, p =>
    (if quoted then .quotes :: atomsOf .quoted cs else atomsOf .literal cs, p)
  | .arithmetic source quoted, p =>
    let (atoms, p) := expandPieces source p
    let (cs, p) := if p.isOnward then calculate (textOf atoms) p else ([], p)
    (atomsOf (if quoted then .quoted else .expanded) cs, p)
  | .output c quoted, p =>
    let (cs, p) := substitute command c p
    (atomsOf (if quoted then .quoted else .expanded) cs, p)
  | .parameter name use quoted, p => expandParameter name quoted use p

/-- The atoms of a parameter, and the process after it. -/
def expandParameter (name : String) (quoted : Bool) : ParameterUse → Process → List Atom × Process
  | .value, p =>
    if isUnset p name then ([], p.abort (name ++ ": parameter not set"))
    else ((valueAtoms? p name quoted).getD [], p)
  | .length, p =>
    let text := if isAllArguments name then String.intercalate " " p.arguments
      else (parameter? p name).getD ""
    if isUnset p name then ([], p.abort (name ++ ": parameter not set"))
    else (atomsOf (if quoted then .quoted else .expanded) (toString text.length).toList, p)
  | .invalid, p => ([], p.abort "Bad substitution")
  | .default colon word, p =>
    if isPresent p name colon then ((valueAtoms? p name quoted).getD [], p)
    else
      let (atoms, p) := expandTilded word p
      (asExpanded atoms, p)
  | .alternative colon word, p =>
    if isPresent p name colon then
      let (atoms, p) := expandTilded word p
      (asExpanded atoms, p)
    else ([], p)
  | .assign colon word, p =>
    if isPresent p name colon then ((valueAtoms? p name quoted).getD [], p)
    else
      let (atoms, p) := expandTilded word p
      (asExpanded atoms, p.setVar name (String.ofList (textOf atoms)))
  | .demand colon word, p =>
    if isPresent p name colon then ((valueAtoms? p name quoted).getD [], p)
    else
      let (atoms, p) := expandTilded word p
      let given := String.ofList (textOf atoms)
      let text := if !given.isEmpty then given
        else if colon then "parameter not set or null" else "parameter not set"
      ([], p.abort (name ++ ": " ++ text))
  | .trim front longest pattern, p =>
    let value := (valueAtoms? p name quoted).getD []
    let (atoms, p) := expandTilded pattern p
    let cs := Glob.trim front longest (Glob.items (glyphsOf atoms)) (textOf value)
    (atomsOf (if quoted then .quoted else .expanded) cs, p)

/-- The atoms of a word at whose front the home directory takes the place of a tilde, and the process
after it. -/
def expandTilded : List Piece → Process → List Atom × Process
  | [], p => ([], p)
  | .text cs false :: rest, p =>
    let (more, p) := expandPieces rest p
    (tildeAtoms p cs rest.isEmpty ++ more, p)
  | piece :: rest, p =>
    let (atoms, p) := expandPiece piece p
    if p.isOnward then
      let (more, p) := expandPieces rest p
      (atoms ++ more, p)
    else ([], p)

/-- The atoms of some pieces, and the process after them. -/
def expandPieces : List Piece → Process → List Atom × Process
  | [], p => ([], p)
  | piece :: rest, p =>
    let (atoms, p) := expandPiece piece p
    if p.isOnward then
      let (more, p) := expandPieces rest p
      (atoms ++ more, p)
    else ([], p)

end

/-- **The atoms of a word**, and the process after it. -/
def expand (w : Word) (p : Process) : List Atom × Process := expandTilded command w p

/-- The text of a word, and the process after it. -/
def expandText (w : Word) (p : Process) : String × Process :=
  let (atoms, p) := expand command w p
  (String.ofList (textOf atoms), p)

/-- The text of the value of an assignment, and the process after it. -/
def expandValue (w : Word) (p : Process) : String × Process :=
  let (atoms, p) := expandPieces command (tildesExpanded p w) p
  (String.ofList (textOf atoms), p)

end Expand

/-! ### Fields -/

/-- Fields as they are cut. -/
structure Cutting where
  /-- The fields that are complete, the latest first. -/
  fields : List (List Glyph) := []
  /-- The characters of the field under way, the latest first. -/
  current : List Glyph := []
  /-- Whether the field under way is one even without characters. -/
  isField : Bool := false
  /-- Whether blanks have just ended a field. -/
  afterBlanks : Bool := false
  /-- How many pairs of quotes make no field. -/
  unmade : Nat := 0

namespace Cutting

/-- The field under way is complete. -/
def complete (s : Cutting) : Cutting :=
  { s with fields := s.current.reverse :: s.fields, current := [], isField := false }

/-- The field under way is complete if it is one. -/
def completeField (s : Cutting) : Cutting :=
  if s.isField then s.complete else s

/-- One more atom. -/
def take (separators : List Char) (s : Cutting) : Atom → Cutting
  | .border => s.completeField
  | .noArguments => { s with unmade := s.unmade + 1 }
  | .quotes =>
    if 0 < s.unmade then { s with unmade := s.unmade - 1 }
    else { s with isField := true, afterBlanks := false }
  | .char c origin =>
    if origin = .expanded && separators.contains c then
      if c = ' ' || c = '\t' || c = '\n' then
        if s.isField then { s.complete with afterBlanks := true } else s
      else if s.afterBlanks then { s with afterBlanks := false }
      else s.complete
    else
      { s with
        current := (c, origin != .quoted) :: s.current
        isField := true, afterBlanks := false }

end Cutting

/-- **The fields** of some atoms. -/
def fieldsOf (separators : List Char) (atoms : List Atom) : List (List Glyph) :=
  (atoms.foldl (Cutting.take separators) {}).completeField.fields.reverse

/-! ### Names of files -/

/-- The characters between slashes. -/
def glyphSegments : List Glyph → List (List Glyph)
  | [] => [[]]
  | g :: rest =>
    if g.1 = '/' then [] :: glyphSegments rest
    else match glyphSegments rest with
      | [] => [[g]]
      | s :: others => (g :: s) :: others

/-- The names in a directory, sorted. -/
def namesIn (fs : FileSystem) (dir : String) : List String :=
  match fs.find (Octets.path (if dir.isEmpty then "." else dir)) with
  | .ok (_, .dir access entries) =>
    if access.read then ((Octets.named entries).map (·.1)).mergeSort fun a b => !(b < a) else []
  | _ => []

/-- The names in a directory that fit a pattern.  A dot in front is fitted by a dot only. -/
def namesFitting (fs : FileSystem) (dir : String) (segment : List Glyph) : List String :=
  let pattern := Glob.items segment
  if Glob.isActive pattern then
    (["." , ".."] ++ namesIn fs dir).filter fun name =>
      Glob.fits pattern name.toList &&
        (name.toList.head? != some '.' || pattern.head? = some (.only '.'))
  else [String.ofList (segment.map (·.1))]

/-- The paths below some directories that fit segment by segment. -/
def pathsBelow (fs : FileSystem) (dirs : List String) : List (List Glyph) → List String
  | [] => dirs
  | [last] => dirs.flatMap fun d => (namesFitting fs d last).map (d ++ ·)
  | segment :: rest =>
    pathsBelow fs (dirs.flatMap fun d => (namesFitting fs d segment).map (d ++ · ++ "/")) rest

/-- **The paths that fit a field**, or the field itself if it is no pattern or nothing fits. -/
def pathsOf (fs : FileSystem) (field : List Glyph) : List String :=
  let plain := String.ofList (field.map (·.1))
  if Glob.isActive (Glob.items field) then
    match (pathsBelow fs [""] (glyphSegments field)).filter fun p =>
        (fs.findSelf (Octets.path p)).toBool with
    | [] => [plain]
    | found => found
  else [plain]

section Expand

variable (command : Command → Process → Process)

/-- Commands whose arguments may be assignments. -/
def declarers : List String := ["export", "readonly", "local", "alias"]

/-- The fields that a word becomes, and the process after it. -/
def expandFields (w : Word) (p : Process) : List String × Process :=
  let (atoms, p) := expand command w p
  let fields := fieldsOf (separators p) atoms
  if p.options.contains 'f' then (fields.map fun f => String.ofList (f.map (·.1)), p)
  else (fields.flatMap (pathsOf p.files), p)

/-- **The fields that some words become**, and the process after them. -/
def expandAll : List Word → Process → List String × Process
  | [], p => ([], p)
  | w :: rest, p =>
    let (fields, p) := expandFields command w p
    if p.isOnward then
      let (more, p) := expandAll rest p
      (fields ++ more, p)
    else ([], p)

/-- The fields of arguments that may be assignments: such a one stays one field. -/
def expandDeclared : List Word → Process → List String × Process
  | [], p => ([], p)
  | w :: rest, p =>
    let (fields, p) := match w.assignment? with
      | some (name, value) =>
        let (text, p) := expandValue command value p
        ([name ++ "=" ++ text], p)
      | none => expandFields command w p
    if p.isOnward then
      let (more, p) := expandDeclared rest p
      (fields ++ more, p)
    else ([], p)

/-- **The fields of a simple command**, and the process after them. -/
def expandCommand : List Word → Process → List String × Process
  | [], p => ([], p)
  | w :: rest, p =>
    if w.plain?.any declarers.contains then expandDeclared command (w :: rest) p
    else expandAll command (w :: rest) p

end Expand

end LintSuite.Shell
