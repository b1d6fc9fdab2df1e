import LintSuite.Simulator.Process.Input

/-!
# Columns of lines

`cut` takes parts out of lines, told by the numbers of bytes or of fields, `paste` puts lines of
several files side by side, and `fold` breaks lines that are too long.
-/

namespace LintSuite.Utility

open Host Text

/-! ### Ranges -/

/-- Numbers from one to another, or without an end. -/
structure Span where
  /-- The first. -/
  first : Nat
  /-- The last, if there is one. -/
  last : Option Nat
  deriving DecidableEq, Repr

/-- Whether a number is in one of some spans. -/
def inSpans (spans : List Span) (n : Nat) : Bool :=
  spans.any fun s => s.first ≤ n && s.last.all (n ≤ ·)

/-- What is wrong with a list of spans. -/
inductive SpanFault where
  /-- A number is zero. -/
  | zero
  /-- The first number is greater than the last. -/
  | decreasing
  /-- There is no number at all. -/
  | noEnd
  /-- A text is no number. -/
  | invalid (text : String)
  deriving DecidableEq, Repr

/-- The text of a fault in a list of bytes or of fields. -/
def SpanFault.message (fields : Bool) : SpanFault → String
  | .zero =>
    (if fields then "fields" else "byte/character positions") ++ " are numbered from 1"
  | .decreasing => "invalid decreasing range"
  | .noEnd => "invalid range with no endpoint: -"
  | .invalid text =>
    (if fields then "invalid field value " else "invalid byte/character position ") ++
      ShellQuoted.plain text

/-- The span that a text describes. -/
def Span.ofText (text : String) : Except SpanFault Span := do
  let number := fun (cs : List Char) (default : Option Nat) =>
    if cs.isEmpty then Except.ok default
    else match Numeral.ofDigits? cs with
      | some 0 => .error SpanFault.zero
      | some n => .ok (some n)
      | none => .error (.invalid text)
  let cs := text.toList
  let front := cs.takeWhile (· != '-')
  match cs.drop front.length with
  | [] =>
    match ← number front none with
    | some n => .ok ⟨n, some n⟩
    | none => .error .zero
  | _ :: back =>
    if front.isEmpty && back.isEmpty then .error .noEnd
    else
      let first := (← number front (some 1)).getD 1
      let last ← number back none
      if last.any (· < first) then .error .decreasing else .ok ⟨first, last⟩

/-- The spans that a text describes. -/
def spansOf (text : String) : Except SpanFault (List Span) :=
  ((text.split fun c => c = ',' || c = ' ').toList.map (·.toString)).mapM Span.ofText

/-! ### Cutting -/

/-- The items whose numbers are wanted. -/
def picked {α : Type} (wanted : Nat → Bool) (items : List α) : List α :=
  ((List.range items.length).zip items).filterMap fun (i, x) =>
    if wanted (i + 1) then some x else none

/-- The bytes whose numbers are wanted, with something between parts that do not touch. -/
def pickedBytes (wanted : Nat → Bool) (between line : List UInt8) : List UInt8 :=
  (((List.range line.length).zip line).foldl (fun (taken : List UInt8 × Bool × Bool) (i, b) =>
    let (before, any, inside) := taken
    if wanted (i + 1) then
      (b :: (if any && !inside then between.reverse ++ before else before), true, true)
    else (before, any, false)) ([], false, false)).1.reverse

/-- Taking parts out of lines. -/
def cut : Utility :=
  reading { flags := ['s', 'n', 'z', 'M'], valued := ['b', 'c', 'f', 'd', 'O']
            words := [("bytes", 'b'), ("characters", 'c'), ("fields", 'f'), ("delimiter", 'd'),
              ("only-delimited", 's'), ("complement", 'M'), ("output-delimiter", 'O'), ("zero-terminated", 'z')] } 1
    fun a p =>
      let lists := a.options.filter fun o => ['b', 'c', 'f'].contains o.1
      let delimiter := Octets.ofString ((a.value? 'd').getD "\t")
      match lists with
      | [] => p.misused "you must specify a list of bytes, characters, or fields" 1
      | _ :: _ :: _ => p.misused "only one list may be specified" 1
      | [(letter, text)] =>
        let fields := letter = 'f'
        match spansOf text with
        | .error e => p.misused (e.message fields) 1
        | .ok spans =>
          if delimiter.length > 1 then p.misused "the delimiter must be a single character" 1
          else if !fields && a.has 'd' then
            p.misused "an input delimiter may be specified only when operating on fields" 1
          else if !fields && a.has 's' then
            p.misused ("suppressing non-delimited lines makes sense\n" ++
              "\tonly when operating on fields") 1
          else
            let mark := delimiter.headD 0
            let ending : UInt8 := if a.has 'z' then 0 else 10
            let wanted := fun n => inSpans spans n != a.has 'M'
            let between := ((a.value? 'O').map Octets.ofString).getD (if fields then [mark] else [])
            let cutLine := fun (line : List UInt8) =>
              if !fields then some (pickedBytes wanted between line)
              else if !line.contains mark then (if a.has 's' then none else some line)
              else some (between.intercalate (picked wanted (Octets.split mark line)))
            p.onInputs (Process.inputsOf a.operands) Process.plainReport fun _ bytes p =>
              p.emit 1 (Octets.ended ending ((Octets.records ending bytes).filterMap cutLine))

/-! ### Pasting and folding -/

/-- The marks that a text lists, with escapes for some. -/
def marksOf (cs : List Char) : List (List UInt8) :=
  match cs with
  | [] => []
  | '\\' :: 'n' :: rest => [10] :: marksOf rest
  | '\\' :: 't' :: rest => [9] :: marksOf rest
  | '\\' :: '\\' :: rest => [92] :: marksOf rest
  | '\\' :: '0' :: rest => [] :: marksOf rest
  | c :: rest => Octets.ofChars [c] :: marksOf rest

/-- Pieces with marks between them, which are used in turn. -/
def withMarks (marks : List (List UInt8)) (pieces : List (List UInt8)) : List UInt8 :=
  match pieces with
  | [] => []
  | first :: rest =>
    let n := max 1 marks.length
    first ++ (((List.range rest.length).zip rest).map fun (i, piece) =>
      marks.getD (i % n) [] ++ piece).flatten

/-- Rows of columns of different lengths. -/
def rowsOf (columns : List (List (List UInt8))) : List (List (List UInt8)) :=
  let height := columns.foldl (fun n c => max n c.length) 0
  (List.range height).map fun i => columns.map fun c => c.getD i []

/-- The columns that files give, a line ending with an octet; dashes take the lines of standard input in turn. -/
def columnsOf (ending : UInt8) (files : List String) (p : Process) :
    Except String (List (List (List UInt8)) × Process) := do
  let dashes := files.count "-"
  let (input, p) := if dashes > 0 then p.takeInput else ([], p)
  let inputLines := Octets.records ending input
  let share := fun (k : Nat) =>
    ((List.range inputLines.length).zip inputLines).filterMap fun (i, line) =>
      if i % dashes = k then some line else none
  let (columns, _) ← files.foldlM (fun (columns, seen) file =>
    if file = "-" then Except.ok (share seen :: columns, seen + 1)
    else match p.files.read (Octets.path file) with
      | .ok bytes => .ok (Octets.records ending bytes :: columns, seen)
      | .error e => .error (ShellQuoted.asNeeded file ++ ": " ++ e.reason)) ([], 0)
  .ok (columns.reverse, p)

/-- Putting lines side by side, or the lines of each file one behind another. -/
def paste : Utility :=
  reading { flags := ['s', 'z'], valued := ['d'], words := [("serial", 's'), ("delimiters", 'd')] }
    1 fun a p =>
      let marks := marksOf ((a.value? 'd').getD "\t").toList
      let ending : UInt8 := if a.has 'z' then 0 else 10
      match columnsOf ending (Process.inputsOf a.operands) p with
      | .error text => p.failed text 1
      | .ok (columns, p) =>
        let lines := if a.has 's' then columns else rowsOf columns
        (p.emit 1 (Octets.ended ending (lines.map (withMarks marks)))).withStatus 0

/-- A line broken into pieces of at most some bytes, where possible behind a blank. -/
def broken (width : Nat) (atBlanks : Bool) : Nat → List UInt8 → List (List UInt8)
  | 0, line => [line]
  | steps + 1, line =>
    if line.length ≤ width then [line]
    else
      let piece := line.take width
      let kept := (piece.reverse.dropWhile (!Octets.isBlank ·)).reverse
      let piece := if atBlanks && !kept.isEmpty then kept else piece
      piece :: broken width atBlanks steps (line.drop piece.length)

/-- Breaking long lines. -/
def fold : Utility :=
  reading { flags := ['b', 's'], valued := ['w'], words := [("width", 'w'), ("spaces", 's')] } 1
    fun a p =>
      match Numeral.digits? ((a.value? 'w').getD "80") with
      | none | some 0 =>
        p.failed ("invalid number of columns: " ++ ShellQuoted.plain ((a.value? 'w').getD "")) 1
      | some width =>
        p.onInputs (Process.inputsOf a.operands) Process.plainReport fun _ bytes p =>
          let text := Octets.unlines ((Octets.lines bytes).flatMap fun line =>
            broken width (a.has 's') line.length line)
          p.emit 1 (if bytes.getLast? = some 10 then text else text.dropLast)

end LintSuite.Utility
