import LintSuite.Simulator.Regex.Source
import LintSuite.Simulator.Process.Input

/-!
# Searching lines

`grep` prints the lines of files that fit a pattern, or what else is asked for about them: their
number, the parts that fit, or the names of the files.  A file is searched first (`Search.hits`),
and then shown; the state tells whether a line was found.
-/

namespace LintSuite

open Host Text

/-- What is searched, and how. -/
structure Search where
  /-- The patterns, of which one must fit. -/
  patterns : List Regex
  /-- Whether small letters and capital ones are the same. -/
  caseless : Bool := false
  /-- Whether lines count that do not fit. -/
  inverted : Bool := false
  /-- Whether a part must be a word. -/
  words : Bool := false
  /-- Whether a part must be a line. -/
  lines : Bool := false
  /-- How many lines are enough. -/
  most : Option Nat := none

namespace Search

/-- What a line is for a search. -/
def subject (s : Search) (line : List UInt8) : Subject :=
  ⟨(Octets.chars line).toArray, s.caseless⟩

/-- Whether a part of a subject may count. -/
def mayCount (s : Search) (subject : Subject) (first last : Nat) : Bool :=
  if s.lines then first = 0 && last = subject.text.size
  else !s.words ||
    (!(Regex.around subject first).1 && !(Regex.around subject last).2)

/-- Where the part ends that fits from a place on, the longest one. -/
def partAt? (s : Search) (subject : Subject) (place : Nat) : Option Nat :=
  let ends := s.patterns.flatMap fun p =>
    ((p.ends subject ⟨place, []⟩).map (·.place)).filter (s.mayCount subject place)
  ends.max?

/-- The first part that fits from a place on, on a number of steps. -/
def partFrom? (s : Search) (subject : Subject) : Nat → Nat → Option (Nat × Nat)
  | 0, _ => none
  | n + 1, place =>
    match s.partAt? subject place with
    | some last => some (place, last)
    | none => partFrom? s subject n (place + 1)

/-- Whether a line is found. -/
def finds (s : Search) (line : List UInt8) : Bool :=
  let subject := s.subject line
  (s.partFrom? subject (subject.text.size + 1) 0).isSome != s.inverted

/-- The parts of a line that fit, none of them empty, on a number of steps. -/
def partsFrom (s : Search) (subject : Subject) : Nat → Nat → List (Nat × Nat)
  | 0, _ => []
  | n + 1, place =>
    match s.partFrom? subject (subject.text.size + 1 - place) place with
    | none => []
    | some (first, last) =>
      if first = last then partsFrom s subject n (last + 1)
      else (first, last) :: partsFrom s subject n last

/-- The parts of a line that fit. -/
def parts (s : Search) (line : List UInt8) : List (Nat × Nat) :=
  let subject := s.subject line
  s.partsFrom subject (subject.text.size + 1) 0

/-- Lines with their numbers, and whether they are found. -/
def marked (s : Search) (lines : List (List UInt8)) : List (Nat × Bool × List UInt8) :=
  let found := ((List.range lines.length).zip lines).map fun (i, line) => (i, s.finds line, line)
  match s.most with
  | none => found
  | some most =>
    (found.foldl (fun (kept : List (Nat × Bool × List UInt8) × Nat) (i, hit, line) =>
      if kept.2 < most then ((i, hit, line) :: kept.1, if hit then kept.2 + 1 else kept.2)
      else kept) ([], 0)).1.reverse

end Search

namespace Utility

/-- How what is found is shown. -/
structure SearchStyle where
  /-- Whether lines are only counted. -/
  counted : Bool
  /-- Whether only names of files with a line are shown, or only those without. -/
  names : Option Bool
  /-- Whether only the parts that fit are shown. -/
  onlyParts : Bool
  /-- Whether nothing is shown. -/
  quiet : Bool
  /-- Whether names stand in front of lines. -/
  named : Bool
  /-- Whether numbers stand in front of lines. -/
  numbered : Bool
  /-- Whether places stand in front of lines. -/
  placed : Bool
  /-- How many lines before and behind a line are shown. -/
  around : Nat × Nat

/-- What stands in front of a line. -/
def SearchStyle.front (style : SearchStyle) (name : String) (number place : Nat) (mark : String) :
    List UInt8 :=
  Octets.ofString ((if style.named then name ++ mark else "") ++
    (if style.numbered then toString (number + 1) ++ mark else "") ++
    (if style.placed then toString place ++ mark else ""))

/-- Whether a line is near enough to one that is found. -/
def SearchStyle.isNear (style : SearchStyle) (hits : List Nat) (i : Nat) : Bool :=
  hits.any fun h => i ≤ h + style.around.2 && h ≤ i + style.around.1

/-- What is shown of a file. -/
def SearchStyle.shown (style : SearchStyle) (s : Search) (name : String)
    (lines : List (List UInt8)) (marked : List (Nat × Bool × List UInt8)) : List UInt8 :=
  let hits := (marked.filter (·.2.1)).map (·.1)
  let near := if style.around = (0, 0) then marked.filter (·.2.1)
    else
      let rest := ((List.range lines.length).zip lines).drop marked.length
      let others : List (Nat × Bool × List UInt8) := rest.map fun r => (r.1, false, r.2)
      (marked ++ others).filter fun m => style.isNear hits m.1
  let places := lines.foldl (fun (acc : Array Nat × Nat) line =>
    (acc.1.push acc.2, acc.2 + line.length + 1)) (#[], 0) |>.1
  (near.foldl (fun (text : List (List UInt8) × Option Nat) (m : Nat × Bool × List UInt8) =>
    let (i, hit, line) := m
    let gap := if style.around != (0, 0) && text.2.any (· + 1 < i) then [[45, 45, 10]] else []
    let place := places.getD i 0
    let shown :=
      if style.onlyParts then
        if hit && !s.inverted then (s.parts line).flatMap fun (first, last) =>
          style.front name i (place + first) ":" ++ (line.drop first).take (last - first) ++ [10]
        else []
      else style.front name i place (if hit then ":" else "-") ++ line ++ [10]
    (shown :: gap ++ text.1, some i)) ([], none)).1.reverse.flatten

/-- The names of the files below a directory, with the directory in front. -/
def filesBelow (path : String) : Node → List String
  | .file _ _ => [path]
  | .dir _ entries => filesOf entries
  | _ => []
where
  /-- The names of the files that entries of a directory lead to. -/
  filesOf : Entries → List String
    | .none => []
    | .entry bytes node rest =>
      let name := Octets.toText bytes
      filesBelow (if path.isEmpty then name else if path.endsWith "/" then path ++ name
        else path ++ "/" ++ name) node ++ filesOf rest

/-- Searching one file: what to show, whether a line was found, and the process. -/
def searchFile (s : Search) (style : SearchStyle) (silent : Bool) (file : String) (p : Process) :
    Bool × Bool × Process :=
  let name := if file = "-" then "(standard input)" else file
  match p.readAll file with
  | .error e =>
    (false, true, if silent then p else p.failed (file ++ ": " ++ e.reason) 2)
  | .ok (bytes, p) =>
    let lines := Octets.lines bytes
    let marked := s.marked lines
    let count := (marked.filter (·.2.1)).length
    let found := 0 < count
    let text : List UInt8 :=
      if style.quiet then []
      else match style.names with
        | some wanted => if found == wanted then Octets.ofString (name ++ "\n") else []
        | none =>
          if style.counted then
            Octets.ofString ((if style.named then name ++ ":" else "") ++ toString count ++ "\n")
          else if bytes.contains 0 && found then
            Octets.ofString (p.name ++ ": " ++ name ++ ": binary file matches\n")
          else style.shown s name lines marked
    (found, false, p.emit 1 text)

/-- The options of a search. -/
def searchVocabulary : Vocabulary where
  flags := ['E', 'F', 'G', 'P', 'i', 'y', 'v', 'c', 'n', 'l', 'L', 'o', 'q', 's', 'w', 'x', 'h',
    'H', 'r', 'R', 'b', 'a', 'U', 'z']
  valued := ['e', 'f', 'm', 'A', 'B', 'C']
  words := [("extended-regexp", 'E'), ("fixed-strings", 'F'), ("basic-regexp", 'G'),
    ("perl-regexp", 'P'), ("regexp", 'e'), ("file", 'f'), ("ignore-case", 'i'),
    ("invert-match", 'v'), ("count", 'c'), ("line-number", 'n'), ("files-with-matches", 'l'),
    ("files-without-match", 'L'), ("only-matching", 'o'), ("quiet", 'q'), ("silent", 'q'),
    ("no-messages", 's'), ("word-regexp", 'w'), ("line-regexp", 'x'), ("no-filename", 'h'),
    ("with-filename", 'H'), ("recursive", 'r'), ("byte-offset", 'b'), ("max-count", 'm'),
    ("after-context", 'A'), ("before-context", 'B'), ("context", 'C'), ("text", 'a')]

/-- How a search is used. -/
def searchUsage (p : Process) : Process :=
  ((p.complain "Usage: grep [OPTION]... PATTERNS [FILE]...").complain
    "Try 'grep --help' for more information.").withStatus 2

/-- The pattern that a line stands for. -/
def patternOf (style : Option Regex.Style) (line : List Char) : Except Regex.Fault Regex :=
  match style with
  | some style => Regex.read style line
  | none => .ok (Regex.inTurn (line.map Regex.char))

/-- Searching files for lines that fit a pattern, where a style is given beforehand. -/
def searching (style? : Option (Option Regex.Style)) : Utility := fun arguments p =>
  match Arguments.read searchVocabulary arguments with
  | .error e => searchUsage (p.complain (p.name ++ ": " ++ e.message))
  | .ok a =>
    let style := match a.last? ['E', 'F', 'G', 'P'] with
      | some 'F' => none
      | some 'G' => some .basic
      | some _ => some .extended
      | none => style?.getD (some .basic)
    let given := (a.values 'e').flatMap fun text => (text.splitOn "\n").map String.toList
    let fromFiles := (a.values 'f').map fun file => p.readAll file
    let listed := fromFiles.flatMap fun r => match r with
      | .ok (bytes, _) => (Octets.lines bytes).map Octets.chars
      | .error _ => []
    let explicit := a.has 'e' || a.has 'f'
    if !explicit && a.operands.isEmpty then searchUsage p
    else
      let texts := if explicit then given ++ listed
        else ((a.operands.headD "").splitOn "\n").map String.toList
      let operands := if explicit then a.operands else a.operands.tail
      let number := fun (c : Char) => (a.value? c).map Numeral.digits?
      match texts.mapM (patternOf style), number 'm', number 'A', number 'B', number 'C' with
      | .error e, _, _, _, _ => p.failed e.message 2
      | _, some none, _, _, _ => p.failed "invalid max count" 2
      | _, _, some none, _, _ =>
        p.failed ((a.value? 'A').getD "" ++ ": invalid context length argument") 2
      | _, _, _, some none, _ =>
        p.failed ((a.value? 'B').getD "" ++ ": invalid context length argument") 2
      | _, _, _, _, some none =>
        p.failed ((a.value? 'C').getD "" ++ ": invalid context length argument") 2
      | .ok patterns, most, after, before, both =>
        let both := (both.bind id).getD 0
        let deep := a.has 'r' || a.has 'R'
        let files := if operands.isEmpty then (if deep then [""] else ["-"]) else operands
        let files := if deep then files.flatMap fun f =>
            match p.files.find (Octets.path (if f.isEmpty then "." else f)) with
            | .ok (_, node) => filesBelow f node
            | .error _ => [f]
          else files
        let s : Search :=
          { patterns, caseless := a.has 'i' || a.has 'y', inverted := a.has 'v'
            words := a.has 'w', lines := a.has 'x', most := most.bind id }
        let shownAs : SearchStyle :=
          { counted := a.has 'c', quiet := a.has 'q', onlyParts := a.has 'o'
            names := (a.last? ['l', 'L']).map (· == 'l')
            named := a.last? ['h', 'H'] = some 'H' ||
              ((files.length > 1 || deep) && !a.has 'h')
            numbered := a.has 'n', placed := a.has 'b'
            around := ((before.bind id).getD both, (after.bind id).getD both) }
        let (found, faulty, p) := files.foldl (fun (found, faulty, p) file =>
          let (here, fault, p) := searchFile s shownAs (a.has 's') file p
          (found || here, faulty || fault, p)) (false, false, p)
        p.withStatus (if faulty && !(a.has 'q' && found) then 2 else if found then 0 else 1)

end Utility

end LintSuite
