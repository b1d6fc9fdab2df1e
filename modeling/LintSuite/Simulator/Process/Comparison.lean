import LintSuite.Simulator.Process.Sorting

/-!
# Comparing and dumping files

`cmp` and `comm` tell how two files differ, byte by byte or line by line, and `od` shows the bytes
of files.
-/

namespace LintSuite.Utility

open Host Text

/-! ### Comparing -/

/-- The number of bytes that two files have in common at their fronts. -/
def commonLength : List UInt8 → List UInt8 → Nat
  | a :: s, b :: t => if a = b then commonLength s t + 1 else 0
  | _, _ => 0

/-- Comparing two files byte by byte. -/
def cmp : Utility :=
  reading { flags := ['s', 'l', 'b'], words := [("silent", 's'), ("quiet", 's')] } 2 fun a p =>
    match a.operands with
    | [] => p.misused "missing operand" 2
    | first :: rest =>
      let second := rest.headD "-"
      match p.readAll first with
      | .error e => p.failed (first ++ ": " ++ e.reason) 2
      | .ok (s, p) =>
        match p.readAll second with
        | .error e => p.failed (second ++ ": " ++ e.reason) 2
        | .ok (t, p) =>
          if s = t then p.withStatus 0
          else if a.has 's' then p.withStatus 1
          else
            let n := commonLength s t
            let line := (s.take n).count 10 + 1
            if n < s.length && n < t.length then
              (p.print (first ++ " " ++ second ++ " differ: char " ++ toString (n + 1) ++
                ", line " ++ toString line ++ "\n")).withStatus 1
            else
              let short := if n = s.length then first else second
              let place := if n = 0 then " which is empty"
                else " after byte " ++ toString n ++ ", " ++
                  (if (s.take n).getLast? = some 10 then "line " ++ toString (line - 1)
                  else "in line " ++ toString line)
              p.failed ("EOF on " ++ short ++ place) 1

/-- Lines of two sorted files, each with its column: in the first, in the second, or in both. -/
def columnsOfTwo : Nat → List (List UInt8) → List (List UInt8) → List (Nat × List UInt8)
  | 0, _, _ => []
  | _ + 1, s, [] => s.map fun line => (0, line)
  | _ + 1, [], t => t.map fun line => (1, line)
  | steps + 1, a :: s, b :: t =>
    match compareBytes a b with
    | .lt => (0, a) :: columnsOfTwo steps s (b :: t)
    | .gt => (1, b) :: columnsOfTwo steps (a :: s) t
    | .eq => (2, a) :: columnsOfTwo steps s t

/-- Comparing two sorted files line by line. -/
def comm : Utility := reading { flags := ['1', '2', '3', 'z'] } 1 fun a p =>
  match a.operands with
  | [] => p.misused "missing operand" 1
  | [only] => p.misused ("missing operand after " ++ ShellQuoted.plain only) 1
  | first :: second :: _ =>
    match p.readAll first with
    | .error e => p.failed (ShellQuoted.asNeeded first ++ ": " ++ e.reason) 1
    | .ok (s, p) =>
      match p.readAll second with
      | .error e => p.failed (ShellQuoted.asNeeded second ++ ": " ++ e.reason) 1
      | .ok (t, p) =>
        let mark : UInt8 := if a.has 'z' then 0 else 10
        let s := Octets.records mark s
        let t := Octets.records mark t
        let hidden := fun (column : Nat) => a.has (Char.ofNat ('1'.toNat + column))
        let indent := fun (column : Nat) =>
          ((List.range column).filter (!hidden ·)).map fun _ => (9 : UInt8)
        let lines := ((columnsOfTwo (s.length + t.length + 1) s t).filter (!hidden ·.1)).map
          fun (column, line) => indent column ++ line
        (p.emit 1 (Octets.ended mark lines)).withStatus 0

/-! ### Dumping -/

/-- The ways in which a byte is shown. -/
inductive DumpStyle where
  /-- As a character, if it is one. -/
  | char
  /-- As an octal number. -/
  | octal
  /-- As a hexadecimal number. -/
  | hex
  /-- As a decimal number. -/
  | decimal
  deriving DecidableEq, Repr

/-- Digits with zeros in front to fill a width. -/
def padded (base width n : Nat) : List Char :=
  let digits := Nat.toDigits base n
  List.replicate (width - digits.length) '0' ++ digits

/-- A byte as it is shown, in a column. -/
def DumpStyle.cell (style : DumpStyle) (b : UInt8) : List Char :=
  let column := fun (width : Nat) (cs : List Char) => List.replicate (width - cs.length) ' ' ++ cs
  match style with
  | .octal => ' ' :: padded 8 3 b.toNat
  | .hex => ' ' :: padded 16 2 b.toNat
  | .decimal => column 4 (toString b.toNat).toList
  | .char =>
    column 4 (match b with
      | 0 => ['\\', '0']
      | 7 => ['\\', 'a']
      | 8 => ['\\', 'b']
      | 9 => ['\\', 't']
      | 10 => ['\\', 'n']
      | 11 => ['\\', 'v']
      | 12 => ['\\', 'f']
      | 13 => ['\\', 'r']
      | _ => if 32 ≤ b && b < 127 then [Char.ofNat b.toNat] else padded 8 3 b.toNat)

/-- The style that letters name. -/
def DumpStyle.ofText? (text : String) : Option DumpStyle :=
  match text with
  | "c" => some .char
  | "o1" => some .octal
  | "x1" => some .hex
  | "u1" => some .decimal
  | _ => none

/-- The lines of a dump: a place and sixteen bytes each; a star stands for lines like the one
before. -/
def dumpLines (place : Nat → List Char) (style : DumpStyle) :
    Nat → Nat → Option (List UInt8) → Bool → List UInt8 → List (List Char)
  | 0, _, _, _, _ => []
  | _ + 1, n, _, _, [] => [place n]
  | steps + 1, n, before, starred, bytes =>
    let row := bytes.take 16
    let rest := bytes.drop 16
    if before = some row && !rest.isEmpty then
      (if starred then [] else [['*']]) ++
        dumpLines place style steps (n + row.length) before true rest
    else (place n ++ row.flatMap style.cell) ::
      dumpLines place style steps (n + row.length) (some row) false rest

/-- Showing the bytes of files. -/
def od : Utility :=
  reading { flags := ['b', 'c', 'v', 'x', 'o'], valued := ['A', 't', 'N', 'j', 'w'] } 1 fun a p =>
    let (bytes, p) := p.gather (Process.inputsOf a.operands) Process.plainReport
    let bytes := bytes.drop (((a.value? 'j').bind Numeral.digits?).getD 0)
    let bytes := match (a.value? 'N').bind Numeral.digits? with
      | some n => bytes.take n
      | none => bytes
    let style := if a.has 'c' then .char
      else ((a.value? 't').bind DumpStyle.ofText?).getD .octal
    let place := fun (n : Nat) => match a.value? 'A' with
      | some "n" => []
      | some "d" => padded 10 7 n
      | some "x" => padded 16 6 n
      | _ => padded 8 7 n
    let lines := dumpLines place style (bytes.length + 2) 0 none false bytes
    let lines := if a.value? 'A' = some "n" then lines.dropLast else lines
    p.emit 1 (Octets.ofChars (lines.flatMap (· ++ ['\n'])))

end LintSuite.Utility
