import LintSuite.Simulator.Process.Input

/-!
# Replacing characters

`tr` works on sets of bytes, each written as a text: bytes stand for themselves, escapes for a byte,
ranges and classes for several, and a byte may be asked for a number of times.  The bytes of a set
have an order, since the first of one set gives way to the first of another.
-/

namespace LintSuite

open Text

namespace ByteSet

/-- What is wrong with a set. -/
inductive Fault where
  /-- A range goes down. -/
  | reversed (text : String)
  /-- There is no such class. -/
  | unknownClass (name : String)
  deriving DecidableEq, Repr

/-- The text of a fault. -/
def Fault.message : Fault → String
  | .reversed text =>
    "range-endpoints of '" ++ text ++ "' are in reverse collating sequence order"
  | .unknownClass name => "invalid character class " ++ ShellQuoted.plain name

/-- A part of a set. -/
inductive Part where
  /-- Bytes in order. -/
  | bytes (bs : List UInt8)
  /-- A byte a number of times, or, without one, as often as it takes. -/
  | repeated (b : UInt8) (times : Option Nat)
  deriving DecidableEq, Repr

/-- The bytes from one to another. -/
def range (first last : UInt8) : List UInt8 :=
  (List.range (last.toNat + 1 - first.toNat)).map fun n => UInt8.ofNat (first.toNat + n)

/-- All bytes. -/
def all : List UInt8 := range 0 255

/-- Whether a byte is in the class of a name. -/
def class? (name : String) : Option (UInt8 → Bool) :=
  let between := fun (lo hi b : UInt8) => lo ≤ b && b ≤ hi
  let upper := between 65 90
  let lower := between 97 122
  let digit := between 48 57
  let graphic := between 33 126
  match name with
  | "upper" => some upper
  | "lower" => some lower
  | "alpha" => some fun b => upper b || lower b
  | "digit" => some digit
  | "alnum" => some fun b => upper b || lower b || digit b
  | "blank" => some Octets.isBlank
  | "space" => some Octets.isSpace
  | "cntrl" => some fun b => b < 32 || b = 127
  | "graph" => some graphic
  | "print" => some fun b => graphic b || b = 32
  | "punct" => some fun b => graphic b && !(upper b || lower b || digit b)
  | "xdigit" => some fun b => digit b || between 65 70 b || between 97 102 b
  | _ => none

/-- A single byte of a set as it is written, and what follows it. -/
def readByte : List Char → Option (UInt8 × List Char)
  | [] => none
  | '\\' :: rest =>
    match if rest.head? = some 'e' then none else Printf.escape? rest with
    | some found => some found
    | none =>
      match rest with
      | c :: rest => some (UInt8.ofNat c.toNat, rest)
      | [] => some (92, [])
  | c :: rest => some (UInt8.ofNat c.toNat, rest)

/-- The number of times that is written between a star and a bracket. -/
def timesOf (digits : List Char) : Option Nat :=
  let n := if digits.head? = some '0' then Printf.octal digits
    else digits.foldl (fun n c => n * 10 + Printf.digitValue c) 0
  if n = 0 then none else some n

/-- The parts of a set, on a number of steps. -/
def readFrom : Nat → List Char → Except Fault (List Part)
  | 0, _ => .ok []
  | _ + 1, [] => .ok []
  | steps + 1, cs => do
    let bracket? : Option (Except Fault Part × List Char) := match cs with
      | '[' :: ':' :: rest =>
        let name := rest.takeWhile (· != ':')
        match rest.drop name.length with
        | ':' :: ']' :: more =>
          let text := String.ofList name
          match class? text with
          | some f => some (.ok (.bytes (all.filter f)), more)
          | none => some (.error (.unknownClass text), more)
        | _ => none
      | '[' :: '=' :: c :: '=' :: ']' :: more => some (.ok (.bytes [UInt8.ofNat c.toNat]), more)
      | '[' :: rest =>
        match readByte rest with
        | some (b, '*' :: more) =>
          let digits := more.takeWhile Char.isDigit
          match more.drop digits.length with
          | ']' :: more => some (.ok (.repeated b (timesOf digits)), more)
          | _ => none
        | _ => none
      | _ => none
    match bracket? with
    | some (part, rest) => .ok ((← part) :: (← readFrom steps rest))
    | none =>
      match readByte cs with
      | none => .ok []
      | some (first, '-' :: c :: rest) =>
        match readByte (c :: rest) with
        | some (last, rest) =>
          if last < first then
            .error (.reversed (String.ofList [Char.ofNat first.toNat, '-', Char.ofNat last.toNat]))
          else .ok (.bytes (range first last) :: (← readFrom steps rest))
        | none => .ok [.bytes [first]]
      | some (b, rest) => .ok (.bytes [b] :: (← readFrom steps rest))

/-- The parts of a set that a text describes. -/
def read (text : String) : Except Fault (List Part) :=
  let cs := text.toList
  readFrom cs.length cs

/-- The bytes of a set that should have a number of them. -/
def bytesOf (size : Nat) (parts : List Part) : List UInt8 :=
  let fixed := (parts.map fun part => match part with
    | .bytes bs => bs.length
    | .repeated _ times => times.getD 0).foldl (· + ·) 0
  parts.flatMap fun part => match part with
    | .bytes bs => bs
    | .repeated b times => List.replicate (times.getD (size - fixed)) b

end ByteSet

namespace Utility

/-- Bytes of a set without the copies that follow one. -/
def squeezed (set : UInt8 → Bool) (bytes : List UInt8) : List UInt8 :=
  (bytes.foldl (fun (kept : List UInt8) b =>
    if kept.head? = some b && set b then kept else b :: kept) []).reverse

/-- A byte in the place of another, the last of those that have one counting. -/
def replaced (pairs : List (UInt8 × UInt8)) : Array UInt8 :=
  pairs.foldl (fun table (b, c) => table.setIfInBounds b.toNat c) (ByteSet.all.toArray)

/-- What is to be done with the bytes. -/
structure Replacing where
  /-- Whether the first set is meant as what is not in it. -/
  complement : Bool
  /-- Whether bytes of the first set are dropped. -/
  delete : Bool
  /-- Whether copies that follow a byte are dropped. -/
  squeeze : Bool
  /-- Whether the first set is cut to the size of the second. -/
  truncate : Bool

/-- The bytes as the sets say. -/
def Replacing.apply (t : Replacing) (first : List UInt8) (second : Option (List ByteSet.Part))
    (bytes : List UInt8) : List UInt8 :=
  let first := if t.complement then ByteSet.all.filter (!first.contains ·) else first
  let isFirst := fun b => first.contains b
  let set := (second.getD []) |> ByteSet.bytesOf first.length
  if t.delete then
    let kept := bytes.filter (!isFirst ·)
    if t.squeeze then squeezed set.contains kept else kept
  else if second.isNone then squeezed isFirst bytes
  else
    let targets := if t.truncate then set
      else set ++ List.replicate (first.length - set.length) (set.getLastD 0)
    let table := replaced (first.zip targets)
    let changed := bytes.map fun b => table.getD b.toNat b
    if t.squeeze then squeezed set.contains changed else changed

/-- Replacing, dropping and thinning out bytes. -/
def tr : Utility :=
  reading { flags := ['c', 'C', 'd', 's', 't'], mixed := false
            words := [("complement", 'c'), ("delete", 'd'), ("squeeze-repeats", 's'),
              ("truncate-set1", 't')] } 1 fun a p =>
    let t : Replacing := ⟨a.has 'c' || a.has 'C', a.has 'd', a.has 's', a.has 't'⟩
    let needsTwo := t.delete == t.squeeze
    let misused := fun (text more : String) =>
      ((p.complain (p.name ++ ": " ++ text)).complain more).complain
        ("Try '" ++ p.name ++ " --help' for more information.") |>.withStatus 1
    match a.operands with
    | [] => p.misused "missing operand" 1
    | [one] =>
      if needsTwo then
        misused ("missing operand after " ++ ShellQuoted.plain one)
          (if t.delete then "Two strings must be given when both deleting and squeezing repeats."
          else "Two strings must be given when translating.")
      else match ByteSet.read one with
        | .error e => p.failed e.message 1
        | .ok first =>
          let (bytes, p) := p.takeInput
          (p.emit 1 (t.apply (ByteSet.bytesOf 0 first) none bytes)).withStatus 0
    | [one, two] =>
      if t.delete && !t.squeeze then
        misused ("extra operand " ++ ShellQuoted.plain two)
          "Only one string may be given when deleting without squeezing repeats."
      else match ByteSet.read one, ByteSet.read two with
        | .error e, _ => p.failed e.message 1
        | _, .error e => p.failed e.message 1
        | .ok first, .ok second =>
          if second.isEmpty && !t.delete && !t.truncate then
            p.failed "when not truncating set1, string2 must be non-empty" 1
          else
            let (bytes, p) := p.takeInput
            (p.emit 1 (t.apply (ByteSet.bytesOf 0 first) (some second) bytes)).withStatus 0
    | _ :: _ :: extra :: _ => p.misused ("extra operand " ++ ShellQuoted.plain extra) 1

end Utility

end LintSuite
