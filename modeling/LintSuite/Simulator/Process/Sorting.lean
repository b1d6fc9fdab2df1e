import LintSuite.Simulator.Process.Excerpt

/-!
# Sorting lines

Lines are compared by keys, parts of a line that are told by fields and places inside them, and by
the whole line if all keys are alike.  A key is compared as text or as a number.  `sort` is stable,
so lines that nothing tells apart keep their order; `uniq` takes neighbours that are alike together.
-/

namespace LintSuite.Utility

open Host Text

/-! ### Keys -/

/-- How keys are compared. -/
structure Ordering' where
  /-- Whether leading blanks do not count. -/
  skipBlanks : Bool := false
  /-- Whether only letters, digits and blanks count. -/
  dictionary : Bool := false
  /-- Whether small letters count as capital ones. -/
  folded : Bool := false
  /-- Whether they are numbers. -/
  numeric : Bool := false
  /-- Whether the greater comes first. -/
  reversed : Bool := false
  deriving DecidableEq

/-- The way of comparing that letters ask for. -/
def Ordering'.ofLetters (letters : List Char) : Ordering' :=
  { skipBlanks := letters.contains 'b', dictionary := letters.contains 'd'
    folded := letters.contains 'f', reversed := letters.contains 'r'
    numeric := letters.any ['n', 'g', 'h'].contains }

/-- A place in a line: a number of fields to pass, and a number of bytes behind them. -/
structure SortPlace where
  /-- The fields. -/
  fields : Nat
  /-- The bytes. -/
  bytes : Nat

/-- A key: where it starts, where it ends if that is not the end of the line, and how it is
compared. -/
structure SortKey where
  /-- Where it starts. -/
  start : SortPlace
  /-- Where it ends. -/
  stop : Option SortPlace
  /-- How it is compared. -/
  order : Ordering'

/-- What is left behind a field, without the mark at its end. -/
def behindField (separator : Option UInt8) (line : List UInt8) : List UInt8 :=
  match separator with
  | some mark => line.dropWhile (· != mark)
  | none => (line.dropWhile Octets.isBlank).dropWhile (!Octets.isBlank ·)

/-- What is left behind some fields. -/
def behindFields (separator : Option UInt8) : Nat → List UInt8 → List UInt8
  | 0, line => line
  | n + 1, line =>
    let rest := behindField separator line
    behindFields separator n (if separator.isSome then rest.drop 1 else rest)

/-- How many bytes stand in front of the end of a key. -/
def stopLength (separator : Option UInt8) (skipBlanks : Bool) (stop : SortPlace)
    (line : List UInt8) : Nat :=
  let rest := behindFields separator stop.fields line
  if stop.bytes = 0 then line.length - (behindField separator rest).length
  else
    let rest := if skipBlanks then rest.dropWhile Octets.isBlank else rest
    min line.length (line.length - rest.length + stop.bytes)

/-- The part of a line that a key tells. -/
def SortKey.part (separator : Option UInt8) (key : SortKey) (line : List UInt8) : List UInt8 :=
  let rest := behindFields separator key.start.fields line
  let rest := if key.order.skipBlanks then rest.dropWhile Octets.isBlank else rest
  let rest := rest.drop key.start.bytes
  match key.stop with
  | none => rest
  | some stop =>
    rest.take (stopLength separator key.order.skipBlanks stop line + rest.length - line.length)

/-! ### Comparing -/

/-- A decimal number at the front of some bytes: its digits as one number, and how many of them
stand behind the point. -/
def leadingNumber (bytes : List UInt8) : Int × Nat :=
  let bytes := bytes.dropWhile Octets.isBlank
  let (negative, bytes) := match bytes with
    | 45 :: rest => (true, rest)
    | _ => (false, bytes)
  let isDigit := fun (b : UInt8) => 48 ≤ b && b ≤ 57
  let whole := bytes.takeWhile isDigit
  let part := match bytes.drop whole.length with
    | 46 :: rest => rest.takeWhile isDigit
    | _ => []
  let n : Nat := (whole ++ part).foldl (fun n b => n * 10 + (b.toNat - 48)) 0
  (if negative then -n else n, part.length)

/-- The order of two numbers at the front of some bytes. -/
def compareNumbers (a b : List UInt8) : Ordering :=
  let (m, k) := leadingNumber a
  let (n, l) := leadingNumber b
  compare (m * Decimal.tenTo l) (n * Decimal.tenTo k)

/-- The order of bytes. -/
def compareBytes (a b : List UInt8) : Ordering :=
  if a = b then .eq else if Octets.le a b then .lt else .gt

/-- The bytes that count. -/
def Ordering'.counted (o : Ordering') (bytes : List UInt8) : List UInt8 :=
  let isWordByte := fun (b : UInt8) => Octets.isBlank b || (Char.ofNat b.toNat).isAlphanum
  let bytes := if o.dictionary then bytes.filter isWordByte else bytes
  if o.folded then bytes.map fun b => if 97 ≤ b && b ≤ 122 then b - 32 else b else bytes

/-- The order of two parts of lines. -/
def Ordering'.compare (o : Ordering') (a b : List UInt8) : Ordering :=
  let result := if o.numeric then compareNumbers a b
    else compareBytes (o.counted a) (o.counted b)
  if o.reversed then result.swap else result

/-- The order of two lines by some keys. -/
def compareByKeys (separator : Option UInt8) (keys : List SortKey) (a b : List UInt8) : Ordering :=
  keys.foldl (fun result key =>
    result.then (key.order.compare (key.part separator a) (key.part separator b))) .eq

/-! ### Reading keys -/

/-- A number at the front of some characters, and what follows it. -/
def readCount (cs : List Char) : Option Nat × List Char :=
  let digits := cs.takeWhile Char.isDigit
  (if digits.isEmpty then none else some (digits.foldl (fun n c => n * 10 + Printf.digitValue c) 0),
    cs.drop digits.length)

/-- A field, and a place in it, from which one counts, and what follows. -/
def readPlace (cs : List Char) : Option (Nat × Option Nat) × List Char :=
  match readCount cs with
  | (some field, '.' :: rest) =>
    let (place, rest) := readCount rest
    (some (field, place), rest)
  | (some field, rest) => (some (field, none), rest)
  | (none, rest) => (none, rest)

/-- The key that a text describes, where letters of its own replace those for all keys. -/
def SortKey.ofText? (order : Ordering') (text : String) : Option SortKey :=
  match readPlace text.toList with
  | (some (field, place), rest) =>
    let letters := rest.takeWhile (· != ',')
    if field = 0 then none
    else
      let (stop, more) := match rest.drop letters.length with
        | ',' :: rest =>
          match readPlace rest with
          | (some (field, place), more) => (some (SortPlace.mk (field - 1) (place.getD 0)), more)
          | (none, more) => (none, more)
        | _ => (none, [])
      let own := letters ++ more
      some ⟨⟨field - 1, place.getD 1 - 1⟩, stop,
        if own.isEmpty then order else .ofLetters own⟩
  | _ => none

/-! ### Utilities -/

/-- Sorted lines. -/
def sortLines (separator : Option UInt8) (keys : List SortKey) (reversed stable unique : Bool)
    (lines : List (List UInt8)) : List (List UInt8) :=
  let last := fun (a b : List UInt8) =>
    if stable || unique then .eq
    else if reversed then compareBytes b a else compareBytes a b
  let sorted := lines.mergeSort fun a b =>
    (compareByKeys separator keys a b).then (last a b) != .gt
  if unique then
    (sorted.foldl (fun (kept : List (List UInt8)) line =>
      match kept with
      | before :: _ => if compareByKeys separator keys before line = .eq then kept else line :: kept
      | [] => [line]) []).reverse
  else sorted

/-- The first line that should not follow the one before it, and its number. -/
def firstDisorder (fits : List UInt8 → List UInt8 → Bool) :
    Nat → List (List UInt8) → Option (Nat × List UInt8)
  | n, a :: b :: rest =>
    if fits a b then firstDisorder fits (n + 1) (b :: rest) else some (n + 1, b)
  | _, _ => none

/-- Sorting the lines of files. -/
def sort : Utility :=
  reading { flags := ['b', 'd', 'f', 'g', 'h', 'i', 'n', 'r', 's', 'u', 'c', 'C', 'm', 'z']
            valued := ['k', 't', 'o', 'S', 'T']
            words := [("ignore-leading-blanks", 'b'), ("dictionary-order", 'd'),
              ("ignore-case", 'f'), ("numeric-sort", 'n'), ("reverse", 'r'), ("stable", 's'),
              ("unique", 'u'), ("check", 'c'), ("merge", 'm'), ("key", 'k'), ("zero-terminated", 'z'),
              ("field-separator", 't'), ("output", 'o')] } 2 fun a p =>
    let order := Ordering'.ofLetters (a.options.map (·.1))
    let mark : UInt8 := if a.has 'z' then 0 else 10
    let separator := (a.value? 't').bind fun t => (Octets.ofString t).head?
    let keys := (a.values 'k').map (SortKey.ofText? order)
    match (a.values 'k').find? fun k => (SortKey.ofText? order k).isNone with
    | some bad =>
      let text := if (readCount bad.toList).1 = some 0 then
          "field number is zero: invalid field specification "
        else "invalid number at field start: invalid count at start of "
      p.failed (text ++ ShellQuoted.plain bad) 2
    | none =>
      let keys := if keys.isEmpty then [⟨⟨0, 0⟩, none, order⟩] else keys.filterMap id
      let files := Process.inputsOf a.operands
      match files.find? fun f => (p.readAll f).toOption.isNone with
      | some file =>
        match p.readAll file with
        | .error .isDirectory => p.failed ("read failed: " ++ ShellQuoted.asNeeded file ++ ": Is a directory") 2
        | .error e => p.failed ("cannot read: " ++ ShellQuoted.asNeeded file ++ ": " ++ e.reason) 2
        | .ok _ => p
      | none =>
        let (bytes, p) := files.foldl (fun (parts, p) file =>
          match p.readAll file with
          | .ok (bytes, p) => (parts ++ Octets.ended mark (Octets.records mark bytes), p)
          | .error _ => (parts, p)) (([] : List UInt8), p.withStatus 0)
        let lines := Octets.records mark bytes
        if a.has 'c' || a.has 'C' then
          let fits := fun x y => match compareByKeys separator keys x y with
            | .lt => true
            | .eq => !a.has 'u' && (a.has 's' || !(if order.reversed then compareBytes y x
                else compareBytes x y) == .gt)
            | .gt => false
          match firstDisorder fits 1 lines with
          | none => p
          | some (n, line) =>
            let text := files.headD "-" ++ ":" ++ toString n ++ ": disorder: " ++
              Octets.toText line
            if a.has 'C' then p.withStatus 1 else p.failed text 1
        else
          let sorted := Octets.ended mark
            (sortLines separator keys order.reversed (a.has 's') (a.has 'u') lines)
          match a.value? 'o' with
          | none => p.emit 1 sorted
          | some file =>
            match p.files.write (Octets.path file) sorted with
            | .ok files => { p with files }
            | .error e => p.failed ("open failed: " ++ ShellQuoted.asNeeded file ++ ": " ++ e.reason) 2

/-- Lines that are alike, next to each other, taken together. -/
def alikeRuns (view : List UInt8 → List UInt8) (lines : List (List UInt8)) :
    List (List (List UInt8)) :=
  lines.splitBy fun a b => view a == view b

/-- A line with the number of its copies in front. -/
def withCopies (n : Nat) (line : List UInt8) : List UInt8 :=
  let digits := Octets.ofString (toString n)
  List.replicate (7 - digits.length) 32 ++ digits ++ [32] ++ line

/-- Printing one of several lines that are alike. -/
def uniq : Utility :=
  reading { flags := ['c', 'd', 'u', 'i', 'D', 'z'], valued := ['f', 's', 'w']
            words := [("count", 'c'), ("repeated", 'd'), ("unique", 'u'), ("ignore-case", 'i'),
              ("all-repeated", 'D'), ("skip-fields", 'f'), ("skip-chars", 's'),
              ("check-chars", 'w'), ("zero-terminated", 'z')] } 1 fun a p =>
    let mark : UInt8 := if a.has 'z' then 0 else 10
    let number := fun (c : Char) => ((a.value? c).bind Numeral.digits?)
    let view := fun (line : List UInt8) =>
      let line := behindFields none ((number 'f').getD 0) line
      let line := line.drop ((number 's').getD 0)
      let line := match number 'w' with
        | some n => line.take n
        | none => line
      if a.has 'i' then line.map Octets.lower else line
    match a.operands with
    | _ :: _ :: extra :: _ => p.misused ("extra operand " ++ ShellQuoted.plain extra) 1
    | operands =>
      match p.readAll (operands.headD "-") with
      | .error e => p.failed (ShellQuoted.asNeeded (operands.headD "-") ++ ": " ++ e.reason) 1
      | .ok (bytes, p) =>
        let runs := alikeRuns view (Octets.records mark bytes)
        let wanted := runs.filter fun run =>
          !((a.has 'd' || a.has 'D') && run.length < 2) && !(a.has 'u' && run.length > 1)
        let shown := wanted.flatMap fun run =>
          if a.has 'D' then run
          else [if a.has 'c' then withCopies run.length (run.headD []) else run.headD []]
        match operands with
        | [_, file] =>
          match p.files.write (Octets.path file) (Octets.ended mark shown) with
          | .ok files => { p with files }.withStatus 0
          | .error e => p.failed (ShellQuoted.asNeeded file ++ ": " ++ e.reason) 1
        | _ => (p.emit 1 (Octets.ended mark shown)).withStatus 0

end LintSuite.Utility
