import LintSuite.Simulator.Process.EditScript

/-!
# Calculating with words

`expr` takes its arguments as one calculation.  A value is a text, and a number is a text that
spells one; nothing and zero count as false.  Operators of one level are taken from the left
(`Calculation`).
-/

namespace LintSuite.Calculation

open Text

/-- What is wrong with a calculation. -/
inductive Fault where
  /-- There is nothing to calculate. -/
  | empty
  /-- Nothing follows a word that needs something behind it. -/
  | missing (word : String)
  /-- A word does not belong where it stands. -/
  | unexpected (word : String)
  /-- A bracket is not closed before a word, or before the end, behind a word. -/
  | unclosed (next : Option String) (before : String)
  /-- A text is no number. -/
  | notNumber
  /-- A number is divided by zero. -/
  | zero
  /-- A pattern is wrong. -/
  | pattern (e : Regex.Fault)
  deriving DecidableEq, Repr

/-- The text of a fault. -/
def Fault.message : Fault → String
  | .empty => "missing operand"
  | .missing word => "syntax error: missing argument after " ++ ShellQuoted.plain word
  | .unexpected word => "syntax error: unexpected argument " ++ ShellQuoted.plain word
  | .unclosed (some next) _ => "syntax error: expecting ')' instead of " ++ ShellQuoted.plain next
  | .unclosed none before => "syntax error: expecting ')' after " ++ ShellQuoted.plain before
  | .notNumber => "non-integer argument"
  | .zero => "division by zero"
  | .pattern e => e.message

/-- The number that a value spells, if it spells one. -/
def number? (v : String) : Option Int :=
  if v.startsWith "+" then none else Numeral.integer? v

/-- Whether a value counts as false. -/
def isFalse (v : String) : Bool := v.isEmpty || number? v == some 0

/-- The operators of each level, from the weakest to the strongest. -/
def levels : List (List String) :=
  [["|"], ["&"], ["<", "<=", "=", "==", "!=", ">=", ">"], ["+", "-"], ["*", "/", "%"], [":"]]

/-- What a text has in common with a pattern, from its start: the part in brackets, if there is one,
or the number of characters. -/
def fitted (text pattern : String) : Except Fault String :=
  match Regex.read .basic (pattern.toList) with
  | .error e => .error (.pattern e)
  | .ok p =>
    let s : Subject := ⟨text.toList.toArray, false⟩
    let grouped := 0 < EditScript.groupCount p
    match p.matchAt? s 0 with
    | none => .ok (if grouped then "" else "0")
    | some m =>
      .ok (if grouped then String.ofList (m.part s 1)
        else toString m.place)

/-- The value of an operator for two values. -/
def apply (operator a b : String) : Except Fault String := do
  let truth := fun (b : Bool) => if b then "1" else "0"
  let compared := fun (f : Ordering → Bool) =>
    match number? a, number? b with
    | some m, some n => Except.ok (truth (f (compare m n)))
    | _, _ => .ok (truth (f (compare a b)))
  let counted := fun (f : Int → Int → Except Fault Int) =>
    match number? a, number? b with
    | some m, some n => do Except.ok (toString (← f m n))
    | _, _ => .error .notNumber
  match operator with
  | "|" => .ok (if !isFalse a then a else if !isFalse b then b else "0")
  | "&" => .ok (if isFalse a || isFalse b then "0" else a)
  | "<" => compared (· == .lt)
  | "<=" => compared (· != .gt)
  | "=" | "==" => compared (· == .eq)
  | "!=" => compared (· != .eq)
  | ">=" => compared (· != .lt)
  | ">" => compared (· == .gt)
  | "+" => counted fun m n => .ok (m + n)
  | "-" => counted fun m n => .ok (m - n)
  | "*" => counted fun m n => .ok (m * n)
  | "/" => counted fun m n => if n = 0 then .error .zero else .ok (Int.tdiv m n)
  | "%" => counted fun m n => if n = 0 then .error .zero else .ok (Int.tmod m n)
  | _ => fitted a b

/-- A part of a text, from a place on and of a length. -/
def portion (text place length : String) : String :=
  match number? place, number? length with
  | some p, some n =>
    if p ≤ 0 || n ≤ 0 then ""
    else String.ofList ((text.toList.drop (p.toNat - 1)).take n.toNat)
  | _, _ => ""

/-- The first place in a text of one of some characters, or zero. -/
def firstPlace (text characters : String) : String :=
  toString (((text.toList.findIdx? characters.toList.contains).map (· + 1)).getD 0)

mutual

/-- The value of a word, a function or a bracket, and the words that follow it. -/
def simple : Nat → String → List String → Except Fault (String × List String)
  | 0, before, _ => .error (.missing before)
  | _ + 1, before, [] => .error (.missing before)
  | steps + 1, _, word :: rest => do
    match word with
    | "(" =>
      let (v, rest) ← calculation steps word rest levels
      match rest with
      | ")" :: rest => .ok (v, rest)
      | next :: _ => .error (.unclosed (some next) v)
      | [] => .error (.unclosed none v)
    | ")" => .error (.unexpected ")")
    | "+" =>
      match rest with
      | v :: rest => .ok (v, rest)
      | [] => .error (.missing "+")
    | "length" =>
      let (v, rest) ← simple steps word rest
      .ok (toString v.length, rest)
    | "match" =>
      let (a, rest) ← simple steps word rest
      let (b, rest) ← simple steps a rest
      .ok (← fitted a b, rest)
    | "index" =>
      let (a, rest) ← simple steps word rest
      let (b, rest) ← simple steps a rest
      .ok (firstPlace a b, rest)
    | "substr" =>
      let (a, rest) ← simple steps word rest
      let (b, rest) ← simple steps a rest
      let (c, rest) ← simple steps b rest
      .ok (portion a b c, rest)
    | _ => .ok (word, rest)

/-- The value of a calculation with operators of some levels, and the words that follow it. -/
def calculation : Nat → String → List String → List (List String) →
    Except Fault (String × List String)
  | 0, before, _, _ => .error (.missing before)
  | steps + 1, before, words, [] => simple steps before words
  | steps + 1, before, words, level :: stronger => do
    let (v, rest) ← calculation steps before words stronger
    operators steps v rest level stronger

/-- The value of a calculation that goes on with operators of a level. -/
def operators : Nat → String → List String → List String → List (List String) →
    Except Fault (String × List String)
  | 0, v, rest, _, _ => .ok (v, rest)
  | steps + 1, v, rest, level, stronger =>
    match rest with
    | operator :: more =>
      if level.contains operator then do
        let (w, rest) ← calculation steps operator more stronger
        operators steps (← apply operator v w) rest level stronger
      else .ok (v, rest)
    | [] => .ok (v, rest)

end

/-- **The value of a calculation.** -/
def value (words : List String) : Except Fault String := do
  if words.isEmpty then .error .empty
  else
    let (v, rest) ← calculation (16 * words.length + 16) "" words levels
    match rest with
    | [] => .ok v
    | word :: _ => .error (.unexpected word)

end LintSuite.Calculation

namespace LintSuite.Utility

/-- Printing the value of a calculation. -/
def expr : Utility := fun arguments p =>
  match Calculation.value (if arguments.head? = some "--" then arguments.tail else arguments) with
  | .ok v => (p.print (v ++ "\n")).withStatus (if Calculation.isFalse v then 1 else 0)
  | .error .empty => p.misused Calculation.Fault.empty.message 2
  | .error e => p.failed e.message 2

end LintSuite.Utility
