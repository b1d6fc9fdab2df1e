import LintSuite.Host.FileSystem
import LintSuite.Simulator.Process.Printf
import LintSuite.Simulator.Text.Numeral

/-!
# Conditions

A condition is a list of words: tests of one text, comparisons of two, and these joined by negation,
conjunction, disjunction and brackets.  What a word is depends on those that follow it (`kind`): an
operator without its operands is a text like any other, and what lacks at the end is false.  Up to
four words the number of words comes first (`holds`), so that a text that looks like a bracket or a
negation can be compared.
-/

namespace LintSuite.Condition

open Host Text

/-- What is wrong with a condition. -/
inductive Fault where
  /-- A text is no number. -/
  | notNumber (text : String)
  /-- An operand lacks behind an operator. -/
  | operand (operator : String)
  /-- A bracket is not closed. -/
  | bracket
  /-- What follows a word does not belong there. -/
  | unexpected (word : String)
  deriving DecidableEq, Repr

/-- The text of a fault. -/
def Fault.message : Fault → String
  | .notNumber text => "Illegal number: " ++ text
  | .operand operator => operator ++ ": argument expected"
  | .bracket => "closing paren expected"
  | .unexpected word => word ++ ": unexpected operator"

/-- The number that a text spells. -/
def number (text : String) : Except Fault Int :=
  match Numeral.word? text with
  | some n => .ok n
  | none => .error (.notNumber text)

/-- Whether something is under a path, and what. -/
def onNode (fs : FileSystem) (path : String) (f : Node → Bool) : Bool :=
  match fs.find (Octets.path path) with
  | .ok (_, node) => f node
  | .error _ => false

/-- The access to a node. -/
def accessOf : Node → Access
  | .file access _ => access
  | .dir access _ => access
  | .device _ => .ofFile
  | .link _ => .full

/-- A test of one text. -/
def unary? (fs : FileSystem) (operator : String) : Option (String → Bool) :=
  match operator with
  | "-n" => some fun s => !s.isEmpty
  | "-z" => some fun s => s.isEmpty
  | "-e" => some fun s => fs.exists? (Octets.path s)
  | "-f" => some fun s => fs.isFile (Octets.path s)
  | "-d" => some fun s => fs.isDir (Octets.path s)
  | "-h" | "-L" => some fun s => match fs.findSelf (Octets.path s) with | .ok (.link _) => true | _ => false
  | "-r" => some fun s => onNode fs s fun n => (accessOf n).read
  | "-w" => some fun s => onNode fs s fun n => (accessOf n).write
  | "-x" => some fun s => onNode fs s fun n => (accessOf n).execute
  | "-s" => some fun s => onNode fs s fun n => match n with
    | .file _ content => !content.isEmpty
    | .device _ => false
    | _ => true
  | "-c" => some fun s => onNode fs s fun n => match n with
    | .device _ => true
    | _ => false
  | "-O" | "-G" => some fun s => fs.exists? (Octets.path s)
  | "-p" | "-S" | "-b" | "-g" | "-k" | "-u" => some fun _ => false
  | _ => none

/-- A comparison of two numbers. -/
def compareNumbers (a b : String) (f : Int → Int → Bool) : Except Fault Bool := do
  .ok (f (← number a) (← number b))

/-- Whether two paths lead to one node. -/
def areSame (fs : FileSystem) (a b : String) : Bool :=
  match fs.find (Octets.path a), fs.find (Octets.path b) with
  | .ok (l, _), .ok (m, _) => l == m
  | _, _ => false

/-- A comparison of two texts.  No file is newer than another. -/
def binary? (fs : FileSystem) (operator : String) :
    Option (String → String → Except Fault Bool) :=
  match operator with
  | "=" => some fun a b => .ok (a == b)
  | "!=" => some fun a b => .ok (a != b)
  | "<" => some fun a b => .ok (a < b)
  | ">" => some fun a b => .ok (b < a)
  | "-eq" => some fun a b => compareNumbers a b (· == ·)
  | "-ne" => some fun a b => compareNumbers a b (· != ·)
  | "-lt" => some fun a b => compareNumbers a b (· < ·)
  | "-le" => some fun a b => compareNumbers a b (· ≤ ·)
  | "-gt" => some fun a b => compareNumbers a b (· > ·)
  | "-ge" => some fun a b => compareNumbers a b (· ≥ ·)
  | "-ef" => some fun a b => .ok (areSame fs a b)
  | "-nt" | "-ot" => some fun _ _ => .ok false
  | _ => none

/-- What a word is. -/
inductive Kind where
  /-- There is no word. -/
  | nothing
  /-- A text. -/
  | text
  /-- A test of the next text. -/
  | unary (f : String → Bool)
  /-- A question whether a descriptor leads to a terminal, which none does. -/
  | terminal
  /-- A comparison of the texts around it. -/
  | binary (f : String → String → Except Fault Bool)
  /-- A negation. -/
  | not
  /-- A conjunction. -/
  | both
  /-- A disjunction. -/
  | either
  /-- An opening bracket. -/
  | opening
  /-- A closing bracket. -/
  | closing

/-- What the first of some words is. -/
def kind (fs : FileSystem) : List String → Kind
  | [] => .nothing
  | word :: rest =>
    let test? : Option Kind :=
      if word = "-t" then some .terminal else (unary? fs word).map .unary
    match test?, binary? fs word with
    | some test, _ =>
      match rest with
      | [] => .text
      | [_] => test
      | second :: _ => if (binary? fs second).isSome then .text else test
    | none, some f => .binary f
    | none, none =>
      match word with
      | "!" => .not
      | "-a" => .both
      | "-o" => .either
      | "(" => if rest.isEmpty then .text else .opening
      | ")" => .closing
      | _ => .text

mutual

/-- A test, a comparison, a bracket or a single text, and what follows it. -/
def primary (fs : FileSystem) : Nat → List String → Except Fault (Bool × List String)
  | 0, words => .ok (false, words)
  | _ + 1, [] => .ok (false, [])
  | steps + 1, word :: rest => do
    match kind fs (word :: rest), rest with
    | .opening, _ =>
      match kind fs rest with
      | .closing => .ok (false, rest.tail)
      | _ =>
        let (b, rest) ← disjunction fs steps rest
        match kind fs rest with
        | .closing => .ok (b, rest.tail)
        | _ => .error .bracket
    | .unary f, x :: rest => .ok (f x, rest)
    | .terminal, x :: rest => do
      let _ ← number x
      .ok (false, rest)
    | _, _ =>
      match kind fs rest with
      | .binary f =>
        match rest.tail with
        | [] => .error (.operand (rest.headD ""))
        | other :: rest => .ok (← f word other, rest)
      | _ => .ok (!word.isEmpty, rest)

/-- A negation, and what follows it. -/
def negation (fs : FileSystem) : Nat → List String → Except Fault (Bool × List String)
  | 0, words => .ok (false, words)
  | steps + 1, words => do
    match kind fs words with
    | .not =>
      let (b, rest) ← negation fs steps words.tail
      .ok (!b, rest)
    | _ => primary fs steps words

/-- A conjunction, and what follows it. -/
def conjunction (fs : FileSystem) : Nat → List String → Except Fault (Bool × List String)
  | 0, words => .ok (false, words)
  | steps + 1, words => do
    let (a, rest) ← negation fs steps words
    match kind fs rest with
    | .both =>
      let (b, rest) ← conjunction fs steps rest.tail
      .ok (a && b, rest)
    | _ => .ok (a, rest)

/-- A disjunction, and what follows it. -/
def disjunction (fs : FileSystem) : Nat → List String → Except Fault (Bool × List String)
  | 0, words => .ok (false, words)
  | steps + 1, words => do
    let (a, rest) ← conjunction fs steps words
    match kind fs rest with
    | .either =>
      let (b, rest) ← disjunction fs steps rest.tail
      .ok (a || b, rest)
    | _ => .ok (a, rest)

end

/-- The words of a condition as a whole. -/
def whole (fs : FileSystem) (words : List String) : Except Fault Bool := do
  let (b, rest) ← disjunction fs (6 * words.length + 6) words
  match rest with
  | [] => .ok b
  | _ => .error (.unexpected (words.getD (words.length - rest.length - 1) ""))

/-- The comparison that three words are, if they are one. -/
def comparison? (fs : FileSystem) : List String → Option (Except Fault Bool)
  | [a, operator, b] => (binary? fs operator).map fun f => f a b
  | _ => none

/-- **Whether a condition holds.** -/
def holds (fs : FileSystem) : List String → Except Fault Bool
  | [] => .ok false
  | first :: rest =>
    match comparison? fs (first :: rest) with
    | some result => result
    | none =>
      if rest.length = 2 || rest.length = 3 then
        if first = "(" && rest.getLast? = some ")" then whole fs rest.dropLast
        else if first = "!" then (holds fs rest).map (!·)
        else whole fs (first :: rest)
      else whole fs (first :: rest)

end LintSuite.Condition
