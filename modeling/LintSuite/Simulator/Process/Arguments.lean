import LintSuite.Simulator.Process.State

/-!
# Arguments of utilities

A utility is told what to do by options, which are letters behind a dash or words behind two, and by
operands.  Letters may stand together, and the value of an option may stand in the same argument or
in the next one.  Two dashes alone end the options.  `Arguments.read` takes arguments apart by a
`Vocabulary`; words may be shortened as long as they mean one option only.
-/

namespace LintSuite

/-- The options that a utility knows. -/
structure Vocabulary where
  /-- The letters of options without a value. -/
  flags : List Char := []
  /-- The letters of options with a value. -/
  valued : List Char := []
  /-- The letters of options with a value that must stand in the same argument, if there is one. -/
  attached : List Char := []
  /-- The words for options, with their letters. -/
  words : List (String × Char) := []
  /-- Whether options may stand behind operands. -/
  mixed : Bool := true

/-- **Arguments taken apart.** -/
structure Arguments where
  /-- The options, in order, with their values; that of an option without one is empty. -/
  options : List (Char × String) := []
  /-- The operands. -/
  operands : List String := []
  deriving DecidableEq, Repr

/-- What is wrong with an argument. -/
inductive ArgumentFault where
  /-- There is no such letter. -/
  | letter (c : Char)
  /-- There is no such word. -/
  | word (text : String)
  /-- A word means several options. -/
  | ambiguous (text : String) (meanings : List String)
  /-- An option lacks its value. -/
  | letterValue (c : Char)
  /-- An option given by a word lacks its value. -/
  | wordValue (word : String)
  /-- An option given by a word has a value and takes none. -/
  | unwanted (word : String)
  deriving DecidableEq, Repr

/-- The text of a fault. -/
def ArgumentFault.message : ArgumentFault → String
  | .letter c => "invalid option -- '" ++ String.ofList [c] ++ "'"
  | .word text => "unrecognized option '" ++ text ++ "'"
  | .ambiguous text meanings =>
    "option '" ++ text ++ "' is ambiguous; possibilities:" ++
      String.join (meanings.map fun m => " '--" ++ m ++ "'")
  | .letterValue c => "option requires an argument -- '" ++ String.ofList [c] ++ "'"
  | .wordValue name => "option '--" ++ name ++ "' requires an argument"
  | .unwanted name => "option '--" ++ name ++ "' doesn't allow an argument"

/-- The text of a fault as a shell words it. -/
def ArgumentFault.shellMessage : ArgumentFault → String
  | .letter c => "Illegal option -" ++ String.ofList [c]
  | .letterValue c => "No arg for -" ++ String.ofList [c] ++ " option"
  | _ => "Illegal option --"

namespace Arguments

/-- The arguments with one more option in front. -/
def withOption (c : Char) (value : String) (a : Arguments) : Arguments :=
  { a with options := (c, value) :: a.options }

/-- The arguments with one more operand in front. -/
def withOperand (operand : String) (a : Arguments) : Arguments :=
  { a with operands := operand :: a.operands }

/-- Letters that stand together, before other arguments. -/
def readLetters (v : Vocabulary) (next : List String → Except ArgumentFault Arguments)
    (rest : List String) : List Char → Except ArgumentFault Arguments
  | [] => next rest
  | c :: cs =>
    if v.valued.contains c then
      if !cs.isEmpty then do .ok ((← next rest).withOption c (String.ofList cs))
      else match rest with
        | value :: rest => do .ok ((← next rest).withOption c value)
        | [] => .error (.letterValue c)
    else if v.attached.contains c then do .ok ((← next rest).withOption c (String.ofList cs))
    else if v.flags.contains c then do
      .ok ((← readLetters v next rest cs).withOption c "")
    else .error (.letter c)

/-- A word behind two dashes, before other arguments. -/
def readWord (v : Vocabulary) (next : List String → Except ArgumentFault Arguments)
    (rest : List String) (text : List Char) : Except ArgumentFault Arguments :=
  let name := text.takeWhile (· != '=')
  let value : Option String := match text.drop name.length with
    | _ :: value => some (String.ofList value)
    | [] => none
  let meanings : List (String × Char) := match v.words.filter (·.1.toList == name) with
    | [] => v.words.filter fun w => name.isPrefixOf w.1.toList
    | exact => exact
  match meanings with
  | [] => .error (.word ("--" ++ String.ofList text))
  | [(word, c)] =>
    if v.valued.contains c then
      match value, rest with
      | some value, _ => do .ok ((← next rest).withOption c value)
      | none, value :: rest => do .ok ((← next rest).withOption c value)
      | none, [] => .error (.wordValue word)
    else if v.attached.contains c then do .ok ((← next rest).withOption c (value.getD ""))
    else if value.isSome then .error (.unwanted word)
    else do .ok ((← next rest).withOption c "")
  | _ => .error (.ambiguous ("--" ++ String.ofList text) (meanings.map (·.1)))

/-- Arguments, on a number of steps. -/
def readFrom (v : Vocabulary) : Nat → List String → Except ArgumentFault Arguments
  | 0, operands => .ok { operands }
  | _ + 1, [] => .ok {}
  | steps + 1, a :: rest =>
    match a.toList with
    | ['-', '-'] => .ok { operands := rest }
    | '-' :: '-' :: text => readWord v (readFrom v steps) rest text
    | '-' :: c :: cs => readLetters v (readFrom v steps) rest (c :: cs)
    | _ =>
      if v.mixed then do .ok ((← readFrom v steps rest).withOperand a)
      else .ok { operands := a :: rest }

/-- **Taking arguments apart.** -/
def read (v : Vocabulary) (arguments : List String) : Except ArgumentFault Arguments :=
  readFrom v arguments.length arguments

/-- Whether an option is given. -/
def has (a : Arguments) (c : Char) : Bool := a.options.any (·.1 == c)

/-- The last value of an option. -/
def value? (a : Arguments) (c : Char) : Option String :=
  (a.options.reverse.find? (·.1 == c)).map (·.2)

/-- All values of an option. -/
def values (a : Arguments) (c : Char) : List String :=
  (a.options.filter (·.1 == c)).map (·.2)

/-- The last of some options that is given. -/
def last? (a : Arguments) (letters : List Char) : Option Char :=
  (a.options.reverse.find? fun o => letters.contains o.1).map (·.1)

end Arguments

end LintSuite
