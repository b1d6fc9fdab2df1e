/-!
# Shell scripts

The tools of a tree may be shell scripts.  A script is a sequence of commands; a simple command is a
list of words with assignments before them and redirections around them, and the compound commands
are those of the standard shell language: lists, pipelines, conditionals, loops, choices and
functions.

A word is made of pieces: text, and expansions that are replaced when the command is run.  A piece
knows whether it stood inside quotes, since what is quoted is not cut into several words.
Expansions hold words and commands of their own.

## Main definitions

* `Piece`, `Word` — words before they are expanded
* `Command` — commands
-/

namespace LintSuite.Shell

/-- How a file is written. -/
inductive Writing where
  /-- From its start, unless files that are there are to be kept. -/
  | fresh
  /-- From its start in any case. -/
  | forced
  /-- At its end. -/
  | added
  deriving DecidableEq, Repr

mutual

/-- What is done with the value of a parameter. -/
inductive ParameterUse where
  /-- It is taken as it is. -/
  | value
  /-- Its length is taken. -/
  | length
  /-- A word stands in for it if it is not set, or, with a colon, empty. -/
  | default (colon : Bool) (word : List Piece)
  /-- A word stands in for it if it is set, and, with a colon, not empty. -/
  | alternative (colon : Bool) (word : List Piece)
  /-- It is set to a word if it is not set, or, with a colon, empty. -/
  | assign (colon : Bool) (word : List Piece)
  /-- A script that needs it ends with a word as its message if it is not set, or, with a colon,
  empty. -/
  | demand (colon : Bool) (word : List Piece)
  /-- A part that fits a pattern is taken off its front or its back, the shortest or the longest. -/
  | trim (front longest : Bool) (pattern : List Piece)
  /-- Nothing is known that could be done. -/
  | invalid

/-- **A piece of a word.** -/
inductive Piece where
  /-- Text that stands for itself. -/
  | text (cs : List Char) (quoted : Bool)
  /-- A parameter. -/
  | parameter (name : String) (use : ParameterUse) (quoted : Bool)
  /-- A calculation. -/
  | arithmetic (source : List Piece) (quoted : Bool)
  /-- What a command prints. -/
  | output (c : Command) (quoted : Bool)

/-- Where a redirection leads. -/
inductive Redirect where
  /-- Reading a file. -/
  | input (file : List Piece)
  /-- Reading a text that stands in the script. -/
  | document (text : List Piece)
  /-- Writing a file. -/
  | output (file : List Piece) (writing : Writing)
  /-- The same as another descriptor, which a word names, or, for a dash, nowhere. -/
  | duplicate (other : List Piece)

/-- **A command.** -/
inductive Command where
  /-- No command at all. -/
  | nothing
  /-- Words to run, on a line, with assignments, and with redirections of descriptors. -/
  | simple (line : Nat) (assignments : List (String × List Piece)) (words : List (List Piece))
      (redirections : List (Nat × Redirect))
  /-- Commands, each of which reads what the one before it prints. -/
  | pipeline (commands : List Command)
  /-- A command whose success is failure. -/
  | negation (c : Command)
  /-- A command, and another if it succeeds. -/
  | both (c d : Command)
  /-- A command, and another if it fails. -/
  | either (c d : Command)
  /-- A command, and another. -/
  | sequence (c d : Command)
  /-- A command with redirections, on a line. -/
  | redirected (line : Nat) (c : Command) (redirections : List (Nat × Redirect))
  /-- A command in a shell of its own. -/
  | subshell (c : Command)
  /-- A command beside those that follow it. -/
  | background (c : Command)
  /-- Giving a name to a command. -/
  | define (name : String) (body : Command)
  /-- A choice by the success of a command. -/
  | conditional (test yes no : Command)
  /-- Repetition as long as, or until, a command succeeds. -/
  | loop (untilSuccess : Bool) (test body : Command)
  /-- Repetition for each of some words, on a line, or for each argument. -/
  | each (line : Nat) (name : String) (words : Option (List (List Piece))) (body : Command)
  /-- A choice by patterns, on a line. -/
  | choice (line : Nat) (word : List Piece) (arms : List (List (List Piece) × Command))

end

/-- A word. -/
abbrev Word := List Piece

/-- A redirection of a descriptor. -/
abbrev Redirection := Nat × Redirect

namespace Word

/-- The text of a word without quotes and expansions. -/
def plain? : Word → Option String
  | [.text cs false] => some (String.ofList cs)
  | _ => none

/-- A word with one more piece behind it.  Text outside of quotes is kept together. -/
def snoc (reversed : Word) (piece : Piece) : Word :=
  match piece, reversed with
  | .text cs false, .text before false :: rest => .text (before ++ cs) false :: rest
  | _, _ => piece :: reversed

end Word

end LintSuite.Shell
