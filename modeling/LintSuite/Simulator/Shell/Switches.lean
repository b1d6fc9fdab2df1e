/-!
# Switches of the shell

A shell has switches that change how it runs scripts.  Each has a name, and all but two a letter; a
shell knows those that are on by their letters.  They are set by the arguments of a shell as it
starts, or of its command `set`: letters behind a dash turn them on, behind a plus sign off, and an
`o` among them takes a name from the next argument.  `Switches.read` reads them up to the first
argument that is no such group.
-/

namespace LintSuite.Shell

/-- What arguments do to the switches of a shell. -/
structure Switches where
  /-- The letters of the switches that are on. -/
  on : List Char
  /-- Whether the text of a script is to follow. -/
  script : Bool := false
  /-- The way in which all switches are to be listed, if they are: for a reader, or as commands. -/
  listing : Option Bool := none
  /-- Whether the arguments were told apart from switches by two dashes. -/
  divided : Bool := false
  /-- The arguments that follow. -/
  rest : List String
  deriving DecidableEq, Repr

namespace Switches

/-- The switches by their names, with their letters. -/
def names : List (String × Option Char) :=
  [("errexit", some 'e'), ("noglob", some 'f'), ("ignoreeof", some 'I'), ("interactive", some 'i'),
    ("monitor", some 'm'), ("noexec", some 'n'), ("stdin", some 's'), ("xtrace", some 'x'),
    ("verbose", some 'v'), ("vi", some 'V'), ("emacs", some 'E'), ("noclobber", some 'C'),
    ("allexport", some 'a'), ("notify", some 'b'), ("nounset", some 'u'), ("privileged", some 'p'),
    ("nolog", none), ("debug", none)]

/-- The letters of all switches. -/
def letters : List Char := names.filterMap (·.2)

/-- The letters of the switches that are on, the last ones first. -/
def shown (on : List Char) : String :=
  String.ofList (letters.reverse.filter on.contains)

/-- Turning one switch on or off. -/
def turn (value : Bool) (letter : Option Char) (on : List Char) : List Char :=
  let others := on.filter fun c => some c != letter
  if value then others ++ letter.toList else others

/-- The list of all switches: for a reader, or as the commands that set them. -/
def listed (reader : Bool) (on : List Char) : String :=
  let line := fun (name : String) (value : Bool) =>
    if reader then
      let gap := String.ofList (List.replicate (16 - name.length) ' ')
      name ++ gap ++ (if value then "on" else "off")
    else "set " ++ (if value then "-o " else "+o ") ++ name
  (if reader then "Current option settings\n" else "") ++
    String.join (names.map fun (name, letter) => line name (letter.any on.contains) ++ "\n")

/-- One letter of a group.  Only a shell that starts takes a script. -/
def readLetter (starting value : Bool) (s : Switches) (c : Char) : Except String Switches :=
  if c = 'o' then
    match s.rest with
    | [] => .ok { s with listing := some value }
    | name :: rest =>
      match names.find? (·.1 == name) with
      | some (_, letter) => .ok { s with on := turn value letter s.on, rest }
      | none => .error ("Illegal option -o " ++ name)
  else if starting && c = 'c' then .ok { s with script := true }
  else if starting && c = 'l' then .ok s
  else if letters.contains c then .ok { s with on := turn value (some c) s.on }
  else .error ("Illegal option -" ++ String.ofList [c])

/-- Reading group after group on a number of steps. -/
def readFrom (starting : Bool) : Nat → Switches → Except String Switches
  | 0, s => .ok s
  | steps + 1, s =>
    match s.rest with
    | [] => .ok s
    | "--" :: rest => .ok { s with rest, divided := true }
    | "-" :: rest =>
      let untraced := s.on.filter fun c => c != 'x' && c != 'v'
      .ok { s with rest, on := if starting then s.on else untraced }
    | a :: rest =>
      match a.toList with
      | '-' :: group => do
        readFrom starting steps (← group.foldlM (readLetter starting true) { s with rest })
      | '+' :: group => do
        readFrom starting steps (← group.foldlM (readLetter starting false) { s with rest })
      | _ => .ok s

/-- **Reading switches** from the arguments of a shell that starts, or of its command `set`. -/
def read (starting : Bool) (on : List Char) (arguments : List String) : Except String Switches :=
  readFrom starting (arguments.length + 1) { on, rest := arguments }

end Switches

end LintSuite.Shell
