import LintSuite.Diagnostic

/-!
# Reports

Each event is one line: a tag that says what it is, and its text.  A reporter in quiet mode prints
no progress, but every diagnostic; it counts the diagnostics of each level in either mode, and its
last line sums them up.
-/

namespace LintSuite

/-- What a line says it is. -/
inductive Tag where
  /-- Progress of the run as a whole. -/
  | info
  /-- Progress within one platform. -/
  | step
  /-- A finding. -/
  | warn
  /-- A failure. -/
  | error
  /-- Success. -/
  | good
  deriving DecidableEq, Repr

namespace Tag

/-- The mark of a tag. -/
def mark : Tag → String
  | .info => "[*]"
  | .step => "[=]"
  | .warn => "[!]"
  | .error => "[-]"
  | .good => "[+]"

/-- The colors of a tag, as a terminal takes them. -/
def colors : Tag → String
  | .info => "1;36"
  | .step => "36"
  | .warn => "1;33"
  | .error => "1;31"
  | .good => "1;32"

/-- **A line** with its tag, in color or without. -/
def line (t : Tag) (color : Bool) (message : String) : String :=
  (if color then "\x1b[" ++ t.colors ++ "m" ++ t.mark ++ "\x1b[0m" else t.mark) ++ " " ++ message

end Tag

/-- The tag of a level. -/
def Level.tag : Level → Tag
  | .warn => .warn
  | .error => .error

/-- **A reporter.** -/
structure Reporter where
  /-- Whether progress is hidden. -/
  quiet : Bool
  /-- Whether tags are colored. -/
  color : Bool
  /-- The findings so far. -/
  warnings : Nat := 0
  /-- The failures so far. -/
  errors : Nat := 0
  deriving DecidableEq, Repr

namespace Reporter

/-- The line of an event, unless it is hidden. -/
def render (r : Reporter) : Event → Option String
  | .info message => if r.quiet then none else some (Tag.info.line r.color message)
  | .step message => if r.quiet then none else some (Tag.step.line r.color message)
  | .diagnostic d => some (d.level.tag.line r.color d.message)

/-- The reporter after an event. -/
def count (r : Reporter) : Event → Reporter
  | .diagnostic ⟨.warn, _⟩ => { r with warnings := r.warnings + 1 }
  | .diagnostic ⟨.error, _⟩ => { r with errors := r.errors + 1 }
  | _ => r

/-- **Handling an event**: the lines printed for it, and the reporter after it. -/
def handle (r : Reporter) (e : Event) : List String × Reporter :=
  ((r.render e).toList, r.count e)

/-- Handling several events. -/
def handleAll (r : Reporter) : List Event → List String × Reporter
  | [] => ([], r)
  | e :: rest =>
    let (lines, after) := r.handle e
    let (more, last) := after.handleAll rest
    (lines ++ more, last)

/-- A number of things, with the noun in the form the number asks for. -/
def counted (n : Nat) (noun : String) : String :=
  toString n ++ " " ++ noun ++ if n = 1 then "" else "s"

/-- **The summary** of the diagnostics so far. -/
def summary (r : Reporter) : String :=
  if r.warnings = 0 && r.errors = 0 then "Done"
  else "Done (" ++ counted r.warnings "warning" ++ ", " ++ counted r.errors "error" ++ ")"

/-- The lines printed at the end. -/
def done (r : Reporter) : List String :=
  if r.quiet then [] else [Tag.good.line r.color r.summary]

end Reporter

end LintSuite
