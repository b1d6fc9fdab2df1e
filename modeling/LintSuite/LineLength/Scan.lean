import LintSuite.Diagnostic
import LintSuite.FileSet
import LintSuite.Host.FileSystem
import LintSuite.LineLength.Exempt
import LintSuite.LineLength.Marker
import LintSuite.Text.Lines
import LintSuite.Text.Utf8

/-!
# The line scan

The scan reports every line of a file that is longer than the limit, by its number and its length.
A line is cut from the bytes of the file, decoded with a replacement for what is no text, and its
tabs count as four columns each.  The mark of generated code ends the scan; exempt lines are counted
but never reported.

Lines are counted in a signed word of 32 bits, which wraps around: behind line 2147483647 the numbers
go on from -2147483648.  Lengths are counted without a bound.

`scanBytes` is the scan of a file's content.  `scanFile` adds the reading, whose failure is itself a
finding, and `scanSets` puts the files of several sets after one another.
-/

namespace LintSuite.LineLength

open Text Host

/-- A line with its tabs spelled out. -/
def expandTabs (line : List Char) : List Char :=
  line.flatMap fun c => if c == '\t' then [' ', ' ', ' ', ' '] else [c]

/-- A line as it is measured and shown. -/
def shown (piece : List UInt8) : List Char :=
  expandTabs (Utf8.decodeLossy (Lines.bare piece))

/-- The finding of a line that is too long. -/
def tooLong (p : Path) (number : Int32) (line : List Char) : Diagnostic :=
  .warn (p.text ++ ":" ++ toString number ++ " (" ++ toString line.length ++ ") " ++
    String.ofList line)

/-- The findings among lines, the first of which has the given number. -/
def scanLines (threshold : Nat) (p : Path) (number : Int32) : List (List Char) → List Diagnostic
  | [] => []
  | line :: rest =>
    if isMarker line then []
    else if isExempt line then scanLines threshold p (number + 1) rest
    else if threshold < line.length then
      tooLong p number line :: scanLines threshold p (number + 1) rest
    else scanLines threshold p (number + 1) rest

/-- **The scan of a file's content.** -/
def scanBytes (threshold : Nat) (p : Path) (content : List UInt8) : List Diagnostic :=
  scanLines threshold p 1 ((Lines.cut 0x0A content).map shown)

/-- The finding of a file that cannot be read. -/
def unreadable (p : Path) (e : IoError) : Diagnostic :=
  .warn ("failed to read " ++ p.text ++ ": " ++ e.message)

/-- **The scan of a file**, whose content is there or refused. -/
def scanRead (threshold : Nat) (p : Path) : Except IoError (List UInt8) → List Diagnostic
  | .ok content => scanBytes threshold p content
  | .error e => [unreadable p e]

/-- The scan of a file of a file system. -/
def scanFile (threshold : Nat) (fs : FileSystem) (p : Path) : List Diagnostic :=
  scanRead threshold p (fs.read p)

/-- The scan of all files of some sets, in the order of their paths. -/
def scanSets (threshold : Nat) (fs : FileSystem) (sets : List FileSet) : List Diagnostic :=
  (sets.flatMap FileSet.paths).flatMap (scanFile threshold fs)

end LintSuite.LineLength
