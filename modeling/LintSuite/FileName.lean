/-!
# File names

A name decides what becomes of a file.  Binaries, archives, certificates and checksums are ignored
(`isIgnored`); what is left is a test, a source or some other file (`FileKind.ofName`).

Extensions are compared without regard to case, and that by the folding of Unicode: besides the
capitals, the long s folds to `s` and the Kelvin sign to `k`, and no other character folds to a
letter of the extensions.
-/

namespace LintSuite

/-- A letter without its case. -/
def foldCase (c : Char) : Char :=
  if c == 'ſ' then 's' else if c == '\u212A' then 'k' else c.toLower

/-- The extensions of files that no tool should see. -/
def ignoredExtensions : List String :=
  ["db", "der", "dll", "drawio", "exe", "gif", "gz", "jar", "jpg", "jpeg", "pdf", "pem", "png",
    "so", "tar", "tgz", "xz", "zip"]

/-- The name of the file of checksums, ignored as a whole. -/
def checksumFile : String := "go.sum"

/-- **Ignored names**: the file of checksums, and every name that ends in a dot and one of the
ignored extensions. -/
def isIgnored (name : String) : Bool :=
  let folded := name.toList.map foldCase
  folded == checksumFile.toList ||
    ignoredExtensions.any fun e => ('.' :: e.toList).isSuffixOf folded

/-- What a file is to the tools. -/
inductive FileKind where
  /-- Source code. -/
  | source
  /-- Tests. -/
  | test
  /-- Anything else. -/
  | other
  deriving DecidableEq, Repr

/-- The end of the name of a test file. -/
def testEnding : String := "_test.go"

/-- The end of the name of a source file. -/
def sourceEnding : String := ".go"

/-- **The kind of a file**, by the end of its name; a test is no source. -/
def FileKind.ofName (name : String) : FileKind :=
  if testEnding.toList.isSuffixOf name.toList then .test
  else if sourceEnding.toList.isSuffixOf name.toList then .source
  else .other

end LintSuite
