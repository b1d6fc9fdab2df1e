import LintSuite.Text.Utf8

/-!
# Texts as the system keeps them

The system knows names, paths and the targets of links as bytes.  Most of them are text, but nothing
makes them so, and whoever wants to show one, or to compare it with a text, has to decode it first.
That is done forgivingly (`shown`): what is no text stands as replacement characters.  Two names that
differ may therefore be shown alike, and a name that is shown and taken for bytes again may be the
name of another file, or of none.

So nothing here decodes a name on the way to a file: lookups and comparisons of paths work on bytes,
and where a name is decoded the model says so by `shown`.
-/

namespace LintSuite

/-- **A text as the system keeps it**: bytes, which need not be well-formed. -/
abbrev RawText := List UInt8

namespace RawText

/-- The byte between the names of a path. -/
abbrev slash : UInt8 := 0x2F

/-- The byte of a dot. -/
abbrev dot : UInt8 := 0x2E

/-- The bytes of a text. -/
def ofText (text : String) : RawText := Text.Utf8.encode text.toList

/-- **The text that is shown** for some bytes: each piece that is no character stands as a
replacement character. -/
def shown (bytes : RawText) : String := String.ofList (Text.Utf8.decodeLossy bytes)

end RawText

end LintSuite
