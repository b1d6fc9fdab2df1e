import LintSuite.Proofs.Decoding
import LintSuite.Proofs.LineEnds
import Mathlib

/-!
# A file as a text

The scan cuts the bytes of a file into lines and decodes them one by one.  It might as well decode
the file first and cut the text (`scanText`), since an ill-formed piece never reaches past a line
feed, and no line feed or carriage return is lost in one: cutting and decoding commute
(`map_decodeLossy_cut`), and so do taking a line end off and decoding (`decodeLossy_bare`).  The scan
sees of a file no more than its text (`scanFile_eq_scanText`).

Nor does it see how the lines of a file end (`scanFile_lineEnds`): what is left of a line is the same
with a carriage return before its line feed, and a line feed at the end of a file ends the last line
or adds an empty one, which is never reported.

### Main statements

* `map_decodeLossy_cut`: cutting and decoding commute.
* `scanFile_eq_scanText`: the scan of a file is the scan of the one text that its bytes are read as.
* `scanFile_lineEnds`: returns before line feeds and a line feed at the end make no difference.

### Design decisions

**The text is given by a grammar.**  `scanFile_eq_scanText` does not say which decoder is meant but
which text the bytes are read as, and that there is one (`ReadsAs`).  So it is a statement about
files, and would survive a change of the decoder.

### What is load-bearing

A byte below `0x80` divides what is read: it ends whatever is under way and is read by itself.  Line
feeds and carriage returns are such bytes, and for no other kind of mark would cutting and decoding
commute.
-/

namespace LintSuite

open Host Text

/-! ### Line ends -/

namespace Text.Lines

variable {α : Type} [DecidableEq α] {ret mark : α}

/-- **A line without its end**: one mark, and then one return. -/
def unended (ret mark : α) (piece : List α) : List α :=
  chop ret (chop mark piece)

theorem bare_eq_unended (piece : List UInt8) : bare piece = unended 0x0D 0x0A piece := rfl

theorem chop_concat (mark : α) (body : List α) : chop mark (body ++ [mark]) = body :=
  (isChopped_iff.mp (.off body)).symm

theorem chop_of_notMem {body : List α} (h : mark ∉ body) : chop mark body = body :=
  (isChopped_iff.mp (.none fun hlast => h (List.mem_of_getLast? hlast))).symm

theorem unended_concat (body : List α) : unended ret mark (body ++ [mark]) = chop ret body := by
  rw [unended, chop_concat]

theorem unended_of_notMem {body : List α} (h : mark ∉ body) :
    unended ret mark body = chop ret body := by
  rw [unended, chop_of_notMem h]

/-- **Returns before the marks are no part of the lines.** -/
theorem map_unended_cut_withReturns (hne : ret ≠ mark) {text : List α} (h : ret ∉ text) :
    (cut mark (withReturns ret mark text)).map (unended ret mark) =
      (cut mark text).map (unended ret mark) := by
  have hcut := isCut_cut mark text
  generalize cut mark text = pieces at hcut ⊢
  induction hcut with
  | nil => rfl
  | @rest text ne_nil unmarked =>
      rw [withReturns_of_notMem unmarked, cut_of_notMem ne_nil unmarked]
  | @line body text pieces unmarked hcut ih =>
      have hbody : ret ∉ body := fun hmem => h (List.mem_append_left _ hmem)
      have htext : ret ∉ text := fun hmem =>
        h (List.mem_append_right _ (List.mem_cons_of_mem _ hmem))
      have hmarked : mark ∉ body ++ [ret] := by simpa using ⟨unmarked, hne.symm⟩
      have hline : withReturns ret mark (body ++ mark :: text) =
          (body ++ [ret]) ++ mark :: withReturns ret mark text := by
        rw [withReturns_append, withReturns_of_notMem unmarked, withReturns_mark,
          List.append_assoc]
        rfl
      rw [hline, cut_append_mark hmarked, List.map_cons, List.map_cons, ih htext, unended_concat,
        unended_concat, chop_concat, chop_of_notMem hbody]

/-- **A mark at the end of a text** ends its last line, or is an empty line of its own. -/
theorem map_unended_cut_concat (ret mark : α) (text : List α) :
    (cut mark (text ++ [mark])).map (unended ret mark) = (cut mark text).map (unended ret mark) ∨
      (cut mark (text ++ [mark])).map (unended ret mark) =
        (cut mark text).map (unended ret mark) ++ [[]] := by
  have hcut := isCut_cut mark text
  generalize cut mark text = pieces at hcut ⊢
  induction hcut with
  | nil =>
      right
      rw [List.nil_append, cut_mark, List.map_cons, ← List.nil_append [mark], unended_concat]
      rfl
  | @rest text ne_nil unmarked =>
      left
      rw [cut_append_mark unmarked, List.map_cons, List.map_cons, unended_concat,
        unended_of_notMem unmarked]
      rfl
  | @line body text pieces unmarked hcut ih =>
      rw [List.append_assoc, List.cons_append, cut_append_mark unmarked, List.map_cons,
        List.map_cons, List.cons_append, List.cons.injEq, List.cons.injEq]
      simpa using ih

end Text.Lines

/-! ### Cutting and decoding -/

namespace Text.Utf8

variable {b : UInt8} {bytes : List UInt8}

theorem decodeLossy_ne_nil (h : bytes ≠ []) : decodeLossy bytes ≠ [] := by
  intro hnil
  have hread := readsAs_decodeLossy bytes
  rw [hnil] at hread
  cases hread
  exact h rfl

/-- **A line of bytes is a line of text**: a byte below `0x80` marks the same lines before decoding
as its character does behind it. -/
theorem isCut_decodeLossy (hb : b.toNat < 0x80) (hne : b.toNat ≠ 0) {pieces : List (List UInt8)}
    (h : Lines.IsCut b bytes pieces) :
    Lines.IsCut (Char.ofNat b.toNat) (decodeLossy bytes) (pieces.map decodeLossy) := by
  have hunmarked {body : List UInt8} (h : b ∉ body) : Char.ofNat b.toNat ∉ decodeLossy body :=
    mt (mem_of_mem_decodeLossy hb hne) h
  induction h with
  | nil => exact .nil
  | rest ne_nil unmarked => exact .rest (decodeLossy_ne_nil ne_nil) (hunmarked unmarked)
  | line unmarked _ ih =>
      rw [decodeLossy_append_cons _ hb, List.map_cons, decodeLossy_append_ascii _ hb]
      exact .line (hunmarked unmarked) ih

/-- Cutting and decoding commute. -/
theorem map_decodeLossy_cut (hb : b.toNat < 0x80) (hne : b.toNat ≠ 0) (bytes : List UInt8) :
    (Lines.cut b bytes).map decodeLossy = Lines.cut (Char.ofNat b.toNat) (decodeLossy bytes) :=
  Lines.isCut_iff.mp (isCut_decodeLossy hb hne (Lines.isCut_cut b bytes))

/-- Taking a byte off the end and decoding commute. -/
theorem decodeLossy_chop (hb : b.toNat < 0x80) (hne : b.toNat ≠ 0) (bytes : List UInt8) :
    decodeLossy (Lines.chop b bytes) = Lines.chop (Char.ofNat b.toNat) (decodeLossy bytes) := by
  refine Lines.isChopped_iff.mp ?_
  have hchopped : Lines.IsChopped b bytes (Lines.chop b bytes) := Lines.isChopped_iff.mpr rfl
  generalize Lines.chop b bytes = kept at hchopped ⊢
  cases hchopped with
  | off =>
      rw [decodeLossy_append_ascii _ hb]
      exact .off _
  | none h => exact .none (mt (getLast?_decodeLossy_eq_ascii_iff hb hne).mp h)

theorem decodeLossy_bare (piece : List UInt8) :
    decodeLossy (Lines.bare piece) = Lines.unended '\r' '\n' (decodeLossy piece) := by
  have hfeed : decodeLossy (Lines.chop 0x0A piece) = Lines.chop '\n' (decodeLossy piece) :=
    decodeLossy_chop (by decide) (by decide) piece
  rw [Lines.bare_eq_unended, Lines.unended, decodeLossy_chop (by decide) (by decide), hfeed]
  rfl

end Text.Utf8

/-! ### The scan of a text -/

namespace LineLength

/-- **The scan of a text**: it is cut as it stands, and its tabs are spelled out. -/
def scanText (threshold : Nat) (p : Path) (text : List Char) : List Diagnostic :=
  scanLines threshold p 1
    ((Lines.cut '\n' text).map fun piece => expandTabs (Lines.unended '\r' '\n' piece))

/-- **The scan of a file is the scan of its text.** -/
theorem scanBytes_eq_scanText (threshold : Nat) (p : Path) (content : List UInt8) :
    scanBytes threshold p content = scanText threshold p (Utf8.decodeLossy content) := by
  have hshown : shown = (fun piece => expandTabs (Lines.unended '\r' '\n' piece)) ∘
      Utf8.decodeLossy := by
    funext piece
    rw [shown, Utf8.decodeLossy_bare]
    rfl
  have hcut : (Lines.cut 0x0A content).map Utf8.decodeLossy =
      Lines.cut '\n' (Utf8.decodeLossy content) :=
    Utf8.map_decodeLossy_cut (by decide) (by decide) content
  rw [scanBytes, scanText, hshown, ← List.map_map, hcut]

/-- **The scan sees of a file no more than its text.**  Its bytes are read as a text in one way, and
to scan the file is to scan that text, so a file that holds the text encoded is scanned alike. -/
theorem scanFile_eq_scanText (threshold : Nat) {fs : FileSystem} {p : Path} {content : List UInt8}
    (h : fs.read p = .ok content) :
    ∃ text, (∀ other, Utf8.ReadsAs content other ↔ other = text) ∧
      scanFile threshold fs p = scanText threshold p text ∧
      ∀ encoded : FileSystem, encoded.read p = .ok (Utf8.encode text) →
        scanFile threshold encoded p = scanFile threshold fs p := by
  have hscan : scanFile threshold fs p = scanText threshold p (Utf8.decodeLossy content) := by
    rw [scanFile_of_read h, scanBytes_eq_scanText]
  refine ⟨Utf8.decodeLossy content, fun other => Utf8.readsAs_iff, hscan, ?_⟩
  intro encoded hencoded
  rw [scanFile_of_read hencoded, scanBytes_eq_scanText, Utf8.decodeLossy_encode, hscan]

/-- Characters that are broken off by a return, by a line feed, by a tab and by another byte, and
one whose second byte is out of range. -/
def brokenContent : List UInt8 :=
  [0x61, 0xE2, 0x82, 0x0D, 0x0A, 0x62, 0xF0, 0x9F, 0x0A, 0xC3, 0x09, 0xFF, 0xE0, 0x80]

/-- What is read of them. -/
def brokenText : List Char :=
  "a\uFFFD\r\nb\uFFFD\n\uFFFD\t\uFFFD\uFFFD\uFFFD".toList

theorem scanFile_eq_scanText_broken :
    (holding brokenContent).read (.ofText "a.go") = .ok brokenContent ∧
      scanFile 2 (holding brokenContent) (.ofText "a.go") = scanText 2 (.ofText "a.go") brokenText ∧
      (holding (Utf8.encode brokenText)).read (.ofText "a.go") = .ok (Utf8.encode brokenText) ∧
      scanFile 2 (holding (Utf8.encode brokenText)) (.ofText "a.go") =
        [.warn "a.go:3 (8) \uFFFD    \uFFFD\uFFFD\uFFFD"] := by
  have hread := read_holding brokenContent
  have hencoded := read_holding (Utf8.encode brokenText)
  have hdecoded : brokenText = Utf8.decodeLossy brokenContent := by decide
  obtain ⟨text, htext, hscan, hsame⟩ := scanFile_eq_scanText 2 hread
  obtain rfl : brokenText = text := (htext brokenText).mp (Utf8.readsAs_iff.mpr hdecoded)
  refine ⟨hread, hscan, hencoded, ?_⟩
  rw [hsame _ hencoded, hscan]
  decide +kernel

/-! ### Line ends -/

/-- **An empty line at the end of a file is never reported.** -/
theorem scanLines_concat_nil (threshold : Nat) (p : Path) (number : Int32)
    (lines : List (List Char)) :
    scanLines threshold p number (lines ++ [[]]) = scanLines threshold p number lines := by
  induction lines generalizing number with
  | nil =>
      have hmarker : isMarker [] = false := by decide
      have hexempt : isExempt [] = false := by decide
      simp [scanLines, hmarker, hexempt]
  | cons line lines ih => simp only [List.cons_append, scanLines, ih]

/-- The scan takes the line ends off first. -/
theorem scanBytes_eq_unended (threshold : Nat) (p : Path) (content : List UInt8) :
    scanBytes threshold p content =
      scanLines threshold p 1 (((Lines.cut 0x0A content).map (Lines.unended 0x0D 0x0A)).map
        fun body => expandTabs (Utf8.decodeLossy body)) := by
  rw [List.map_map]
  rfl

theorem scanBytes_withReturns (threshold : Nat) (p : Path) {content : List UInt8}
    (h : 0x0D ∉ content) :
    scanBytes threshold p (withReturns 0x0D 0x0A content) = scanBytes threshold p content := by
  rw [scanBytes_eq_unended, scanBytes_eq_unended,
    Lines.map_unended_cut_withReturns (by decide) h]

theorem scanBytes_concat_feed (threshold : Nat) (p : Path) (content : List UInt8) :
    scanBytes threshold p (content ++ [0x0A]) = scanBytes threshold p content := by
  rw [scanBytes_eq_unended, scanBytes_eq_unended]
  rcases Lines.map_unended_cut_concat 0x0D 0x0A content with hlines | hlines
  · rw [hlines]
  · rw [hlines, List.map_append]
    exact scanLines_concat_nil threshold p 1 _

/-- **The scan does not depend on how lines end**: neither on returns before the line feeds of a file
that has no returns, nor on a line feed at the end of any file. -/
theorem scanFile_lineEnds (threshold : Nat) {fs : FileSystem} {p : Path} {content : List UInt8}
    (h : fs.read p = .ok content) :
    (0x0D ∉ content → ∀ returning : FileSystem,
        returning.read p = .ok (withReturns 0x0D 0x0A content) →
          scanFile threshold returning p = scanFile threshold fs p) ∧
      ∀ ended : FileSystem, ended.read p = .ok (content ++ [0x0A]) →
        scanFile threshold ended p = scanFile threshold fs p := by
  constructor
  · intro hreturn returning hreturning
    rw [scanFile_of_read hreturning, scanFile_of_read h, scanBytes_withReturns threshold p hreturn]
  · intro ended hended
    rw [scanFile_of_read hended, scanFile_of_read h, scanBytes_concat_feed]

/-- Two lines, the last of which breaks off within a character. -/
def brokenOff : List UInt8 := [0x61, 0x62, 0x63, 0x0A, 0x64, 0x65, 0xE2, 0x82]

theorem scanFile_lineEnds_brokenOff :
    (holding brokenOff).read (.ofText "a.go") = .ok brokenOff ∧ 0x0D ∉ brokenOff ∧
      scanFile 2 (holding (withReturns 0x0D 0x0A brokenOff)) (.ofText "a.go") =
        [.warn "a.go:1 (3) abc", .warn "a.go:2 (3) de\uFFFD"] ∧
      scanFile 2 (holding (brokenOff ++ [0x0A])) (.ofText "a.go") =
        [.warn "a.go:1 (3) abc", .warn "a.go:2 (3) de\uFFFD"] := by
  have hread := read_holding brokenOff
  have hreturn : 0x0D ∉ brokenOff := by decide
  have hscan : scanFile 2 (holding brokenOff) (.ofText "a.go") =
      [.warn "a.go:1 (3) abc", .warn "a.go:2 (3) de\uFFFD"] := by
    rw [scanFile_of_read hread]
    decide +kernel
  obtain ⟨hreturning, hended⟩ := scanFile_lineEnds 2 hread
  refine ⟨hread, hreturn, ?_, ?_⟩
  · rw [hreturning hreturn _ (read_holding _), hscan]
  · rw [hended _ (read_holding _), hscan]

end LineLength

end LintSuite
