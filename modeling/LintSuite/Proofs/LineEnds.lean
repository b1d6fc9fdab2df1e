import LintSuite.Proofs.Findings
import LintSuite.Proofs.Utf8
import Mathlib

/-!
# Line ends with a carriage return

A tool may end its lines with a line feed alone or with a carriage return before it
(`withReturns`).  Reading the bytes keeps the difference (`decodeLossy_withReturns`), and cutting the
text into lines takes it away, line by line (`ofText_withReturns_append`).  But the line feed at the
end of the output is taken off before the text is cut, and then the carriage return before it is no
part of a line end any more: it stays in the last line (`outputText_withReturns`).

`reportsLineEnds_runCommand` says what comes of this.  The report on a command is the same with
either kind of line ends exactly if its output does not end in a line feed or is ignored; and where
it does end in one, the report is that on the output with a carriage return in its place.

### Design decisions

**Two notions of a line end.**  The output as a whole loses one line feed before it is looked at, and a
line loses a line feed with a return before it.  They differ in the last line, and that is the finding
of this module: it is stated as an equivalence (`ReportsLineEnds`), with the exact shape of the
report where the two kinds of line ends differ.

**Labels and patterns are looked through.**  That a return changes nothing but the last line has to
hold behind the normalizer: a label never ends in a return (`getLast?_strip`), and the patterns of
output to ignore hold neither returns nor line feeds (`isPlain_of_mem_ofDir`).

### What is load-bearing

`ofText_withReturns_append`: what stands behind a text with line ends is cut the same whichever line
ends it has.  It is stated with something behind, since the text that is cut is not the text that was
printed but lacks its last line feed.
-/

namespace LintSuite

open Host Text

/-! ### Texts -/

/-- **Line ends of two signs**: a text with a return before each mark. -/
def withReturns {α : Type} [DecidableEq α] (ret mark : α) (text : List α) : List α :=
  text.flatMap fun a => if a = mark then [ret, mark] else [a]

section

variable {α : Type} [DecidableEq α] {ret mark a : α} {text : List α}

@[simp] theorem withReturns_nil : withReturns ret mark ([] : List α) = [] := rfl

@[simp] theorem withReturns_mark (text : List α) :
    withReturns ret mark (mark :: text) = ret :: mark :: withReturns ret mark text := by
  simp [withReturns]

theorem withReturns_cons_of_ne (h : a ≠ mark) (text : List α) :
    withReturns ret mark (a :: text) = a :: withReturns ret mark text := by
  simp [withReturns, h]

@[simp] theorem withReturns_append (text more : List α) :
    withReturns ret mark (text ++ more) = withReturns ret mark text ++ withReturns ret mark more :=
  List.flatMap_append

/-- A text without marks has no line ends. -/
theorem withReturns_of_notMem (h : mark ∉ text) : withReturns ret mark text = text := by
  induction text with
  | nil => rfl
  | cons a text ih =>
      rw [List.mem_cons, not_or] at h
      rw [withReturns_cons_of_ne (Ne.symm h.1), ih h.2]

@[simp] theorem withReturns_eq_nil_iff : withReturns ret mark text = [] ↔ text = [] := by
  cases text with
  | nil => simp
  | cons a text =>
      by_cases h : a = mark
      · subst h
        simp
      · simp [withReturns_cons_of_ne h]

/-- A text ends with a mark if it does so with returns. -/
theorem getLast?_withReturns : (withReturns ret mark text).getLast? = text.getLast? := by
  rcases text.eq_nil_or_concat with rfl | ⟨body, a, rfl⟩
  · rfl
  · by_cases ha : a = mark
    · subst ha
      simp
    · simp [withReturns_cons_of_ne ha]

/-- Nothing but returns is put into a text. -/
theorem filter_withReturns (h : ret ∉ text) (hne : ret ≠ mark) :
    (withReturns ret mark text).filter (· ≠ ret) = text := by
  induction text with
  | nil => rfl
  | cons a text ih =>
      rw [List.mem_cons, not_or] at h
      by_cases ha : a = mark
      · subst ha
        simpa [Ne.symm hne] using ih h.2
      · rw [withReturns_cons_of_ne ha, List.filter_cons_of_pos (by simpa using Ne.symm h.1), ih h.2]

end

/-! ### Bytes -/

namespace Text.Utf8

/-- **Returns before line feeds are read as such**, wherever reading starts. -/
theorem map_piecesFrom_withReturns (bytes : List UInt8) :
    ∀ state : Option Pending, (∀ p ∈ state, p.IsLong) →
      (piecesFrom state (withReturns 0x0D 0x0A bytes)).map shownPiece =
        withReturns '\r' '\n' ((piecesFrom state bytes).map shownPiece) := by
  have hkept {chars : List Char} (h : ∀ c ∈ chars, c ≠ '\n') :
      withReturns '\r' '\n' chars = chars :=
    withReturns_of_notMem fun hmem => h _ hmem rfl
  have hfinish (state : Option Pending) : ∀ c ∈ (finish state).map shownPiece, c ≠ '\n' := by
    cases state <;> simp [finish, shownPiece, replacement]
  induction bytes with
  | nil => exact fun state _ => (hkept (hfinish state)).symm
  | cons b bytes ih =>
      intro state hstate
      by_cases hb : b = 0x0A
      -- A line feed ends what is under way and is read afresh, and so is a return before it.
      · subst hb
        have hreturn : step state 0x0D = (finish state ++ [some '\r'], none) :=
          step_ascii hstate (by decide)
        have hafter : step none 0x0A = ([some '\n'], none) := step_ascii (by simp) (by decide)
        have hfeed : step state 0x0A = (finish state ++ [some '\n'], none) :=
          step_ascii hstate (by decide)
        rw [withReturns_mark, piecesFrom_cons, piecesFrom_cons, piecesFrom_cons, hreturn, hfeed]
        dsimp only
        rw [hafter]
        simp only [List.map_append, List.append_assoc, List.map_cons,
          List.cons_append, List.nil_append, withReturns_append, hkept (hfinish state),
          ih none (by simp), shownPiece, Option.getD_some, withReturns_mark]
      -- No other byte completes a line feed, whatever it continues.
      · have hchars : ∀ c ∈ (step state b).1.map shownPiece, c ≠ '\n' := by
          rintro c hc rfl
          have hbyte := toNat_eq_of_mem_step hstate hc (by decide) (by decide)
          exact hb (UInt8.toNat_inj.mp hbyte.symm)
        rw [withReturns_cons_of_ne hb, piecesFrom_cons, piecesFrom_cons, List.map_append,
          List.map_append, withReturns_append, hkept hchars,
          ih _ fun p hp => isLong_step hstate hp]

theorem decodeLossy_withReturns (bytes : List UInt8) :
    decodeLossy (withReturns 0x0D 0x0A bytes) = withReturns '\r' '\n' (decodeLossy bytes) :=
  map_piecesFrom_withReturns bytes none (by simp)

/-- A text has no return if its bytes have none. -/
theorem return_notMem_decodeLossy {bytes : List UInt8} (h : 0x0D ∉ bytes) :
    '\r' ∉ decodeLossy bytes :=
  mt (mem_of_mem_decodeLossy (b := 0x0D) (by decide) (by decide)) h

end Text.Utf8

/-! ### Lines -/

namespace Text.Lines

/-- The first line of a text that has a line feed. -/
theorem ofText_append_feed {line : List Char} (h : '\n' ∉ line) (rest : List Char) :
    ofText (line ++ '\n' :: rest) = chop '\r' line :: ofText rest := by
  have hline : lineOf (line ++ ['\n']) = chop '\r' line := by simp [lineOf, dropLast?]
  rw [ofText, cut_append_mark h, List.map_cons, hline]
  rfl

/-- **Returns before line feeds are no part of the lines**, whatever follows them. -/
theorem ofText_withReturns_append {text : List Char} (h : '\r' ∉ text) (tail : List Char) :
    ofText (withReturns '\r' '\n' text ++ tail) = ofText (text ++ tail) := by
  -- The line under way is carried along, since it is cut only when it ends.
  have hunder : ∀ line : List Char, '\n' ∉ line → '\r' ∉ line →
      ofText (line ++ (withReturns '\r' '\n' text ++ tail)) = ofText (line ++ (text ++ tail)) := by
    induction text with
    | nil => exact fun _ _ _ => rfl
    | cons c text ih =>
        rw [List.mem_cons, not_or] at h
        intro line hfeed hreturn
        by_cases hc : c = '\n'
        · subst hc
          have hkept : chop '\r' (line ++ ['\r']) = chop '\r' line := by
            rw [← isChopped_iff.mp (.off line),
              ← isChopped_iff.mp (.none fun hlast => hreturn (List.mem_of_getLast? hlast))]
          have hcut : line ++ (withReturns '\r' '\n' ('\n' :: text) ++ tail) =
              (line ++ ['\r']) ++ '\n' :: (withReturns '\r' '\n' text ++ tail) := by
            simp
          rw [hcut, ofText_append_feed (by simpa using hfeed), hkept, List.cons_append,
            ofText_append_feed hfeed]
          exact congrArg _ (ih h.2 [] List.not_mem_nil List.not_mem_nil)
        · have hline := ih h.2 (line ++ [c]) (by simp [hfeed, Ne.symm hc]) (by simp [hreturn, h.1])
          simpa [withReturns_cons_of_ne hc] using hline
  exact hunder [] List.not_mem_nil List.not_mem_nil

/-- **The last line ends as the text does.** -/
theorem exists_getLast?_of_isCut {α : Type} [DecidableEq α] {mark : α} {text : List α}
    {pieces : List (List α)} (h : IsCut mark text pieces) (hne : text ≠ []) :
    ∃ piece, pieces.getLast? = some piece ∧ piece.getLast? = text.getLast? := by
  induction h with
  | nil => exact absurd rfl hne
  | rest ne_nil unmarked => exact ⟨_, rfl, rfl⟩
  | @line body text pieces unmarked cut ih =>
      by_cases htext : text = []
      · subst htext
        rw [isCut_iff.mp cut]
        exact ⟨_, rfl, rfl⟩
      · obtain ⟨piece, hpiece, hlast⟩ := ih htext
        refine ⟨piece, ?_, ?_⟩
        · rw [List.getLast?_cons, hpiece]
          rfl
        · obtain ⟨a, rest, rfl⟩ := List.exists_cons_of_ne_nil htext
          rw [hlast, List.getLast?_append_of_ne_nil _ (List.cons_ne_nil _ _),
            List.getLast?_cons_cons]

theorem isPrefix_chop {α : Type} [DecidableEq α] (mark : α) (text : List α) :
    chop mark text <+: text := by
  rw [chop, dropLast?]
  split_ifs
  · exact List.dropLast_prefix text
  · exact List.prefix_rfl

theorem isPrefix_lineOf (piece : List Char) : lineOf piece <+: piece := by
  rw [lineOf, dropLast?]
  by_cases h : piece.getLast? = some '\n'
  · rw [if_pos h]
    exact (isPrefix_chop '\r' piece.dropLast).trans (List.dropLast_prefix piece)
  · rw [if_neg h]

/-- A character of a line is one of the text. -/
theorem mem_of_mem_ofText {text line : List Char} (h : line ∈ ofText text) {c : Char}
    (hc : c ∈ line) : c ∈ text := by
  obtain ⟨piece, hpiece, rfl⟩ := List.mem_map.mp h
  rw [← flatten_cut '\n' text]
  exact List.mem_flatten.mpr ⟨piece, hpiece, (isPrefix_lineOf piece).subset hc⟩

end Text.Lines

/-! ### Output to ignore -/

namespace Pattern

/-- A pattern that is fixed at no end is found where its text is. -/
theorem matchesIn_iff {p : Pattern} (hstart : p.atStart = false) (hend : p.atEnd = false)
    (text : List Char) : p.matchesIn text = true ↔ p.text <:+: text := by
  have hhere (cs : List Char) : p.matchesHere cs = true ↔ p.text <+: cs := by
    simp [matchesHere, hend]
  have hfrom : p.matchesFrom text = true ↔ p.text <:+: text := by
    induction text with
    | nil => rw [matchesFrom, hhere, List.prefix_nil, List.infix_nil]
    | cons c text ih =>
        rw [matchesFrom, Bool.or_eq_true, hhere, ih, List.infix_cons_iff]
  rw [matchesIn, hstart]
  exact hfrom

/-- **A pattern that line ends do not matter to**: it is found anywhere in a line. -/
structure IsPlain (p : Pattern) : Prop where
  /-- It is not fixed at the start. -/
  atStart : p.atStart = false
  /-- Nor at the end. -/
  atEnd : p.atEnd = false
  /-- It is not empty. -/
  ne_nil : p.text ≠ []
  /-- It has no return. -/
  noReturn : '\r' ∉ p.text
  /-- And no line feed. -/
  noFeed : '\n' ∉ p.text

end Pattern

namespace Normalizer

/-- The output that is ignored is told by plain patterns. -/
theorem isPlain_of_mem_ofDir {cwd : Option Path} {p : Pattern} (h : p ∈ (ofDir cwd).ignorable) :
    p.IsPlain := by
  have hall : ∀ p ∈ idleOutput.map Pattern.ofSpelling, p.atStart = false ∧ p.atEnd = false ∧
      p.text ≠ [] ∧ '\r' ∉ p.text ∧ '\n' ∉ p.text := by decide
  obtain ⟨hstart, hend, hne, hreturn, hfeed⟩ := hall p h
  exact ⟨hstart, hend, hne, hreturn, hfeed⟩

/-- **Returns do not matter to what is ignored**: a text in which nothing but returns is put, and none
within a line, is ignored if it was before. -/
theorem ignores_eq_of_filter (cwd : Option Path) {text other : List Char}
    (hfilter : other.filter (· ≠ '\r') = text)
    (hlines : ∀ piece, '\n' ∉ piece → piece <:+: text → piece <:+: other) :
    (ofDir cwd).ignores (String.ofList other) = (ofDir cwd).ignores (String.ofList text) := by
  rw [Bool.eq_iff_iff, ignores, ignores, List.any_eq_true, List.any_eq_true]
  refine exists_congr fun p => and_congr_right fun hp => ?_
  obtain ⟨hstart, hend, -, hreturn, hfeed⟩ := isPlain_of_mem_ofDir hp
  rw [Pattern.matchesIn_iff hstart hend, Pattern.matchesIn_iff hstart hend, String.toList_ofList,
    String.toList_ofList]
  constructor
  · intro h
    have hkept : p.text.filter (· ≠ '\r') = p.text :=
      List.filter_eq_self.mpr fun c hc => by
        rw [decide_eq_true_eq]
        rintro rfl
        exact hreturn hc
    rw [← hfilter, ← hkept]
    exact h.filter _
  · exact hlines p.text hfeed

/-- **Line ends do not matter to what is ignored**, nor does a return at the end. -/
theorem ignores_withReturns_append (cwd : Option Path) {text tail : List Char} (h : '\r' ∉ text)
    (htail : ∀ c ∈ tail, c = '\r') :
    (ofDir cwd).ignores (String.ofList (withReturns '\r' '\n' text ++ tail)) =
      (ofDir cwd).ignores (String.ofList text) := by
  refine ignores_eq_of_filter cwd ?_ fun piece hfeed hpiece => ?_
  · have hnone : tail.filter (· ≠ '\r') = [] := by simpa using htail
    rw [List.filter_append, filter_withReturns h (by decide), hnone, List.append_nil]
  · obtain ⟨before, behind, rfl⟩ := hpiece
    refine ⟨withReturns '\r' '\n' before, withReturns '\r' '\n' behind ++ tail, ?_⟩
    simp [withReturns_of_notMem hfeed]

theorem ignores_append (cwd : Option Path) {text tail : List Char} (h : '\r' ∉ text)
    (htail : ∀ c ∈ tail, c = '\r') :
    (ofDir cwd).ignores (String.ofList (text ++ tail)) =
      (ofDir cwd).ignores (String.ofList text) := by
  refine ignores_eq_of_filter cwd ?_ fun piece _ hpiece => hpiece.trans List.infix_append_left
  have hnone : tail.filter (· ≠ '\r') = [] := by simpa using htail
  rw [List.filter_append, hnone, List.append_nil, List.filter_eq_self]
  rintro c hc
  rw [decide_eq_true_eq]
  rintro rfl
  exact h hc

/-- No text is ignored that is empty. -/
theorem ne_empty_of_ignores {cwd : Option Path} {text : String}
    (h : (ofDir cwd).ignores text = true) : text ≠ "" := by
  rintro rfl
  obtain ⟨p, hp, hmatches⟩ := List.any_eq_true.mp h
  obtain ⟨hstart, hend, hne, -, -⟩ := isPlain_of_mem_ofDir hp
  rw [Pattern.matchesIn_iff hstart hend] at hmatches
  exact hne (List.infix_nil.mp hmatches)

/-- **The messages of a text are those of its lines**, whichever line ends it has. -/
theorem normalize_withReturns_append (cwd : Option Path) {text tail : List Char} (h : '\r' ∉ text)
    (htail : ∀ c ∈ tail, c = '\r') :
    (ofDir cwd).normalize (String.ofList (withReturns '\r' '\n' text ++ tail)) =
      (ofDir cwd).normalize (String.ofList (text ++ tail)) := by
  rw [normalize, normalize, ignores_withReturns_append cwd h htail, ignores_append cwd h htail,
    clean, clean, String.toList_ofList, String.toList_ofList,
    Lines.ofText_withReturns_append h tail]

/-! ### Labels -/

/-- A line keeps its end if a label that does not end so is taken off. -/
theorem getLast?_takeOff {line label : List Char} {c : Char} (hline : line.getLast? = some c)
    (hlabel : label.getLast? ≠ some c) : (takeOff line label).getLast? = some c := by
  rw [takeOff]
  split_ifs with h
  · obtain ⟨rest, rfl⟩ := List.isPrefixOf_iff_prefix.mp h
    rw [List.drop_left]
    by_cases hrest : rest = []
    · rw [hrest, List.append_nil] at hline
      exact absurd hline hlabel
    · rwa [List.getLast?_append_of_ne_nil _ hrest] at hline
  · exact hline

/-- **A return at the end of a line stays there**: no label ends in one. -/
theorem getLast?_strip (cwd : Option Path) {line : List Char} (h : line.getLast? = some '\r') :
    ((ofDir cwd).strip line).getLast? = some '\r' := by
  have hlabels : ∀ label ∈ (ofDir cwd).labels, label.getLast? ≠ some '\r' := by
    intro label hlabel
    simp only [ofDir, List.cons_append, List.nil_append, List.mem_cons, Option.mem_toList,
      Option.map_eq_some_iff] at hlabel
    rcases hlabel with rfl | rfl | ⟨p, -, rfl⟩
    · decide
    · decide
    · simp
  have hfold : ∀ labels : List (List Char), (∀ label ∈ labels, label.getLast? ≠ some '\r') →
      ∀ line : List Char, line.getLast? = some '\r' →
        (labels.foldl takeOff line).getLast? = some '\r' := by
    intro labels
    induction labels with
    | nil => exact fun _ _ hline => hline
    | cons label labels ih =>
        intro hall line hline
        exact ih (fun l hl => hall l (List.mem_cons_of_mem label hl)) _
          (getLast?_takeOff hline (hall label List.mem_cons_self))
  exact hfold _ hlabels line h

/-- What is left of a line is an end of it. -/
theorem strip_suffix (n : Normalizer) (line : List Char) : n.strip line <:+ line := by
  rw [strip]
  induction n.labels generalizing line with
  | nil => exact List.suffix_rfl
  | cons label labels ih =>
      have hoff : takeOff line label <:+ line := by
        rw [takeOff]
        split_ifs
        · exact List.drop_suffix _ _
        · exact List.suffix_rfl
      exact (ih _).trans hoff

end Normalizer

/-! ### Reports -/

section

variable {exit : ExitState} {stdout other stderr : List UInt8}

/-- What is printed without a line feed at the end is told as it is. -/
theorem outputText_of_getLast?_ne (h : stdout.getLast? ≠ some 0x0A) :
    outputText stdout = String.ofList (Utf8.decodeLossy stdout) :=
  outputText_eq_of_isChopped (.none (mt Utf8.getLast?_decodeLossy_eq_iff.mp h))

/-- What is printed with a line feed at the end is told without it. -/
theorem outputText_append_feed (body : List UInt8) :
    outputText (body ++ [0x0A]) = String.ofList (Utf8.decodeLossy body) := by
  have hdecoded : Utf8.decodeLossy (body ++ [0x0A]) = Utf8.decodeLossy body ++ ['\n'] :=
    Utf8.decodeLossy_append_ascii body (by decide)
  exact outputText_eq_of_isChopped (hdecoded ▸ .off _)

theorem outputText_append_return (body : List UInt8) :
    outputText (body ++ [0x0D]) = String.ofList (Utf8.decodeLossy body ++ ['\r']) := by
  rw [outputText_of_getLast?_ne (by simp), Utf8.decodeLossy_append_ascii body (by decide)]
  rfl

/-- **The last return is kept**: the line feed behind it is taken off before the text is cut. -/
theorem outputText_withReturns_append_feed (body : List UInt8) :
    outputText (withReturns 0x0D 0x0A (body ++ [0x0A])) =
      String.ofList (withReturns '\r' '\n' (Utf8.decodeLossy body) ++ ['\r']) := by
  have hbytes : withReturns 0x0D 0x0A (body ++ [0x0A]) =
      (withReturns 0x0D 0x0A body ++ [0x0D]) ++ [0x0A] := by simp
  rw [hbytes, outputText_append_feed, Utf8.decodeLossy_append_ascii _ (by decide),
    Utf8.decodeLossy_withReturns]
  rfl

theorem outputText_withReturns_of_getLast?_ne (h : stdout.getLast? ≠ some 0x0A) :
    outputText (withReturns 0x0D 0x0A stdout) =
      String.ofList (withReturns '\r' '\n' (Utf8.decodeLossy stdout)) := by
  rw [outputText_of_getLast?_ne (by rwa [getLast?_withReturns]),
    Utf8.decodeLossy_withReturns]

/-- **A command that says nothing on standard error**, or need not, since it succeeded. -/
def IsQuiet (exit : ExitState) (stderr : List UInt8) : Prop :=
  exit = .code 0 ∨ ∀ c ∈ Utf8.decodeLossy stderr, isBlank c = true

/-- What is reported of a quiet command: what it printed, unless it failed without a word. -/
theorem reported_of_isQuiet (h : IsQuiet exit stderr) (argv : List String) (stdout : List UInt8) :
    reported (outcome argv (.ended exit stdout stderr)) =
      if exit ≠ .code 0 ∧ outputText stdout = "" then
        (commandLine argv ++ ": exit status " ++ toString exit.number, .error)
      else (outputText stdout, .warn) := by
  by_cases hexit : exit = .code 0
  · subst hexit
    rw [if_neg (by simp)]
    rfl
  · have hblank := h.resolve_left hexit
    have herror : errorText stderr = "" :=
      errorText_eq_of_isTrimmed ⟨⟨_, [], by simp, hblank, by simp⟩, by simp, by simp⟩
    rw [reported_of_failed hexit, if_pos herror]
    by_cases hout : outputText stdout = ""
    · rw [if_pos hout, if_pos ⟨hexit, hout⟩]
    · rw [if_neg hout, if_neg fun hboth => hout hboth.2]

/-- Outputs with the same messages make the same report. -/
theorem findings_congr (h : IsQuiet exit stderr) {n : Normalizer} (argv : List String)
    (hempty : outputText stdout = "" ↔ outputText other = "")
    (hmessages : n.normalize (outputText stdout) = n.normalize (outputText other)) :
    findings n (outcome argv (.ended exit stdout stderr)) =
      findings n (outcome argv (.ended exit other stderr)) := by
  rw [findings, findings, reported_of_isQuiet h, reported_of_isQuiet h]
  by_cases hsilent : exit ≠ .code 0 ∧ outputText stdout = ""
  · rw [if_pos hsilent, if_pos ⟨hsilent.1, hempty.mp hsilent.2⟩]
  · rw [if_neg hsilent, if_neg fun hother => hsilent ⟨hother.1, hempty.mpr hother.2⟩]
    dsimp only
    rw [hmessages]

/-- Without a line feed at the end, line ends make no difference. -/
theorem findings_withReturns_of_getLast?_ne (h : IsQuiet exit stderr) (cwd : Option Path)
    (argv : List String) (hreturn : 0x0D ∉ stdout) (hlast : stdout.getLast? ≠ some 0x0A) :
    findings (.ofDir cwd) (outcome argv (.ended exit (withReturns 0x0D 0x0A stdout) stderr)) =
      findings (.ofDir cwd) (outcome argv (.ended exit stdout stderr)) := by
  refine findings_congr h argv ?_ ?_
  · rw [outputText_withReturns_of_getLast?_ne hlast, outputText_of_getLast?_ne hlast,
      String.ofList_eq_empty_iff, String.ofList_eq_empty_iff, withReturns_eq_nil_iff]
  · rw [outputText_withReturns_of_getLast?_ne hlast, outputText_of_getLast?_ne hlast]
    have htext := Utf8.return_notMem_decodeLossy hreturn
    have hnone : ∀ c ∈ ([] : List Char), c = '\r' := by simp
    simpa using Normalizer.normalize_withReturns_append cwd htext hnone

/-- With a line feed at the end, a return takes its place. -/
theorem findings_withReturns_append_feed (h : IsQuiet exit stderr) (cwd : Option Path)
    (argv : List String) {body : List UInt8} (hreturn : 0x0D ∉ body) :
    findings (.ofDir cwd)
        (outcome argv (.ended exit (withReturns 0x0D 0x0A (body ++ [0x0A])) stderr)) =
      findings (.ofDir cwd) (outcome argv (.ended exit (body ++ [0x0D]) stderr)) := by
  refine findings_congr h argv ?_ ?_
  · rw [outputText_withReturns_append_feed, outputText_append_return]
    simp
  · rw [outputText_withReturns_append_feed, outputText_append_return]
    exact Normalizer.normalize_withReturns_append cwd (Utf8.return_notMem_decodeLossy hreturn)
      (by simp)

/-- **The return in the last place is reported**, unless the output is ignored. -/
theorem exists_return_of_findings (h : IsQuiet exit stderr) {cwd : Option Path}
    (argv : List String) {body : List UInt8} (hreturn : 0x0D ∉ body)
    (hkept : (Normalizer.ofDir cwd).ignores (outputText (body ++ [0x0A])) = false) :
    ∃ d, (findings (.ofDir cwd) (outcome argv (.ended exit (body ++ [0x0D]) stderr))).getLast? =
        some d ∧ d.level = .warn ∧ d.message.toList.getLast? = some '\r' := by
  have htext := Utf8.return_notMem_decodeLossy hreturn
  have hignored : (Normalizer.ofDir cwd).ignores (outputText (body ++ [0x0D])) = false := by
    rw [outputText_append_return, Normalizer.ignores_append cwd htext (by simp),
      ← outputText_append_feed, hkept]
  have hne : outputText (body ++ [0x0D]) ≠ "" := by
    rw [outputText_append_return, ne_eq, String.ofList_eq_empty_iff]
    simp
  obtain ⟨piece, hpiece, hlast⟩ := Lines.exists_getLast?_of_isCut (Lines.isCut_cut '\n' _)
    (mt String.toList_eq_nil_iff.mp hne)
  have hend : piece.getLast? = some '\r' := by
    rw [hlast, outputText_append_return, String.toList_ofList, List.getLast?_concat]
  have hline : Lines.lineOf piece = piece := by
    simp [Lines.lineOf, Lines.dropLast?, hend]
  refine ⟨⟨.warn, String.ofList ((Normalizer.ofDir cwd).strip piece)⟩, ?_, rfl, ?_⟩
  · rw [findings, reported_of_isQuiet h, if_neg fun hboth => hne hboth.2, Normalizer.normalize,
      hignored]
    simp only [Bool.false_eq_true, if_false, Normalizer.clean, Lines.ofText, List.getLast?_map,
      hpiece, Option.map_some, hline]
  · rw [String.toList_ofList]
    exact Normalizer.getLast?_strip cwd hend

/-- Output that is ignored is so with either kind of line ends. -/
theorem findings_withReturns_of_ignores (h : IsQuiet exit stderr) {cwd : Option Path}
    (argv : List String) (hreturn : 0x0D ∉ stdout)
    (hignored : (Normalizer.ofDir cwd).ignores (outputText stdout) = true) :
    findings (.ofDir cwd) (outcome argv (.ended exit (withReturns 0x0D 0x0A stdout) stderr)) =
      findings (.ofDir cwd) (outcome argv (.ended exit stdout stderr)) := by
  have hother : (Normalizer.ofDir cwd).ignores (outputText (withReturns 0x0D 0x0A stdout)) =
      true := by
    by_cases hlast : stdout.getLast? = some 0x0A
    · obtain ⟨body, rfl⟩ := List.getLast?_eq_some_iff.mp hlast
      have htext := Utf8.return_notMem_decodeLossy fun hmem =>
        hreturn (List.mem_append_left [0x0A] hmem)
      rw [outputText_withReturns_append_feed,
        Normalizer.ignores_withReturns_append cwd htext (by simp), ← outputText_append_feed,
        hignored]
    · have htext := Utf8.return_notMem_decodeLossy hreturn
      have hnone : ∀ c ∈ ([] : List Char), c = '\r' := by simp
      have hsame := Normalizer.ignores_withReturns_append cwd htext hnone
      rw [outputText_withReturns_of_getLast?_ne hlast, ← hignored, outputText_of_getLast?_ne hlast]
      simpa using hsame
  refine findings_congr h argv ?_ ?_
  · exact iff_of_false (Normalizer.ne_empty_of_ignores hother)
      (Normalizer.ne_empty_of_ignores hignored)
  · rw [Normalizer.normalize, Normalizer.normalize, hother, hignored]
    rfl

/-- **Without returns in the output there are none in its report**, as far as that is a warning. -/
theorem return_notMem_of_findings (h : IsQuiet exit stderr) {n : Normalizer} (argv : List String)
    (hreturn : 0x0D ∉ stdout) {d : Diagnostic}
    (hd : d ∈ findings n (outcome argv (.ended exit stdout stderr))) (hlevel : d.level = .warn) :
    '\r' ∉ d.message.toList := by
  rw [findings, reported_of_isQuiet h] at hd
  split_ifs at hd
  · obtain ⟨message, -, rfl⟩ := List.mem_map.mp hd
    cases hlevel
  · obtain ⟨message, hmessage, rfl⟩ := List.mem_map.mp hd
    intro hmem
    rw [Normalizer.normalize] at hmessage
    split_ifs at hmessage
    · cases hmessage
    · obtain ⟨line, hline, rfl⟩ := List.mem_map.mp hmessage
      rw [String.toList_ofList] at hmem
      have htext := Lines.mem_of_mem_ofText hline ((n.strip_suffix line).subset hmem)
      rw [outputText, String.toList_ofList] at htext
      exact Utf8.return_notMem_decodeLossy hreturn ((Lines.isPrefix_chop '\n' _).subset htext)

end

/-- **What line ends do to a report**, which depends on what is printed. -/
structure ReportsLineEnds (cwd : Option Path) (report : List UInt8 → List Diagnostic)
    (stdout : List UInt8) : Prop where
  /-- The report is the same with either kind of line ends exactly if the output does not end in a
  line feed, or is ignored. -/
  same_iff : report (withReturns 0x0D 0x0A stdout) = report stdout ↔
    stdout.getLast? ≠ some 0x0A ∨ (Normalizer.ofDir cwd).ignores (outputText stdout) = true
  /-- If it ends in a line feed, a return takes its place. -/
  replaced : ∀ body, stdout = body ++ [0x0A] →
    report (withReturns 0x0D 0x0A stdout) = report (body ++ [0x0D])
  /-- Then the last message ends in that return, unless the output is ignored. -/
  kept : stdout.getLast? = some 0x0A →
    (Normalizer.ofDir cwd).ignores (outputText stdout) = false →
      ∃ d, (report (withReturns 0x0D 0x0A stdout)).getLast? = some d ∧
        d.message.toList.getLast? = some '\r'

/-- **The report on a command that ends in some way, for each kind of line ends.** -/
theorem reportsLineEnds_runCommand {σ : Type}
    (launch : List UInt8 → List String → RunContext → σ → ProcessEnd × σ)
    (isAvailable : String → σ → Bool) (read : Path → σ → Except IoError (List UInt8))
    (cwd : Option Path) {argv : List String} (hargv : argv ≠ []) (ctx : RunContext) (s : σ)
    {exit : ExitState} {stderr : List UInt8}
    (hlaunch : ∀ stdout, (launch stdout argv ctx s).1 = .ended exit stdout stderr)
    (hquiet : IsQuiet exit stderr) {stdout : List UInt8} (hreturn : 0x0D ∉ stdout) :
    ReportsLineEnds cwd
      (fun stdout =>
        (runCommand (.launching (launch stdout) isAvailable read) (.ofDir cwd) argv ctx s).1)
      stdout := by
  have hreport (stdout : List UInt8) :
      (runCommand (.launching (launch stdout) isAvailable read) (.ofDir cwd) argv ctx s).1 =
        findings (.ofDir cwd) (outcome argv (.ended exit stdout stderr)) := by
    rw [runCommand, Executor.execute_launching _ isAvailable read hargv, hlaunch]
  have hbody {body : List UInt8} (h : stdout = body ++ [0x0A]) : 0x0D ∉ body := fun hmem =>
    hreturn (h ▸ List.mem_append_left [0x0A] hmem)
  have hreplaced {body : List UInt8} (h : stdout = body ++ [0x0A]) :
      findings (.ofDir cwd) (outcome argv (.ended exit (withReturns 0x0D 0x0A stdout) stderr)) =
        findings (.ofDir cwd) (outcome argv (.ended exit (body ++ [0x0D]) stderr)) := by
    rw [h]
    exact findings_withReturns_append_feed hquiet cwd argv (hbody h)
  have hkept (hlast : stdout.getLast? = some 0x0A)
      (hignored : (Normalizer.ofDir cwd).ignores (outputText stdout) = false) :
      ∃ d, (findings (.ofDir cwd)
          (outcome argv (.ended exit (withReturns 0x0D 0x0A stdout) stderr))).getLast? = some d ∧
        d.level = .warn ∧ d.message.toList.getLast? = some '\r' := by
    obtain ⟨body, h⟩ := List.getLast?_eq_some_iff.mp hlast
    rw [hreplaced h]
    exact exists_return_of_findings hquiet argv (hbody h) (h ▸ hignored)
  simp only [hreport]
  constructor
  case same_iff =>
    constructor
    -- The last message ends in a return, which the output of the other report does not have.
    · intro hsame
      by_contra hnone
      rw [not_or, not_ne_iff, Bool.not_eq_true] at hnone
      obtain ⟨d, hd, hlevel, hend⟩ := hkept hnone.1 hnone.2
      rw [hsame] at hd
      exact return_notMem_of_findings hquiet argv hreturn (List.mem_of_getLast? hd) hlevel
        (List.mem_of_getLast? hend)
    · rintro (hlast | hignored)
      · exact findings_withReturns_of_getLast?_ne hquiet cwd argv hreturn hlast
      · exact findings_withReturns_of_ignores hquiet argv hreturn hignored
  case replaced => exact fun body h => hreplaced h
  case kept =>
    intro hlast hignored
    obtain ⟨d, hd, -, hend⟩ := hkept hlast hignored
    exact ⟨d, hd, hend⟩

/-- The report on a tool that succeeds, and prints something. -/
def reportOn (stdout : List UInt8) : List Diagnostic :=
  (runCommand
    (.launching (fun _ _ s => (.ended (.code 0) stdout [], s)) (fun _ (_ : Unit) => true)
      fun _ _ => .error .notFound)
    (.ofDir none) ["vet"] (.host "linux") ()).1

/-- One finding, and the end of its line. -/
def oneFinding : List UInt8 := Utf8.encode "a.go:1: oops\n".toList

theorem reportsLineEnds_runCommand_oneFinding :
    ["vet"] ≠ [] ∧ IsQuiet (.code 0) [] ∧ 0x0D ∉ oneFinding ∧
      ReportsLineEnds none reportOn oneFinding := by
  have hquiet : IsQuiet (.code 0) [] := .inl rfl
  refine ⟨by decide, hquiet, by decide, ?_⟩
  exact reportsLineEnds_runCommand (fun stdout _ _ s => (.ended (.code 0) stdout [], s))
    (fun _ (_ : Unit) => true) (fun _ _ => .error .notFound) none (by decide) (.host "linux") ()
    (fun _ => rfl) hquiet (by decide)

/-- **Line ends make a difference**: the return at the end of the only line is reported. -/
theorem reportOn_withReturns_oneFinding :
    reportOn oneFinding = [⟨.warn, "a.go:1: oops"⟩] ∧
      reportOn (withReturns 0x0D 0x0A oneFinding) = [⟨.warn, "a.go:1: oops\r"⟩] ∧
      ¬ ∀ stdout, 0x0D ∉ stdout → reportOn (withReturns 0x0D 0x0A stdout) = reportOn stdout := by
  have hfeeds : reportOn oneFinding = [⟨.warn, "a.go:1: oops"⟩] := by decide
  have hreturns : reportOn (withReturns 0x0D 0x0A oneFinding) = [⟨.warn, "a.go:1: oops\r"⟩] := by
    decide
  refine ⟨hfeeds, hreturns, fun h => ?_⟩
  have hsame := h oneFinding (by decide)
  rw [hfeeds, hreturns] at hsame
  exact absurd hsame (by decide)

end LintSuite
