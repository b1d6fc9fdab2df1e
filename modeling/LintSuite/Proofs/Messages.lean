import LintSuite.Proofs.LineEnds
import Mathlib

/-!
# One message for each line

The messages of an output are told by its lines alone.  Which lines a text has is said by a grammar
(`Lines.AreLines`), and what is left of a line by one rule for each label in turn (`ComesOff`,
`IsMessage`): a label is taken off where the line begins with it, once, and is left alone anywhere
else.  Both have one answer, the one that is computed (`areLines_iff`, `isMessage_iff`).

Lines do not touch each other.  What stands behind a line feed is read as a text of its own
(`Lines.ofText_feed_append`), and a part of an output says no more than the whole that there was
nothing to do (`not_reportsIdle_of_infix`), so the messages of an output that is cut behind a line
feed are those of the two parts.  A line that is not wanted is counted in the output, before any
label is taken off, and leaves a gap of one message (`normalizeWithout_eq_eraseIdx`).

`normalizesLines_ofDir` puts this together.

### Design decisions

**Relations with one solution.**  Lines, labels and messages are each given by a relation that says
what counts as one, and a lemma that there is one answer, the computed one.  The statement at the end
is in terms of the relations, so it can be read without the functions.

**Labels in their order.**  The label of the vet tool comes off first and that of the working directory
second, and each at most once.  `IsMessage` has one clause for a known directory and one for an unknown
one, with the text between the two labels named; no rule about repeated or nested labels is needed.

### What is load-bearing

`cut_feed_append`: behind a line feed a text starts afresh.  All statements about parts of an output
come from it, since labels and patterns look at one line at a time, apart from the question whether the
output as a whole is to be ignored.
-/

namespace LintSuite

open Text

/-! ### Lines -/

namespace Text.Lines

/-- **A line and its end**: a piece of a text, and the line that it holds. -/
inductive IsEnded : List Char → List Char → Prop
  /-- A return and a line feed end the line. -/
  | returned (line : List Char) : IsEnded (line ++ ['\r', '\n']) line
  /-- A line feed ends it. -/
  | fed {line : List Char} (h : line.getLast? ≠ some '\r') : IsEnded (line ++ ['\n']) line
  /-- Nothing ends it; then a return at its end is one of its characters. -/
  | unended {line : List Char} (h : line.getLast? ≠ some '\n') : IsEnded line line

theorem lineOf_feed (body : List Char) : lineOf (body ++ ['\n']) = chop '\r' body := by
  simp [lineOf, dropLast?]

theorem lineOf_of_getLast?_ne {piece : List Char} (h : piece.getLast? ≠ some '\n') :
    lineOf piece = piece := by
  simp [lineOf, dropLast?, h]

/-- **A piece holds one line.** -/
theorem isEnded_iff {piece line : List Char} : IsEnded piece line ↔ line = lineOf piece := by
  constructor
  · intro h
    cases h with
    | returned =>
        have hpiece : line ++ ['\r', '\n'] = (line ++ ['\r']) ++ ['\n'] := by simp
        rw [hpiece, lineOf_feed]
        exact isChopped_iff.mp (.off line)
    | fed h =>
        rw [lineOf_feed]
        exact isChopped_iff.mp (.none h)
    | unended h => rw [lineOf_of_getLast?_ne h]
  · rintro rfl
    by_cases hfeed : piece.getLast? = some '\n'
    · obtain ⟨body, rfl⟩ := List.getLast?_eq_some_iff.mp hfeed
      rw [lineOf_feed]
      have hbody : IsChopped '\r' body (chop '\r' body) := isChopped_iff.mpr rfl
      -- What is taken off the body is the return before the line feed, if there is one.
      generalize chop '\r' body = line at hbody
      cases hbody with
      | off =>
          have hpiece : line ++ ['\r'] ++ ['\n'] = line ++ ['\r', '\n'] := by simp
          rw [hpiece]
          exact .returned line
      | none h => exact .fed h
    · rw [lineOf_of_getLast?_ne hfeed]
      exact .unended hfeed

/-- **The lines of a text**, one for each piece that ends with its line feed, and one more for what
is left behind the last line feed, unless nothing is left. -/
def AreLines (text : List Char) (lines : List (List Char)) : Prop :=
  ∃ pieces, IsCut '\n' text pieces ∧ List.Forall₂ IsEnded pieces lines

theorem forall₂_isEnded_iff {pieces lines : List (List Char)} :
    List.Forall₂ IsEnded pieces lines ↔ lines = pieces.map lineOf := by
  constructor
  · intro h
    induction h with
    | nil => rfl
    | cons hline _ ih => rw [List.map_cons, ← isEnded_iff.mp hline, ← ih]
  · rintro rfl
    rw [List.forall₂_map_right_iff, List.forall₂_same]
    exact fun piece _ => isEnded_iff.mpr rfl

/-- **A text has its lines in one way.** -/
theorem areLines_iff {text : List Char} {lines : List (List Char)} :
    AreLines text lines ↔ lines = ofText text := by
  constructor
  · rintro ⟨pieces, hpieces, hlines⟩
    rw [forall₂_isEnded_iff.mp hlines, isCut_iff.mp hpieces]
    rfl
  · rintro rfl
    exact ⟨_, isCut_cut _ _, forall₂_isEnded_iff.mpr rfl⟩

/-- **Behind a line feed a text starts afresh.** -/
theorem cut_feed_append {α : Type} [DecidableEq α] (mark : α) (text more : List α) :
    cut mark (text ++ mark :: more) = cut mark (text ++ [mark]) ++ cut mark more := by
  induction text with
  | nil => rw [List.nil_append, List.nil_append, cut_mark, cut_mark, cut_nil]; rfl
  | cons a text ih =>
      by_cases ha : a = mark
      · subst ha
        rw [List.cons_append, List.cons_append, cut_mark, cut_mark, ih, List.cons_append]
      · rw [List.cons_append, List.cons_append, cut_cons_of_ne ha, cut_cons_of_ne ha, ih]
        -- The text before the mark has a first piece, and the character goes in front of that.
        have hne : cut mark (text ++ [mark]) ≠ [] := by
          intro hnil
          have hflat := flatten_cut mark (text ++ [mark])
          rw [hnil] at hflat
          exact List.append_ne_nil_of_right_ne_nil text (List.cons_ne_nil mark []) hflat.symm
        obtain ⟨piece, others, hcut⟩ := List.exists_cons_of_ne_nil hne
        rw [hcut]
        rfl

theorem ofText_feed_append (text more : List Char) :
    ofText (text ++ '\n' :: more) = ofText (text ++ ['\n']) ++ ofText more := by
  rw [ofText, cut_feed_append, List.map_append]
  rfl

/-- A piece has a line feed at its end at most. -/
theorem feed_notMem_lineOf_of_mem_cut {text piece : List Char} (h : piece ∈ cut '\n' text) :
    '\n' ∉ lineOf piece := by
  have hcut := isCut_cut '\n' text
  generalize cut '\n' text = pieces at h hcut
  induction hcut with
  | nil => exact absurd h List.not_mem_nil
  | rest hne hfeed =>
      obtain rfl := List.mem_singleton.mp h
      exact fun hmem => hfeed ((isPrefix_lineOf _).subset hmem)
  | line hfeed _ ih =>
      rcases List.mem_cons.mp h with rfl | hmem
      · rw [lineOf_feed]
        exact fun hmem => hfeed ((isPrefix_chop _ _).subset hmem)
      · exact ih hmem

theorem feed_notMem_of_mem_ofText {text line : List Char} (h : line ∈ ofText text) :
    '\n' ∉ line := by
  obtain ⟨piece, hpiece, rfl⟩ := List.mem_map.mp h
  exact feed_notMem_lineOf_of_mem_cut hpiece

end Text.Lines

/-! ### Labels -/

namespace Normalizer

/-- **A label comes off a line** that begins with it, once; any other line stays as it is. -/
inductive ComesOff (label : List Char) : List Char → List Char → Prop
  /-- The line begins with the label. -/
  | off (rest : List Char) : ComesOff label (label ++ rest) rest
  /-- It begins otherwise. -/
  | none {line : List Char} (h : ¬ label <+: line) : ComesOff label line line

/-- **A label comes off in one way.** -/
theorem comesOff_iff {label line rest : List Char} :
    ComesOff label line rest ↔ rest = takeOff line label := by
  constructor
  · intro h
    cases h with
    | off => simp [takeOff]
    | none h => rw [takeOff, if_neg (mt List.isPrefixOf_iff_prefix.mp h)]
  · rintro rfl
    rw [takeOff]
    split_ifs with h
    · obtain ⟨rest, rfl⟩ := List.isPrefixOf_iff_prefix.mp h
      rw [List.drop_left]
      exact .off rest
    · exact .none (mt List.isPrefixOf_iff_prefix.mpr h)

/-- **The message of a line** of an output that was produced in a working directory, if that is
known: the label of the vet tool comes off, then the one of the current directory, then the one of
the working directory. -/
inductive IsMessage : Option Path → List Char → List Char → Prop
  /-- No working directory is known. -/
  | anywhere {line unvetted message : List Char} (vet : ComesOff "vet: ".toList line unvetted)
      (here : ComesOff "./".toList unvetted message) : IsMessage none line message
  /-- The working directory is known. -/
  | below {dir : Path} {line unvetted undotted message : List Char}
      (vet : ComesOff "vet: ".toList line unvetted) (here : ComesOff "./".toList unvetted undotted)
      (there : ComesOff (dir.text ++ "/").toList undotted message) :
      IsMessage (some dir) line message

/-- **A line has one message**: what is left of it without the labels. -/
theorem isMessage_iff {cwd : Option Path} {line message : List Char} :
    IsMessage cwd line message ↔ message = (ofDir cwd).strip line := by
  cases cwd with
  | none =>
      have hstrip : (ofDir none).strip line = takeOff (takeOff line "vet: ".toList) "./".toList :=
        rfl
      rw [hstrip]
      constructor
      · rintro ⟨vet, here⟩
        rw [← comesOff_iff.mp vet]
        exact comesOff_iff.mp here
      · rintro rfl
        exact .anywhere (comesOff_iff.mpr rfl) (comesOff_iff.mpr rfl)
  | some dir =>
      have hlabel : (dir.text ++ "/").toList = dir.text.toList ++ ['/'] := String.toList_append
      have hstrip : (ofDir (some dir)).strip line =
          takeOff (takeOff (takeOff line "vet: ".toList) "./".toList) (dir.text.toList ++ ['/']) :=
        rfl
      rw [hstrip, ← hlabel]
      constructor
      · rintro (_ | ⟨vet, here, there⟩)
        rw [← comesOff_iff.mp vet, ← comesOff_iff.mp here]
        exact comesOff_iff.mp there
      · rintro rfl
        exact .below (comesOff_iff.mpr rfl) (comesOff_iff.mpr rfl) (comesOff_iff.mpr rfl)

/-! ### Output to ignore -/

/-- **An output that reports nothing to do**: one of four phrases stands somewhere in it. -/
def ReportsIdle (text : String) : Prop :=
  ∃ phrase ∈ ["does not contain main module", "matched no packages", "no Go files in",
    "error obtaining VCS status"], phrase.toList <:+: text.toList

theorem ignores_ofDir_iff (cwd : Option Path) (text : String) :
    (ofDir cwd).ignores text = true ↔ ReportsIdle text := by
  have hphrases : (ofDir cwd).ignorable = idleOutput.map fun phrase => ⟨false, phrase.toList, false⟩ :=
    show idleOutput.map Pattern.ofSpelling = _ by decide
  rw [ignores, hphrases, List.any_map, List.any_eq_true]
  refine exists_congr fun phrase => and_congr_right fun _ => ?_
  exact Pattern.matchesIn_iff rfl rfl text.toList

/-- A part of an output reports nothing to do only if the whole does. -/
theorem not_reportsIdle_of_infix {text part : String} (h : ¬ ReportsIdle text)
    (hpart : part.toList <:+: text.toList) : ¬ ReportsIdle part := by
  rintro ⟨phrase, hphrase, hinside⟩
  exact h ⟨phrase, hphrase, hinside.trans hpart⟩

theorem normalize_of_not_reportsIdle (cwd : Option Path) {text : String} (h : ¬ ReportsIdle text) :
    (ofDir cwd).normalize text = (ofDir cwd).clean text :=
  if_neg (mt (ignores_ofDir_iff cwd text).mp h)

/-! ### A line that is not wanted -/

/-- What is numbered and not at one place is what is left without that place. -/
theorem filter_zipIdx_eq_eraseIdx {α : Type} (l : List α) (start i : Nat) :
    ((l.zipIdx start).filter fun e => some (start + i) != some e.2).map Prod.fst =
      l.eraseIdx i := by
  -- The numbers start anywhere, since they go on behind the first element.
  induction l generalizing start i with
  | nil => rfl
  | cons a l ih =>
      rw [List.zipIdx_cons]
      cases i with
      | zero =>
          have hlater : (l.zipIdx (start + 1)).filter (fun e => some (start + 0) != some e.2) =
              l.zipIdx (start + 1) := by
            rw [List.filter_eq_self]
            intro e he
            have hle : start + 1 ≤ e.2 := List.le_snd_of_mem_zipIdx he
            simp only [bne_iff_ne, ne_eq, Option.some.injEq]
            omega
          rw [List.filter_cons_of_neg (by simp), hlater, List.zipIdx_map_fst]
          rfl
      | succ i =>
          have hshift : start + (i + 1) = start + 1 + i := by omega
          have hfirst : (some (start + 1 + i) != some start) = true := by
            simp only [bne_iff_ne, ne_eq, Option.some.injEq]
            omega
          rw [hshift, List.filter_cons, if_pos hfirst, List.map_cons, ih]
          rfl

/-- **A line that is not wanted leaves out its message**, whatever is ignored and taken off. -/
theorem normalizeWithout_eq_eraseIdx (n : Normalizer) (text : String) (i : Nat) :
    n.normalizeWithout text (some i) = (n.normalize text).eraseIdx i := by
  rw [normalizeWithout, normalize]
  by_cases h : n.ignores text
  · rw [if_pos h, if_pos h]
    rfl
  · have hlines := filter_zipIdx_eq_eraseIdx (Lines.ofText text.toList) 0 i
    rw [Nat.zero_add] at hlines
    rw [if_neg h, if_neg h, clean, List.eraseIdx_map, ← hlines, List.map_map]
    rfl

/-! ### Messages and lines -/

/-- **The messages of an output are those of its lines.** -/
structure NormalizesLines (cwd : Option Path) (text : String) : Prop where
  /-- There is one message for each line, in the order of the lines. -/
  messages : ∃ lines, (∀ other, Lines.AreLines text.toList other ↔ other = lines) ∧
    List.Forall₂ (fun line message => ∀ other, IsMessage cwd line other ↔ other = message.toList)
      lines ((ofDir cwd).normalize text)
  /-- A message is the end of its line, and has no line feed. -/
  endsLine : ∀ lines, Lines.AreLines text.toList lines →
    List.Forall₂ (fun line message => message.toList <:+ line ∧ '\n' ∉ message.toList)
      lines ((ofDir cwd).normalize text)
  /-- The messages of what is cut behind a line feed are those of the parts. -/
  append : ∀ before behind, text = before ++ "\n" ++ behind →
    (ofDir cwd).normalize text =
      (ofDir cwd).normalize (before ++ "\n") ++ (ofDir cwd).normalize behind
  /-- A line that is not wanted leaves out one message. -/
  without : ∀ i, (ofDir cwd).normalizeWithout text (some i) = ((ofDir cwd).normalize text).eraseIdx i
  /-- There is none to leave out behind the last line. -/
  beyond : ∀ lines, Lines.AreLines text.toList lines → ∀ i, lines.length ≤ i →
    (ofDir cwd).normalizeWithout text (some i) = (ofDir cwd).normalize text

/-- A relation between lines and messages that holds of each line and what is left of it. -/
theorem forall₂_clean (cwd : Option Path) (text : String) {r : List Char → String → Prop}
    (h : ∀ line ∈ Lines.ofText text.toList, r line (String.ofList ((ofDir cwd).strip line))) :
    List.Forall₂ r (Lines.ofText text.toList) ((ofDir cwd).clean text) := by
  rw [clean, List.forall₂_map_right_iff, List.forall₂_same]
  exact h

/-- **An output is normalized line by line**, unless it reports that there was nothing to do. -/
theorem normalizesLines_ofDir (cwd : Option Path) {text : String} (h : ¬ ReportsIdle text) :
    NormalizesLines cwd text := by
  have hclean := normalize_of_not_reportsIdle cwd h
  refine ⟨?messages, ?endsLine, ?append, fun i => normalizeWithout_eq_eraseIdx _ _ i, ?beyond⟩
  case messages =>
    refine ⟨Lines.ofText text.toList, fun other => Lines.areLines_iff, ?_⟩
    rw [hclean]
    refine forall₂_clean cwd text fun line _ other => ?_
    rw [isMessage_iff, String.toList_ofList]
  case endsLine =>
    intro lines hlines
    rw [hclean, Lines.areLines_iff.mp hlines]
    refine forall₂_clean cwd text fun line hline => ?_
    rw [String.toList_ofList]
    have hsuffix := (ofDir cwd).strip_suffix line
    exact ⟨hsuffix, fun hmem => Lines.feed_notMem_of_mem_ofText hline (hsuffix.subset hmem)⟩
  case append =>
    rintro before behind rfl
    have hbefore : ¬ ReportsIdle (before ++ "\n") :=
      not_reportsIdle_of_infix h ⟨[], behind.toList, by simp⟩
    have hbehind : ¬ ReportsIdle behind :=
      not_reportsIdle_of_infix h ⟨(before ++ "\n").toList, [], by simp⟩
    have hwhole : (before ++ "\n" ++ behind).toList = before.toList ++ '\n' :: behind.toList := by
      simp
    have hfirst : (before ++ "\n").toList = before.toList ++ ['\n'] := by simp
    rw [hclean, normalize_of_not_reportsIdle cwd hbefore, normalize_of_not_reportsIdle cwd hbehind,
      clean, clean, clean, hwhole, hfirst, Lines.ofText_feed_append, List.map_append]
  case beyond =>
    intro lines hlines i hi
    rw [Lines.areLines_iff.mp hlines] at hi
    rw [normalizeWithout_eq_eraseIdx, hclean]
    exact List.eraseIdx_of_length_le (by rwa [clean, List.length_map])

/-- An output with every kind of line end, and with labels in and out of their places. -/
def labelledLines : String :=
  "vet: ./a.go\r\n\nvet: vet: b\n./vet: c\r\n/w/./d\n/w//w/e\r"

theorem normalizesLines_labelledLines :
    ¬ ReportsIdle labelledLines ∧ NormalizesLines (some (.ofText "/w")) labelledLines ∧
      (ofDir (some (.ofText "/w"))).normalize labelledLines =
        ["a.go", "", "vet: b", "vet: c", "./d", "/w/e\r"] := by
  have h : ¬ ReportsIdle labelledLines := by
    rw [← ignores_ofDir_iff none]
    decide
  exact ⟨h, normalizesLines_ofDir (some (.ofText "/w")) h, by decide +kernel⟩

end Normalizer

end LintSuite
