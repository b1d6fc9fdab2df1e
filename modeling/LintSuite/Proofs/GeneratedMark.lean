import LintSuite.Proofs.ExemptLines
import LintSuite.Proofs.FileText

/-!
# The mark of generated code

A line that marks generated code is made of fixed words with one blank in each gap, and of any text in
the middle (`IsMark`).  The text may hold the closing words itself, as often as it likes: what counts
is that the line ends with them.  The test is for the two ends of a line, and it finds the parts of
every mark since the fixed parts have fixed lengths (`isMarker_iff_exists`).

A mark neither starts as a directive nor ends in a block of tags (`isExempt_eq_false_of_isMarker`), so
it does not matter which of the two tests comes first (`scanLines_eq_exemptFirst`), and a mark ends the
scan wherever it stands (`scanLines_append_marker`).

### Design decisions

**A grammar with six blanks.**  `IsMark` has a blank of its own in each gap.  Two of them are next to
the text in the middle, and that text may be empty, but the two blanks are never one: a mark is at least
as long as both of its parts, and the test asks for that before it looks at either.

**The other order as a second scan.**  That the order of the two tests is free is said by a scan with
the tests the other way around (`scanExemptFirst`), which is equal to the one that runs.  To say that
no line passes both tests would be enough for lines, but this is about the scan.

### What is load-bearing

A scanned line has no line feed in it (`feed_notMem_shown`).  The test does not ask what the text in
the middle is made of, and only for lines without a line feed does that make no difference.
-/

namespace LintSuite.LineLength

open Text

/-- **A line that marks generated code.** -/
inductive IsMark : List Char → Prop
  | mk {a b c d e f : Char} {text : List Char} (ha : isBlank a = true) (hb : isBlank b = true)
      (hc : isBlank c = true) (htext : '\n' ∉ text) (hd : isBlank d = true)
      (he : isBlank e = true) (hf : isBlank f = true) :
      IsMark ("//".toList ++ a :: "Code".toList ++ b :: "generated".toList ++ c :: text ++
        d :: "DO".toList ++ e :: "NOT".toList ++ f :: "EDIT.".toList)

/-! ### Fixed parts -/

theorem length_of_fits {slots : List Slot} {text : List Char} (h : fits slots text = true) :
    text.length = slots.length := by
  induction slots generalizing text with
  | nil =>
      cases text with
      | nil => rfl
      | cons c text => cases h
  | cons slot slots ih =>
      cases text with
      | nil => cases h
      | cons c text =>
          rw [fits, Bool.and_eq_true] at h
          rw [List.length_cons, List.length_cons, ih h.2]

theorem fits_nil_iff {text : List Char} : fits [] text = true ↔ text = [] := by
  cases text <;> simp [fits]

theorem fits_cons_iff {slot : Slot} {slots : List Slot} {text : List Char} :
    fits (slot :: slots) text = true ↔
      ∃ c rest, text = c :: rest ∧ slot.fits c = true ∧ fits slots rest = true := by
  cases text with
  | nil => simp [fits]
  | cons c text => simp [fits]

/-- A gap is one blank. -/
theorem fits_blank_iff {slots : List Slot} {text : List Char} :
    fits (.blank :: slots) text = true ↔
      ∃ c rest, text = c :: rest ∧ isBlank c = true ∧ fits slots rest = true :=
  fits_cons_iff

/-- A word stands as it is. -/
theorem fits_map_exactly_iff {cs : List Char} {slots : List Slot} {text : List Char} :
    fits (cs.map .exactly ++ slots) text = true ↔
      ∃ rest, text = cs ++ rest ∧ fits slots rest = true := by
  induction cs generalizing text with
  | nil => simp
  | cons c cs ih =>
      rw [List.map_cons, List.cons_append, fits_cons_iff]
      constructor
      · rintro ⟨d, rest, rfl, hd, hrest⟩
        obtain ⟨behind, rfl, hbehind⟩ := ih.mp hrest
        obtain rfl : c = d := eq_of_beq hd
        exact ⟨behind, rfl, hbehind⟩
      · rintro ⟨rest, rfl, hrest⟩
        exact ⟨c, cs ++ rest, rfl, beq_self_eq_true c, ih.mpr ⟨rest, rfl, hrest⟩⟩

theorem fits_word_iff {s : String} {slots : List Slot} {text : List Char} :
    fits (word s ++ slots) text = true ↔
      ∃ rest, text = s.toList ++ rest ∧ fits slots rest = true :=
  fits_map_exactly_iff

theorem fits_opening_iff {front : List Char} :
    fits opening front = true ↔
      ∃ a b c, isBlank a = true ∧ isBlank b = true ∧ isBlank c = true ∧
        front = "//".toList ++ a :: "Code".toList ++ b :: "generated".toList ++ [c] := by
  have hopening : opening =
      word "//" ++ .blank :: (word "Code" ++ .blank :: (word "generated" ++ [.blank])) := by
    simp [opening]
  rw [hopening, fits_word_iff]
  simp only [fits_blank_iff, fits_word_iff, fits_nil_iff]
  constructor
  · rintro ⟨_, rfl, a, _, rfl, ha, _, rfl, b, _, rfl, hb, _, rfl, c, _, rfl, hc, rfl⟩
    exact ⟨a, b, c, ha, hb, hc, by simp⟩
  · rintro ⟨a, b, c, ha, hb, hc, rfl⟩
    exact ⟨_, by simp, a, _, rfl, ha, _, rfl, b, _, rfl, hb, _, rfl, c, _, rfl, hc, rfl⟩

theorem fits_closing_iff {back : List Char} :
    fits closing back = true ↔
      ∃ d e f, isBlank d = true ∧ isBlank e = true ∧ isBlank f = true ∧
        back = d :: "DO".toList ++ e :: "NOT".toList ++ f :: "EDIT.".toList := by
  have hclosing : closing =
      .blank :: (word "DO" ++ .blank :: (word "NOT" ++ .blank :: (word "EDIT." ++ []))) := by
    simp [closing]
  rw [hclosing]
  simp only [fits_blank_iff, fits_word_iff, fits_nil_iff]
  constructor
  · rintro ⟨d, _, rfl, hd, _, rfl, e, _, rfl, he, _, rfl, f, _, rfl, hf, _, rfl, rfl⟩
    exact ⟨d, e, f, hd, he, hf, by simp⟩
  · rintro ⟨d, e, f, hd, he, hf, rfl⟩
    exact ⟨d, _, by simp, hd, _, rfl, e, _, rfl, he, _, rfl, f, _, rfl, hf, _, rfl, rfl⟩

/-! ### Marks -/

/-- **The test finds the two fixed parts** with whatever stands between them. -/
theorem isMarker_iff_exists {line : List Char} :
    isMarker line = true ↔
      ∃ front text back, line = front ++ (text ++ back) ∧ fits opening front = true ∧
        fits closing back = true := by
  rw [isMarker, Bool.and_eq_true, Bool.and_eq_true, decide_eq_true_eq]
  constructor
  · rintro ⟨⟨hlong, hfront⟩, hback⟩
    refine ⟨_, (line.drop opening.length).take
      (line.length - closing.length - opening.length), _, ?_, hfront, hback⟩
    have hdrop : line.drop (line.length - closing.length) =
        (line.drop opening.length).drop (line.length - closing.length - opening.length) := by
      rw [List.drop_drop]
      congr 1
      omega
    rw [hdrop, List.take_append_drop, List.take_append_drop]
  · rintro ⟨front, text, back, rfl, hfront, hback⟩
    have hfrontLength := length_of_fits hfront
    have hbackLength := length_of_fits hback
    have hbehind : (front ++ (text ++ back)).drop
        ((front ++ (text ++ back)).length - closing.length) = back := by
      rw [← List.append_assoc, ← hbackLength, List.length_append, Nat.add_sub_cancel,
        List.drop_left]
    refine ⟨⟨?_, ?_⟩, ?_⟩
    · simp only [List.length_append]
      omega
    · rwa [← hfrontLength, List.take_left]
    · rwa [hbehind]

theorem isMarker_of_isMark {line : List Char} (h : IsMark line) : isMarker line = true := by
  obtain ⟨ha, hb, hc, -, hd, he, hf⟩ := h
  rename_i a b c d e f text
  have hfront := fits_opening_iff.mpr ⟨a, b, c, ha, hb, hc, rfl⟩
  have hback := fits_closing_iff.mpr ⟨d, e, f, hd, he, hf, rfl⟩
  exact isMarker_iff_exists.mpr ⟨_, text, _, by simp, hfront, hback⟩

/-- **The lines without a line feed that the test finds are the marks.** -/
theorem isMarker_iff_isMark {line : List Char} (h : '\n' ∉ line) :
    isMarker line = true ↔ IsMark line := by
  refine ⟨fun hmarker => ?_, isMarker_of_isMark⟩
  obtain ⟨front, text, back, rfl, hfront, hback⟩ := isMarker_iff_exists.mp hmarker
  obtain ⟨a, b, c, ha, hb, hc, rfl⟩ := fits_opening_iff.mp hfront
  obtain ⟨d, e, f, hd, he, hf, rfl⟩ := fits_closing_iff.mp hback
  have htext : '\n' ∉ text := fun hmem =>
    h (List.mem_append_right _ (List.mem_append_left _ hmem))
  have hmark : IsMark _ := .mk ha hb hc htext hd he hf
  simpa using hmark

/-! ### Marks and exempt lines -/

/-- The first three characters of a mark, and its last one. -/
theorem ends_of_isMarker {line : List Char} (h : isMarker line = true) :
    ∃ a rest, isBlank a = true ∧ line = '/' :: '/' :: a :: rest ∧ line.getLast? = some '.' := by
  obtain ⟨front, text, back, rfl, hfront, hback⟩ := isMarker_iff_exists.mp h
  obtain ⟨a, b, c, ha, -, -, rfl⟩ := fits_opening_iff.mp hfront
  obtain ⟨d, e, f, -, -, -, rfl⟩ := fits_closing_iff.mp hback
  refine ⟨a, _, ha, rfl, ?_⟩
  rw [List.getLast?_append, List.getLast?_append, List.getLast?_append]
  rfl

/-- A block of tags ends in a back-tick or a blank. -/
theorem getLast?_of_endsInBlock {line : List Char} (h : EndsInBlock line) :
    ∃ c, line.getLast? = some c ∧ (c = '\x60' ∨ isBlank c = true) := by
  obtain ⟨-, -, hblank⟩ := h
  rename_i front behind pairs
  rw [← List.cons_append, ← List.append_assoc, List.getLast?_append]
  cases hlast : behind.getLast? with
  | none =>
      obtain rfl := List.getLast?_eq_none_iff.mp hlast
      exact ⟨'\x60', rfl, .inl rfl⟩
  | some c =>
      refine ⟨c, ?_, .inr (hblank c (List.mem_of_getLast? hlast))⟩
      rw [List.getLast?_cons, hlast]
      rfl

/-- **No mark may run long**: none is a directive, and none ends in a block of tags. -/
theorem isExempt_eq_false_of_isMarker {line : List Char} (h : isMarker line = true) :
    isExempt line = false := by
  obtain ⟨a, rest, ha, hline, hlast⟩ := ends_of_isMarker h
  rw [isExempt, Bool.or_eq_false_iff]
  constructor
  · have hne : ('g' == a) = false := by
      refine beq_eq_false_iff_ne.mpr ?_
      rintro rfl
      exact absurd ha (by decide)
    simp [hline, directive, List.isPrefixOf, hne]
  · refine Bool.eq_false_iff.mpr fun htags => ?_
    obtain ⟨c, hc, hends⟩ := getLast?_of_endsInBlock (endsInTags_iff.mp htags)
    obtain rfl : '.' = c := Option.some.inj (hlast.symm.trans hc)
    rcases hends with hends | hends
    · exact absurd hends (by decide)
    · exact absurd hends (by decide)

/-! ### The scan -/

/-- The scan with the test for exempt lines in front of the one for marks. -/
def scanExemptFirst (threshold : Nat) (p : Path) (number : Int32) :
    List (List Char) → List Diagnostic
  | [] => []
  | line :: rest =>
    if isExempt line then scanExemptFirst threshold p (number + 1) rest
    else if isMarker line then []
    else if threshold < line.length then
      tooLong p number line :: scanExemptFirst threshold p (number + 1) rest
    else scanExemptFirst threshold p (number + 1) rest

/-- **The order of the two tests does not matter.** -/
theorem scanLines_eq_exemptFirst (threshold : Nat) (p : Path) (number : Int32)
    (lines : List (List Char)) :
    scanLines threshold p number lines = scanExemptFirst threshold p number lines := by
  induction lines generalizing number with
  | nil => rfl
  | cons line rest ih =>
      rw [scanLines, scanExemptFirst, ih]
      by_cases hmarker : isMarker line = true
      · rw [if_pos hmarker, isExempt_eq_false_of_isMarker hmarker, if_neg Bool.false_ne_true,
          if_pos hmarker]
      · rw [if_neg hmarker, if_neg hmarker]

/-- **A mark ends the scan**: what stands behind it, and itself, might as well not be there. -/
theorem scanLines_append_marker (threshold : Nat) (p : Path) (number : Int32)
    (before : List (List Char)) {mark : List Char} (h : isMarker mark = true)
    (behind : List (List Char)) :
    scanLines threshold p number (before ++ mark :: behind) =
      scanLines threshold p number before := by
  induction before generalizing number with
  | nil => simp [scanLines, h]
  | cons line before ih => rw [List.cons_append, scanLines, scanLines, ih]

/-- Without its end a line has no line feed in it. -/
theorem feed_notMem_bare {content piece : List UInt8} (h : piece ∈ Lines.cut 0x0A content) :
    0x0A ∉ Lines.bare piece := by
  suffices hchop : 0x0A ∉ Lines.chop 0x0A piece from
    fun hmem => hchop ((Lines.isPrefix_chop 0x0D _).subset hmem)
  have hcut := Lines.isCut_cut 0x0A content
  generalize Lines.cut 0x0A content = pieces at h hcut
  induction hcut with
  | nil => cases h
  | rest ne_nil unmarked =>
      obtain rfl := List.mem_singleton.mp h
      rwa [Lines.chop_of_notMem unmarked]
  | line unmarked hcut ih =>
      rcases List.mem_cons.mp h with rfl | h
      · rwa [Lines.chop_concat]
      · exact ih h

/-- No line that is scanned has a line feed in it. -/
theorem feed_notMem_shown {content piece : List UInt8} (h : piece ∈ Lines.cut 0x0A content) :
    '\n' ∉ shown piece := by
  have hdecoded : '\n' ∉ decoded piece :=
    mt (Utf8.mem_of_mem_decodeLossy (b := 0x0A) (by decide) (by decide)) (feed_notMem_bare h)
  rw [shown_eq, expandTabs, List.mem_flatMap]
  rintro ⟨c, hc, hmem⟩
  split at hmem
  · simp at hmem
  · obtain rfl := List.mem_singleton.mp hmem
    exact hdecoded hc

/-- The lines of a file as they are scanned. -/
def scannedLines (content : List UInt8) : List (List Char) :=
  (Lines.cut 0x0A content).map shown

/-- **Marks of generated code.**  A line without a line feed is found to be one exactly if it is one,
and then it is not exempt.  No line that is scanned has a line feed, so the two tests of the scan may
be made in either order, and a mark ends the scan wherever it stands in a file. -/
theorem isMarker_iff_and_endsScan {line : List Char} (h : '\n' ∉ line) :
    (isMarker line = true ↔ IsMark line) ∧ ¬(isMarker line = true ∧ isExempt line = true) ∧
      ∀ (threshold : Nat) (p : Path) (content : List UInt8),
        (∀ other ∈ scannedLines content, '\n' ∉ other) ∧
        scanBytes threshold p content = scanExemptFirst threshold p 1 (scannedLines content) ∧
        ∀ before behind, scannedLines content = before ++ line :: behind → IsMark line →
          scanBytes threshold p content = scanLines threshold p 1 before := by
  refine ⟨isMarker_iff_isMark h, ?_, fun threshold p content => ⟨?_, ?_, ?_⟩⟩
  · rintro ⟨hmarker, hexempt⟩
    rw [isExempt_eq_false_of_isMarker hmarker] at hexempt
    cases hexempt
  · intro other hother
    obtain ⟨piece, hpiece, rfl⟩ := List.mem_map.mp hother
    exact feed_notMem_shown hpiece
  · exact scanLines_eq_exemptFirst threshold p 1 _
  · intro before behind hlines hmark
    have hscan : scanBytes threshold p content = scanLines threshold p 1 (scannedLines content) := rfl
    rw [hscan, hlines, scanLines_append_marker threshold p 1 before (isMarker_of_isMark hmark)]

/-- A mark that says its closing words twice, with a wide blank in it. -/
def closedTwice : List Char :=
  "//\u2003Code generated by DO NOT EDIT. DO\u00A0NOT EDIT.".toList

/-- It stands between two long lines. -/
def closedTwiceContent : List UInt8 :=
  Utf8.encode ("abcdef\n".toList ++ closedTwice ++ "\nghijkl".toList)

theorem isMarker_iff_and_endsScan_closedTwice :
    '\n' ∉ closedTwice ∧ IsMark closedTwice ∧ isExempt closedTwice = false ∧
      scannedLines closedTwiceContent = ["abcdef".toList] ++ closedTwice :: ["ghijkl".toList] ∧
      scanBytes 4 (.ofText "a.go") closedTwiceContent = [.warn "a.go:1 (6) abcdef"] := by
  have hfeed : '\n' ∉ closedTwice := by decide
  have hmarker : isMarker closedTwice = true := by decide
  have hlines : scannedLines closedTwiceContent =
      ["abcdef".toList] ++ closedTwice :: ["ghijkl".toList] := by decide +kernel
  obtain ⟨hmark, hexempt, hscan⟩ := isMarker_iff_and_endsScan hfeed
  refine ⟨hfeed, hmark.mp hmarker, ?_, hlines, ?_⟩
  · rw [Bool.eq_false_iff]
    exact fun h => hexempt ⟨hmarker, h⟩
  · rw [(hscan 4 (.ofText "a.go") closedTwiceContent).2.2 _ _ hlines (hmark.mp hmarker)]
    decide +kernel

end LintSuite.LineLength
