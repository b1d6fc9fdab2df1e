import Mathlib
import LintSuite.LineLength.Scan

/-!
# What the line scan reports

The scan is a loop that cuts lines, decodes them, stops, skips and reports.  This module takes it
apart.  How a text falls into lines is said by a grammar (`Lines.IsCut`), which has one reading of
every text: the one that `cut` computes (`Lines.isCut_iff`).  Which lines are reported is then an
equation (`scanLines_eq`): of the lines before the first mark of generated code, numbered in order,
those that are not exempt and too long.  And a line is as long as it has characters, with three more
for each tab (`length_expandTabs`).

The loop counts in a word of 32 bits, and nothing bounds the lines of a file.  So the numbers of the
lines (`overlong`) are told apart from the numerals they are printed with: the two agree below 2^31
and nowhere else (`toString_ofNat_eq_iff`), and a file reports its lines by their numbers exactly if
none of those it reports lies further down (`scanFile_reports`).  A file of 2147483647 empty lines
and an overlong one reports a line that no file has (`scanFile_manyLines`).

### Design decisions

**Numbers and numerals.**  The statement about a readable file has two parts.  The list of reported
lines, with their places in the file, is exact for every content.  What is printed for a place is a
numeral of the word that the loop has counted to, and when that is the numeral of the place is an
equivalence.

**The content is arbitrary.**  Nothing bounds the number of lines, and the counterexample is a content
of two thousand million line feeds.  It is never evaluated: the lines of such a content are known by
induction (`cut_replicate_mark`), and so is that nothing but the last one is reported.
-/

namespace LintSuite

namespace Text.Lines

variable {α : Type} [DecidableEq α]

/-- **How a text falls into lines**: each ends with the mark and has it nowhere else, and what is
left behind the last mark is one more line, unless nothing is left. -/
inductive IsCut (mark : α) : List α → List (List α) → Prop
  /-- Nothing is left. -/
  | nil : IsCut mark [] []
  /-- Something is left, and no mark in it. -/
  | rest {text : List α} (ne_nil : text ≠ []) (unmarked : mark ∉ text) : IsCut mark text [text]
  /-- A line with its mark, and the lines of the text behind it. -/
  | line {body text : List α} {pieces : List (List α)} (unmarked : mark ∉ body)
      (cut : IsCut mark text pieces) : IsCut mark (body ++ mark :: text) ((body ++ [mark]) :: pieces)

theorem cut_cons_of_ne {mark a : α} (h : a ≠ mark) (text : List α) :
    cut mark (a :: text) =
      match cut mark text with
      | [] => [[a]]
      | piece :: others => (a :: piece) :: others := by
  rw [cut]
  exact if_neg h

/-- The first line of a text that has a mark. -/
theorem cut_append_mark {mark : α} {body : List α} (h : mark ∉ body) (text : List α) :
    cut mark (body ++ mark :: text) = (body ++ [mark]) :: cut mark text := by
  induction body with
  | nil => exact cut_mark mark text
  | cons a body ih =>
      rw [List.mem_cons, not_or] at h
      rw [List.cons_append, cut_cons_of_ne (Ne.symm h.1), ih h.2]
      rfl

/-- A text without a mark is one line. -/
theorem cut_of_notMem {mark : α} {text : List α} (hne : text ≠ []) (h : mark ∉ text) :
    cut mark text = [text] := by
  induction text with
  | nil => exact absurd rfl hne
  | cons a text ih =>
      rw [List.mem_cons, not_or] at h
      rw [cut_cons_of_ne (Ne.symm h.1)]
      by_cases ht : text = []
      · subst ht
        rfl
      · rw [ih ht h.2]

theorem isCut_cut (mark : α) (text : List α) : IsCut mark text (cut mark text) := by
  induction text with
  | nil => exact .nil
  | cons a text ih =>
      by_cases h : a = mark
      · subst h
        rw [cut_mark]
        exact IsCut.line List.not_mem_nil ih
      · rw [cut_cons_of_ne h]
        -- The character goes in front of the first line of the others, whatever that is.
        generalize cut mark text = pieces at ih ⊢
        cases ih with
        | nil => exact .rest (by simp) (by simpa using Ne.symm h)
        | rest hne hmark => exact .rest (by simp) (by simp [Ne.symm h, hmark])
        | line hbody hcut =>
            rw [← List.cons_append]
            exact .line (by simp [Ne.symm h, hbody]) hcut

/-- **A text falls into lines in one way**, and that is its cut. -/
theorem isCut_iff {mark : α} {text : List α} {pieces : List (List α)} :
    IsCut mark text pieces ↔ pieces = cut mark text := by
  constructor
  · intro h
    induction h with
    | nil => rfl
    | rest hne hmark => rw [cut_of_notMem hne hmark]
    | line hbody _ ih => rw [cut_append_mark hbody, ih]
  · rintro rfl
    exact isCut_cut mark text

end Text.Lines

namespace LineLength

open Text Host

/-- The text of a line: its bytes without one line feed and then one carriage return at the end,
decoded. -/
def decoded (piece : List UInt8) : List Char :=
  Utf8.decodeLossy (Lines.bare piece)

/-- **The width of a line**: one for each character, and three more for a tab. -/
def width (line : List Char) : Nat :=
  line.length + 3 * line.count '\t'

theorem shown_eq (piece : List UInt8) : shown piece = expandTabs (decoded piece) := rfl

/-- With its tabs spelled out, a line is as long as it is wide. -/
theorem length_expandTabs (line : List Char) : (expandTabs line).length = width line := by
  induction line with
  | nil => rfl
  | cons c line ih =>
      rw [width] at ih ⊢
      rw [expandTabs, List.flatMap_cons, List.length_append, ← expandTabs, ih]
      by_cases h : c = '\t'
      · subst h
        rw [if_pos (beq_self_eq_true _), List.count_cons_self, List.length_cons]
        simp only [List.length_cons, List.length_nil]
        omega
      · rw [if_neg (by simpa using h), List.count_cons_of_ne h, List.length_singleton,
          List.length_cons]
        omega

/-- **The lines that are reported**, with their numbers: of those before the first mark, the ones that
are not exempt and longer than the threshold.  The first line has the number given. -/
def overlongFrom (number threshold : Nat) (lines : List (List Char)) : List (List Char × Nat) :=
  ((lines.takeWhile (!isMarker ·)).zipIdx number).filter fun e =>
    !isExempt e.1 && threshold < e.1.length

/-- **The scan, line by line**: it counts in a word, which starts at the number of the first line. -/
theorem scanLines_eq (threshold : Nat) (p : Path) (number : Nat) (lines : List (List Char)) :
    scanLines threshold p (Int32.ofNat number) lines =
      (overlongFrom number threshold lines).map fun e => tooLong p (Int32.ofNat e.2) e.1 := by
  induction lines generalizing number with
  | nil => rfl
  | cons line rest ih =>
      have hnext : Int32.ofNat number + 1 = Int32.ofNat (number + 1) := (Int32.ofNat_add number 1).symm
      rw [scanLines, hnext, ih]
      unfold overlongFrom
      by_cases hm : isMarker line = true
      · simp [hm]
      · rw [if_neg hm, List.takeWhile_cons_of_pos (by simpa using hm), List.zipIdx_cons,
          List.filter_cons]
        by_cases he : isExempt line = true
        · simp [he]
        · by_cases hl : threshold < line.length
          · simp [he, hl]
          · simp [he, hl]

theorem scanFile_of_read {fs : FileSystem} {p : Path} {content : List UInt8}
    (h : fs.read p = .ok content) (threshold : Nat) :
    scanFile threshold fs p = scanBytes threshold p content := by
  rw [scanFile, h, scanRead]

/-! ### Numbers and numerals -/

theorem toDigits_injective : Function.Injective (Nat.toDigits 10) :=
  Function.LeftInverse.injective (g := (Nat.ofDigitChars 10 · 0)) fun _ =>
    Nat.ofDigitChars_ten_toDigits

/-- **The numeral of a wrapped number** is that of the number exactly if there was nothing to wrap. -/
theorem toString_ofNat_eq_iff {k : Nat} : toString (Int32.ofNat k) = toString k ↔ k < 2 ^ 31 := by
  constructor
  · intro h
    by_contra hk
    have hbound := (Int32.ofNat k).toInt_lt
    have hdigits : (toString (Int32.ofNat k).toInt).toList = Nat.toDigits 10 k := by
      rw [show toString (Int32.ofNat k).toInt = toString k from h]
      exact String.toList_ofList
    cases hvalue : (Int32.ofNat k).toInt with
    | ofNat n =>
        rw [hvalue] at hdigits hbound
        have hsame : Nat.toDigits 10 n = Nat.toDigits 10 k := by
          rw [← hdigits]
          exact String.toList_ofList.symm
        have hn : n < 2 ^ 31 := by simpa using hbound
        exact hk (toDigits_injective hsame ▸ hn)
    | negSucc n =>
        -- A numeral of digits has no sign.
        rw [hvalue] at hdigits
        have hsign : '-' ∈ Nat.toDigits 10 k := by
          rw [← hdigits]
          show '-' ∈ ("-" ++ toString (n + 1)).toList
          rw [String.toList_append]
          exact List.mem_append_left _ (by decide)
        exact absurd (Nat.isDigit_of_mem_toDigits (by decide) (by decide) hsign) (by decide)
  · intro h
    show toString (Int32.ofNat k).toInt = toString k
    rw [Int32.toInt_ofNat_of_lt h]
    rfl

/-- The finding of a line, given the numeral of its number. -/
def findingOf (p : Path) (numeral : String) (line : List Char) : Diagnostic :=
  .warn (p.text ++ ":" ++ numeral ++ " (" ++ toString (width line) ++ ") " ++
    String.ofList (expandTabs line))

theorem findingOf_inj {p : Path} {a b : String} {line : List Char} :
    findingOf p a line = findingOf p b line ↔ a = b := by
  constructor
  · intro h
    have htext := congrArg (fun d => d.message.toList) h
    rw [← String.toList_inj]
    simpa [findingOf, Diagnostic.warn, String.toList_append] using htext
  · rintro rfl
    rfl

/-- The lines of a content that are reported, before their tabs are spelled out. -/
def overlong (threshold : Nat) (lines : List (List Char)) : List (List Char × Nat) :=
  ((lines.takeWhile fun line => !isMarker (expandTabs line)).zipIdx 1).filter fun e =>
    !isExempt (expandTabs e.1) && threshold < width e.1

theorem overlongFrom_map_expandTabs (threshold : Nat) (lines : List (List Char)) :
    overlongFrom 1 threshold (lines.map expandTabs) =
      (overlong threshold lines).map fun e => (expandTabs e.1, e.2) := by
  rw [overlongFrom, overlong, List.takeWhile_map, ← List.map_zipIdx, List.filter_map]
  simp only [Function.comp_def, Prod.map_fst, length_expandTabs]
  rfl

theorem scanBytes_eq (threshold : Nat) (p : Path) (content : List UInt8) :
    scanBytes threshold p content =
      (overlong threshold ((Lines.cut 0x0A content).map decoded)).map fun e =>
        findingOf p (toString (Int32.ofNat e.2)) e.1 := by
  have hshown : shown = expandTabs ∘ decoded := funext shown_eq
  rw [scanBytes, hshown, ← List.map_map, show (1 : Int32) = Int32.ofNat 1 from rfl, scanLines_eq,
    overlongFrom_map_expandTabs, List.map_map]
  refine List.map_congr_left fun e _ => ?_
  rw [Function.comp_apply, tooLong, length_expandTabs, findingOf]

/-- **What the scan of a readable file reports.**  Its content falls into lines in one way, the
lines are numbered from one, and of those before the first mark of generated code each one that is
not exempt and wider than the threshold is reported, in order, by its number as a word of 32 bits.
That is the number itself exactly if every reported line is one of the first 2147483647. -/
theorem scanFile_reports (threshold : Nat) {fs : FileSystem} {p : Path} {content : List UInt8}
    (h : fs.read p = .ok content) :
    ∃ pieces, (∀ other, Lines.IsCut 0x0A content other ↔ other = pieces) ∧
      scanFile threshold fs p =
        (overlong threshold (pieces.map decoded)).map
          (fun e => findingOf p (toString (Int32.ofNat e.2)) e.1) ∧
      (scanFile threshold fs p =
          (overlong threshold (pieces.map decoded)).map
            (fun e => findingOf p (toString e.2) e.1) ↔
        ∀ e ∈ overlong threshold (pieces.map decoded), e.2 < 2 ^ 31) := by
  have hscan := scanBytes_eq threshold p content
  rw [← scanFile_of_read h] at hscan
  refine ⟨Lines.cut 0x0A content, fun other => Lines.isCut_iff, hscan, ?_⟩
  rw [hscan, List.map_inj_left]
  refine forall_congr' fun e => forall_congr' fun _ => ?_
  rw [findingOf_inj, toString_ofNat_eq_iff]

/-- A directory that holds one file, `a.go`. -/
def holding (content : List UInt8) : FileSystem :=
  ⟨.dir .full (.entry (RawText.ofText "a.go") (.file .ofFile content) .none), []⟩

theorem read_holding (content : List UInt8) :
    (holding content).read (.ofText "a.go") = .ok content := by
  cbv

/-- A content whose third line marks it as generated. -/
def sampleContent : List UInt8 :=
  Utf8.encode "ab\n\tabc\r\n// Code generated by hand. DO NOT EDIT.\nabcdef".toList

/-- Of its lines only the second is reported: the first is short, and the last is behind the mark. -/
theorem scanFile_reports_sampleContent :
    (holding sampleContent).read (.ofText "a.go") = .ok sampleContent ∧
      scanFile 4 (holding sampleContent) (.ofText "a.go") = [.warn "a.go:2 (7)     abc"] := by
  refine ⟨read_holding sampleContent, ?_⟩
  obtain ⟨pieces, hcut, hscan, -⟩ := scanFile_reports 4 (read_holding sampleContent)
  obtain rfl := (hcut (Lines.cut 0x0A sampleContent)).mp (Lines.isCut_iff.mpr rfl)
  rw [hscan]
  decide +kernel

/-! ### A file with too many lines -/

theorem cut_replicate_mark {mark : UInt8} (n : Nat) (rest : List UInt8) :
    Lines.cut mark (List.replicate n mark ++ rest) =
      List.replicate n [mark] ++ Lines.cut mark rest := by
  induction n with
  | zero => rfl
  | succ n ih =>
      rw [List.replicate_succ, List.replicate_succ, List.cons_append, List.cons_append,
        Lines.cut_mark, ih]

/-- Behind lines without text, a line with text is the only one reported. -/
theorem overlong_replicate_nil {threshold : Nat} {line : List Char} (n : Nat)
    (hmark : isMarker (expandTabs line) = false) (hexempt : isExempt (expandTabs line) = false)
    (hwidth : threshold < width line) :
    overlong threshold (List.replicate n [] ++ [line]) = [(line, n + 1)] := by
  have hempty : isMarker (expandTabs []) = false := by decide
  have hall : (List.replicate n [] ++ [line]).takeWhile (fun l => !isMarker (expandTabs l)) =
      List.replicate n [] ++ [line] := by
    rw [List.takeWhile_eq_self_iff]
    intro l hl
    rcases List.mem_append.mp hl with hl | hl
    · rw [List.eq_of_mem_replicate hl, hempty]
      rfl
    · rw [List.mem_singleton.mp hl, hmark]
      rfl
  have hshort : ((List.replicate n ([] : List Char)).zipIdx 1).filter
      (fun e => !isExempt (expandTabs e.1) && threshold < width e.1) = [] := by
    rw [List.filter_eq_nil_iff]
    rintro ⟨l, k⟩ he
    obtain rfl : l = [] := List.eq_of_mem_replicate (List.fst_mem_of_mem_zipIdx he)
    simp [width]
  rw [overlong, hall, List.zipIdx_append, List.filter_append, hshort, List.nil_append,
    List.length_replicate]
  simp [hexempt, hwidth, Nat.add_comm]

/-- As many line ends as a word of 32 bits counts, and a line of four letters. -/
def manyLines : List UInt8 :=
  List.replicate 2147483647 0x0A ++ Utf8.encode "abcd".toList

/-- **The number of a line wraps around**: line 2147483648 is reported by a negative number. -/
theorem scanFile_manyLines :
    scanFile 3 (holding manyLines) (.ofText "a.go") = [.warn "a.go:-2147483648 (4) abcd"] ∧
      ¬ ∀ (threshold : Nat) (fs : FileSystem) (p : Path) (content : List UInt8),
        fs.read p = .ok content →
        scanFile threshold fs p =
          (overlong threshold ((Lines.cut 0x0A content).map decoded)).map
            fun e => findingOf p (toString e.2) e.1 := by
  have hoverlong : overlong 3 ((Lines.cut 0x0A manyLines).map decoded) =
      [("abcd".toList, 2147483648)] := by
    have hlast : (Lines.cut 0x0A (Utf8.encode "abcd".toList)).map decoded = ["abcd".toList] := by
      decide +kernel
    rw [manyLines, cut_replicate_mark, List.map_append, List.map_replicate, hlast]
    exact overlong_replicate_nil 2147483647 (by decide) (by decide) (by decide)
  have hscan : scanFile 3 (holding manyLines) (.ofText "a.go") =
      [.warn "a.go:-2147483648 (4) abcd"] := by
    rw [scanFile_of_read (read_holding manyLines), scanBytes_eq, hoverlong]
    decide +kernel
  refine ⟨hscan, fun h => ?_⟩
  have hclaimed := h 3 (holding manyLines) (.ofText "a.go") manyLines (read_holding manyLines)
  rw [hscan, hoverlong] at hclaimed
  exact absurd hclaimed (by decide +kernel)

end LineLength

end LintSuite
